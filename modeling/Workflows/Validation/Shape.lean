import Workflows.Graph.Cycles
import Workflows.Settings
import Workflows.Validation.Wiring

/-!
# Shape — the findings about the graph of a document

Nodes without links are pointed out. Data may only run in a circle through a node whose type is
made for loops; such a node has one output for the body of the loop, which has to lead back to it,
and one for the time when the loop is done, which must not. Very long chains of nodes are reported.

Main definitions:

* `Scene.cycleIssues` — cycles without a loop node;
* `Scene.loopIssues` — loop nodes whose outputs lead to the wrong places;
* `Scene.shapeIssues` — all findings about the graph.
-/

namespace Workflows
namespace Scene

/-! ## Lonely nodes and long chains -/

def orphanIssue (n : Node) : Issue :=
  (Issue.warning .connection "orphaned_node"
    ("Node \"" ++ n.name ++ "\" is not connected to any other nodes")).onNode n

def orphanIssues (s : Scene) (w : Wiring) : List Issue :=
  let executing := s.executing
  if executing.length ≤ 1 then []
  else (executing.filter fun n => !w.isConnected n.name).map orphanIssue

def chainIssues (settings : Settings) (g : Graph) : List Issue :=
  match g.longestChain? with
  | none => []
  | some length =>
    if settings.longChainThreshold.floor < length then
      [Issue.warning .style "long_chain"
        ("Workflow has a chain of " ++ toString length
          ++ " nodes; consider splitting it into sub-workflows")]
    else []

/-! ## Cycles -/

/-- The number of nodes up to which all cycles are looked at. -/
def fullCycleCheckNodes : Nat := 50

/-- The number of cycles up to which they are judged one by one. -/
def cycleLimit : Nat := 100

def lacksLoopNode (s : Scene) (cycle : List String) : Bool :=
  cycle.all fun name => !(s.node? name).any s.isLoopCapable

def cycleIssue (cycle : List String) : Issue :=
  { Issue.error .connection "cycle"
      ("Cycle without a loop node: " ++ Text.join " -> " (cycle ++ cycle.take 1)) with
    fix := some "Route repeated processing through a loop node such as Split in Batches" }

def firstCycleIssue (cycle : List String) : Issue :=
  Issue.error .connection "cycle"
    ("Cycle detected without a loop node: " ++ Text.join " -> " cycle
      ++ "... (graph too large for full cycle analysis)")

def tooManyCycles : Issue :=
  Issue.error .connection "too_many_cycles"
    ("Too many cycles to validate (>" ++ toString cycleLimit
      ++ "). Simplify the workflow structure.")

/-- Whether the message of the first issue does not come after that of the second. -/
def messageLe (a b : Issue) : Bool :=
  !decide (b.message < a.message)

def harmfulCycleIssues (s : Scene) (cycles : List (List String)) : List Issue :=
  ((cycles.filter s.lacksLoopNode).map cycleIssue).mergeSort messageLe

/-- The findings for the cycles of a graph. In a large graph only the first cycle of a search is
looked at. In a small one the cycles are judged one by one up to the limit; that there are more of
them is a finding of its own. -/
def cycleIssues (s : Scene) (g : Graph) : List Issue :=
  if fullCycleCheckNodes < g.nodes.length then
    ((g.firstCycle?.toList).filter s.lacksLoopNode).map firstCycleIssue
  else
    let cycles := g.cyclesUpTo (cycleLimit + 1)
    -- Which cycles come first is a matter of the search; the rest is not looked at.
    s.harmfulCycleIssues (cycles.take cycleLimit)
      ++ (if cycleLimit < cycles.length then [tooManyCycles] else [])

/-! ## Loop nodes -/

/-- The nodes other than the source that the main links of a slot lead to. -/
def slotNodes (s : Scene) (source : String) (slot : Nat) : List String :=
  ((s.document.connections.slotTargets source mainOutput slot).map (·.node)).filter fun name =>
    name != source && (s.node? name).isSome

def loopNotClosed (n : Node) (target : String) : Issue :=
  { (Issue.warning .connection "loop_not_closed"
      ("The \"loop\" output of \"" ++ n.name ++ "\" goes to \"" ++ target
        ++ "\", which doesn't connect back to \"" ++ n.name ++ "\"")).onNode n with
    fix := some "Connect the last node of the loop body back to the loop node" }

def outputsReversed (n : Node) (done loop : Nat) (target : String) : Issue :=
  (Issue.error .connection "loop_outputs_reversed"
    ("Loop node \"" ++ n.name ++ "\" outputs appear reversed: \"" ++ target
      ++ "\" is on the \"done\" output (index " ++ toString done
      ++ ") but connects back to the loop node; loop bodies belong on the \"loop\" output (index "
      ++ toString loop ++ ")")).onNode n

/-- The findings for the outputs of one loop node. -/
def loopNodeIssues (s : Scene) (settings : Settings) (g : Graph) (n : Node) (t : NodeType) :
    List Issue :=
  match t.outputs.idxOf? "done", t.outputs.idxOf? "loop" with
  | some done, some loop =>
    let returns := fun target => g.reaches settings.loopBackMaxDepth.ceiling.toNat target n.name
    ((s.slotNodes n.name loop).filter fun v => !returns v).map (loopNotClosed n)
      ++ ((s.slotNodes n.name done).filter returns).map (outputsReversed n done loop)
  | _, _ => []

def loopIssues (s : Scene) (settings : Settings) (g : Graph) : List Issue :=
  s.nodes.flatMap fun n =>
    match s.typeOf n with
    | some t =>
      if !n.disabled && t.isLoopCapable then s.loopNodeIssues settings g n t else []
    | none => []

def shapeIssues (s : Scene) (settings : Settings) (w : Wiring) : List Issue :=
  let g := s.mainGraph w
  s.orphanIssues w ++ s.cycleIssues g ++ s.loopIssues settings g ++ chainIssues settings g

end Scene
end Workflows
