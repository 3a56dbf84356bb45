import Workflows.Validation

/-!
# Outline — what the checks of the whole document read of its nodes

Two kinds of checks make up a report. Some look at one node, with all that it holds. The others look
at the document as a whole: at names and ids, at links, at the graph they make. Of a node these read
no more than its name, its id, its type, whether it is disabled, and its error policy. Documents with
the same outline have the same findings of this kind, and the same graph.

Main definitions:

* `Node.outline`, `Document.outline`, `Scene.outline` — what these checks read;
* `Scene.structureIssues_congr`, `Scene.wiring_congr`, `Scene.shapeIssues_congr` — scenes with the
  same outline have the same findings.
-/

namespace Workflows

def Node.outline (n : Node) : Node :=
  { name := n.name, id := n.id, type := n.type, disabled := n.disabled, onError := n.onError }

/-- What the checks of the whole document read of it. -/
def Document.outline (d : Document) : Document :=
  { nodes := d.nodes.map Node.outline, connections := d.connections }

namespace Scene

def outline (s : Scene) : Scene :=
  ⟨s.document.outline, s.catalog⟩

variable (s : Scene)

/-! ## Look-ups and kinds of nodes -/

theorem nodes_outline : s.outline.nodes = s.nodes.map Node.outline := rfl

/-- A node is found by its name in the outline, as its own outline. -/
theorem node?_outline (name : String) :
    s.outline.node? name = (s.node? name).map Node.outline := by
  calc
    s.outline.node? name
        = (s.nodes.map Node.outline).find? (·.name == name) := rfl
    _ = (s.nodes.find? (·.name == name)).map Node.outline := List.find?_map
    _ = (s.node? name).map Node.outline := rfl

theorem nameOfId?_outline (id : String) : s.outline.nameOfId? id = s.nameOfId? id := by
  calc
    s.outline.nameOfId? id
        = ((s.nodes.map Node.outline).find? (·.id == id)).map (·.name) := rfl
    _ = ((s.nodes.find? (·.id == id)).map Node.outline).map (·.name) := by
      rw [List.find?_map]
      rfl
    _ = (s.nodes.find? (·.id == id)).map (·.name) := Option.map_map _ _ _
    _ = s.nameOfId? id := rfl

theorem names_outline : s.outline.names = s.names := by
  have hnames : s.outline.document.nodeNames = s.document.nodeNames := List.map_map
  exact congrArg List.eraseDups hnames

/-- Whether a node executes shows in its outline. -/
theorem executes_outline (n : Node) : s.outline.executes n.outline = s.executes n := rfl

/-- The nodes that execute show in the outline. -/
theorem executing_outline : s.outline.executing = s.executing.map Node.outline := by
  calc
    s.outline.executing
        = (s.nodes.map Node.outline).filter s.outline.executes := rfl
    _ = (s.nodes.filter s.executes).map Node.outline := List.filter_map
    _ = s.executing.map Node.outline := rfl

/-- The nodes that start the workflow show in the outline. -/
theorem triggers_outline : s.outline.triggers = s.triggers.map Node.outline := by
  calc
    s.outline.triggers
        = s.outline.executing.filter s.outline.isTrigger := rfl
    _ = (s.executing.map Node.outline).filter s.outline.isTrigger := by rw [executing_outline]
    _ = (s.executing.filter s.isTrigger).map Node.outline := List.filter_map
    _ = s.triggers.map Node.outline := rfl

/-! ## Structure -/

/-- Names and ids that occur twice show in the outline. -/
theorem duplicateIssues_outline (names ids : List String) (ns : List Node) :
    duplicateIssues names ids (ns.map Node.outline) = duplicateIssues names ids ns := by
  induction ns generalizing names ids with
  | nil => rfl
  | cons n rest ih =>
    simp only [List.map_cons, duplicateIssues, ih]
    rfl

/-- The check of structure reads the outline only. -/
theorem structureIssues_outline : s.outline.structureIssues = s.structureIssues := by
  have hconnections : s.outline.document.connections = s.document.connections := rfl
  simp only [structureIssues, nodes_outline, duplicateIssues_outline, executing_outline,
    triggers_outline, hconnections, List.length_map, List.isEmpty_map]

/-! ## Links -/

/-- Whether a target is valid shows in the outline. -/
theorem targetFault?_outline (t : Target) : s.outline.targetFault? t = s.targetFault? t := by
  simp only [targetFault?, node?_outline, nameOfId?_outline]
  cases s.node? t.node with
  | none => rfl
  | some m => rfl

theorem targetIssues_outline (n : Node) (t : Target) :
    s.outline.targetIssues n.outline t = s.targetIssues n t := by
  have hdisabled :
      (s.outline.node? t.node).any (·.disabled) = (s.node? t.node).any (·.disabled) := by
    rw [node?_outline, Option.any_map]
    rfl
  simp only [targetIssues, targetFault?_outline, hdisabled]
  rfl

/-- The wiring of a slot reads the outline only. -/
theorem slotWiring_outline (n : Node) (output : String) (slot : Nat) (targets : List Target) :
    s.outline.slotWiring n.outline output slot targets = s.slotWiring n output slot targets := by
  have hvalid : s.outline.isValidLink n.outline = s.isValidLink n := by
    funext l
    simp only [isValidLink, targetFault?_outline]
    rfl
  have htargets : s.outline.targetIssues n.outline = s.targetIssues n :=
    funext (targetIssues_outline s n)
  simp only [slotWiring, hvalid, htargets]
  rfl

/-- The wiring of a source reads the outline only. -/
theorem sourceWiring_outline (n : Node) (os : Outputs) :
    s.outline.sourceWiring n.outline os = s.sourceWiring n os := by
  simp only [sourceWiring, slotWiring_outline]
  rfl

/-- The wiring of a document reads the outline only. -/
theorem wiring_outline : s.outline.wiring = s.wiring := by
  unfold wiring
  refine congrArg Wiring.join (List.map_congr_left ?_)
  intro e _
  rcases e with ⟨name, os⟩
  dsimp only
  rw [node?_outline]
  cases s.node? name with
  | none => simp only [Option.map_none, strayWiring, nameOfId?_outline]
  | some n => exact sourceWiring_outline s n os

/-! ## The graph -/

theorem mainGraph_outline (w : Wiring) : s.outline.mainGraph w = s.mainGraph w := by
  rw [mainGraph, mainGraph, names_outline]

/-- The nodes without links show in the outline. -/
theorem orphanIssues_outline (w : Wiring) : s.outline.orphanIssues w = s.orphanIssues w := by
  simp only [orphanIssues, executing_outline, List.length_map, List.filter_map, List.map_map]
  rfl

/-- The check of cycles reads the outline only. -/
theorem cycleIssues_outline (g : Graph) : s.outline.cycleIssues g = s.cycleIssues g := by
  have hname : ∀ name, (s.outline.node? name).any s.outline.isLoopCapable =
      (s.node? name).any s.isLoopCapable := by
    intro name
    rw [node?_outline, Option.any_map]
    rfl
  have hloop : s.outline.lacksLoopNode = s.lacksLoopNode := by
    funext cycle
    simp only [lacksLoopNode, hname]
  simp only [cycleIssues, harmfulCycleIssues, hloop]

/-- The check of loop nodes reads the outline only. -/
theorem loopIssues_outline (settings : Settings) (g : Graph) :
    s.outline.loopIssues settings g = s.loopIssues settings g := by
  have hslot : s.outline.slotNodes = s.slotNodes := by
    funext source slot
    have hconnections : s.outline.document.connections = s.document.connections := rfl
    simp only [slotNodes, hconnections, node?_outline, Option.isSome_map]
  have hnode : ∀ n t, s.outline.loopNodeIssues settings g (Node.outline n) t =
      s.loopNodeIssues settings g n t := by
    intro n t
    simp only [loopNodeIssues, hslot]
    rfl
  unfold loopIssues
  rw [nodes_outline, List.flatMap_map]
  refine congrArg (fun f => List.flatMap f s.nodes) ?_
  funext n
  simp only [hnode]
  rfl

/-- The check of the graph reads the outline only. -/
theorem shapeIssues_outline (settings : Settings) (w : Wiring) :
    s.outline.shapeIssues settings w = s.shapeIssues settings w := by
  simp only [shapeIssues, mainGraph_outline, orphanIssues_outline, cycleIssues_outline,
    loopIssues_outline]

/-! ## Scenes with the same outline -/

variable {s} {s' : Scene}

/-- Scenes with the same outline have the same catalog. -/
theorem catalog_of_outline (h : s'.outline = s.outline) : s'.catalog = s.catalog := by
  have hcatalog : s'.outline.catalog = s.outline.catalog := congrArg Scene.catalog h
  exact hcatalog

theorem names_congr (h : s'.outline = s.outline) : s'.names = s.names := by
  calc
    s'.names
        = s'.outline.names := (names_outline s').symm
    _ = s.outline.names := by rw [h]
    _ = s.names := names_outline s

theorem structureIssues_congr (h : s'.outline = s.outline) :
    s'.structureIssues = s.structureIssues := by
  calc
    s'.structureIssues
        = s'.outline.structureIssues := (structureIssues_outline s').symm
    _ = s.outline.structureIssues := by rw [h]
    _ = s.structureIssues := structureIssues_outline s

theorem wiring_congr (h : s'.outline = s.outline) : s'.wiring = s.wiring := by
  calc
    s'.wiring
        = s'.outline.wiring := (wiring_outline s').symm
    _ = s.outline.wiring := by rw [h]
    _ = s.wiring := wiring_outline s

theorem shapeIssues_congr (h : s'.outline = s.outline) (settings : Settings) (w : Wiring) :
    s'.shapeIssues settings w = s.shapeIssues settings w := by
  calc
    s'.shapeIssues settings w
        = s'.outline.shapeIssues settings w := (shapeIssues_outline s' settings w).symm
    _ = s.outline.shapeIssues settings w := by rw [h]
    _ = s.shapeIssues settings w := shapeIssues_outline s settings w

end Scene

namespace Validator

theorem statistics_outline (s : Scene) (w : Wiring) (texts : TextFindings) :
    statistics s.outline w texts = statistics s w texts := by
  simp only [statistics, Scene.nodes_outline, Scene.triggers_outline, List.length_map,
    List.filter_map]
  rfl

/-- Scenes with the same outline have the same statistics. -/
theorem statistics_congr {s s' : Scene} (h : s'.outline = s.outline) (w : Wiring)
    (texts : TextFindings) : statistics s' w texts = statistics s w texts := by
  calc
    statistics s' w texts
        = statistics s'.outline w texts := (statistics_outline s' w texts).symm
    _ = statistics s.outline w texts := by rw [h]
    _ = statistics s w texts := statistics_outline s w texts

/-- From the same findings on single nodes, documents with the same outline have the same report. -/
theorem reportOf_congr {s s' : Scene} (h : s'.outline = s.outline) (profile : Profile)
    (settings : Settings) (nodes : NodeFindings) (texts : TextFindings) :
    reportOf profile settings s' nodes texts = reportOf profile settings s nodes texts := by
  simp only [reportOf, Scene.wiring_congr h, Scene.structureIssues_congr h,
    Scene.shapeIssues_congr h, statistics_congr h]

end Validator
end Workflows
