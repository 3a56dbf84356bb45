import Workflows.Graph
import Workflows.Validation.Scene

/-!
# Wiring — which links of a document are valid

A link is valid when its source and its target are nodes of the document, its output exists on the
source, and the index of its input is not negative. Only valid links count as edges between nodes.

Main definitions:

* `Scene.declaredOutputs?`, `Scene.hasOutput` — the outputs of a node;
* `Scene.targetFault?` — why a target is not valid;
* `Wiring`, `Scene.wiring` — the valid links, the number of others, and the findings;
* `Scene.mainGraph` — the nodes with the valid links between different nodes that carry the main
  data.
-/

namespace Workflows

def mainOutput : String := "main"

/-- What is known of the links of a document. -/
structure Wiring where
  valid : List Link := []
  invalid : Nat := 0
  issues : List Issue := []
  deriving Repr

namespace Wiring

def append (a b : Wiring) : Wiring :=
  ⟨a.valid ++ b.valid, a.invalid + b.invalid, a.issues ++ b.issues⟩

instance : Append Wiring := ⟨append⟩

def join (ws : List Wiring) : Wiring :=
  ws.foldl append {}

def isConnected (w : Wiring) (name : String) : Bool :=
  w.valid.any fun l => l.source == name || l.target.node == name

def isFed (w : Wiring) (name : String) : Bool :=
  w.valid.any fun l => l.target.node == name

end Wiring

namespace Scene

/-! ## Outputs -/

/-- The error policy that adds an output to a node. -/
def errorOutputPolicy : String := "continueErrorOutput"

/-- The number of main outputs of a node; a node whose type is unknown, or whose outputs depend on
its parameters, may have any number. -/
def declaredOutputs? (s : Scene) (n : Node) : Option Nat :=
  match s.typeOf n with
  | none => none
  | some t =>
    if t.dynamicOutputs then none
    -- The output for failures comes behind those of the type.
    else some (t.outputs.length + if n.onError = some errorOutputPolicy then 1 else 0)

/-- Whether a node has the output. -/
def hasOutput (s : Scene) (n : Node) (output : String) (slot : Nat) : Bool :=
  output != mainOutput || (s.declaredOutputs? n).all fun declared => decide (slot < declared)

/-- The outputs that a type declares, with their indices. -/
def portTexts (t : NodeType) : String :=
  let ports := t.outputs.zipIdx.map fun (name, i) => toString i ++ "=" ++ name
  if ports.isEmpty then "none" else Text.join ", " ports

def slotPath (source output : String) (slot : Nat) : String :=
  "connections." ++ source ++ "." ++ output ++ "[" ++ toString slot ++ "]"

def outputIssue (s : Scene) (n : Node) (output : String) (slot : Nat) : Issue :=
  let declared := (s.declaredOutputs? n).getD 0
  ((Issue.error .connection "invalid_output_index"
    ("Output index " ++ toString slot ++ " of \"" ++ n.name ++ "\" exceeds the "
      ++ toString declared ++ " output(s) declared by " ++ n.type ++ " ("
      ++ ((s.typeOf n).map portTexts).getD "none" ++ ")")).onNode n).atPath
    (slotPath n.name output slot)

/-! ## Targets -/

/-- Why a target is not valid. -/
inductive TargetFault
  /-- It names the id of a node, which has another name. -/
  | usesId (name : String)
  | unknown
  | negativeIndex
  deriving DecidableEq, Repr

def targetFault? (s : Scene) (t : Target) : Option TargetFault :=
  match s.node? t.node with
  | none =>
    match s.nameOfId? t.node with
    | some name => some (.usesId name)
    | none => some .unknown
  | some _ => if t.index < 0 then some .negativeIndex else none

def targetFaultIssue (n : Node) (t : Target) : TargetFault → Issue
  | .usesId name =>
    { Issue.error .connection "connection_uses_id"
        ("Connection target uses node ID \"" ++ t.node ++ "\" instead of node name \"" ++ name
          ++ "\" (from \"" ++ n.name ++ "\")") with
      suggested := .str name }
  | .unknown =>
    Issue.error .connection "unknown_target"
      ("Connection to non-existent node: \"" ++ t.node ++ "\" from \"" ++ n.name ++ "\"")
  | .negativeIndex =>
    { Issue.error .connection "invalid_connection_index"
        ("Invalid connection index " ++ toString t.index ++ " from \"" ++ n.name ++ "\" to \""
          ++ t.node ++ "\": must be non-negative") with
      suggested := .int 0 }

def disabledTarget (n : Node) (t : Target) : Issue :=
  Issue.warning .connection "disabled_target"
    ("Connection to disabled node: \"" ++ t.node ++ "\" from \"" ++ n.name ++ "\"")

def selfReference (t : Target) : Issue :=
  Issue.warning .connection "self_reference"
    ("Node \"" ++ t.node ++ "\" has a self-referencing connection; only loop-capable node types "
      ++ "may connect to themselves")

def targetIssues (s : Scene) (n : Node) (t : Target) : List Issue :=
  match s.targetFault? t with
  | some fault => [targetFaultIssue n t fault]
  | none =>
    (if (s.node? t.node).any (·.disabled) then [disabledTarget n t] else [])
      ++ (if t.node = n.name ∧ s.isLoopCapable n = false then [selfReference t] else [])

/-! ## Slots and sources -/

def isValidLink (s : Scene) (n : Node) (l : Link) : Bool :=
  s.hasOutput n l.output l.slot && (s.targetFault? l.target).isNone

def slotWiring (s : Scene) (n : Node) (output : String) (slot : Nat) (targets : List Target) :
    Wiring :=
  let links := targets.map fun t => (⟨n.name, output, slot, t⟩ : Link)
  let path := slotPath n.name output slot
  { valid := links.filter (s.isValidLink n)
    invalid := (links.filter fun l => !s.isValidLink n l).length
    issues :=
      -- An output that does not exist is reported once for the slot, whatever it leads to.
      (if !targets.isEmpty && !s.hasOutput n output slot then [s.outputIssue n output slot]
        else [])
        ++ (targets.flatMap (s.targetIssues n)).map fun i => (i.onNode n).atPath path }

/-- The finding for a node that sends its failures to an output that leads nowhere. -/
def errorOutputIssues (s : Scene) (n : Node) (os : Outputs) : List Issue :=
  match s.typeOf n with
  | none => []
  | some t =>
    let index := t.outputs.length
    if n.onError = some errorOutputPolicy ∧ t.dynamicOutputs = false
        ∧ Slot.isEmpty (((os.slots mainOutput)[index]?).getD none) then
      [((Issue.warning .rule "error_output_unconnected"
        ("\"" ++ n.name ++ "\" uses onError continueErrorOutput but its error output (index "
          ++ toString index ++ ") is not connected")).onNode n).atPath "onError"]
    else []

def sourceWiring (s : Scene) (n : Node) (os : Outputs) : Wiring :=
  Wiring.join
      (os.map fun (output, slots) =>
        Wiring.join (slots.zipIdx.map fun (slot, i) => s.slotWiring n output i slot.targets))
    ++ { issues := s.errorOutputIssues n os }

/-- The wiring of an entry whose name no node bears. -/
def strayWiring (s : Scene) (name : String) (os : Outputs) : Wiring :=
  let issue :=
    match s.nameOfId? name with
    | some real =>
      { Issue.error .connection "connection_uses_id"
          ("Connection uses node ID \"" ++ name ++ "\" instead of node name \"" ++ real
            ++ "\"") with
        suggested := .str real }
    | none =>
      Issue.error .connection "unknown_source"
        ("Connection from non-existent node: \"" ++ name ++ "\"")
  -- The entry itself is wrong, so it counts even if it holds no links.
  { invalid := max 1 os.size, issues := [issue.atPath ("connections." ++ name)] }

def wiring (s : Scene) : Wiring :=
  Wiring.join
    (s.document.connections.map fun (name, os) =>
      match s.node? name with
      | some n => s.sourceWiring n os
      | none => s.strayWiring name os)

/-! ## The graph -/

/-- The nodes that main links of a node lead to, in the order in which links of any type mention
them first. -/
def mainTargets (w : Wiring) (name : String) : List String :=
  let links := w.valid.filter fun l => l.source == name
  -- A link of another type may be what gives a target its place in the order.
  let main := (links.filter fun l => l.output == mainOutput).map (·.target.node)
  ((links.map (·.target.node)).eraseDups).filter fun v => v != name && main.contains v

/-- The nodes with the valid main links between different ones. -/
def mainGraph (s : Scene) (w : Wiring) : Graph :=
  ⟨s.names.map fun name => (name, mainTargets w name)⟩

end Scene
end Workflows
