import Workflows.Shape.Decoded

/-!
# Connections — links between the outputs and inputs of nodes

Connections are given by source: under the name of a node, then under the type of one of its
outputs, stands the list of its slots, and each slot lists the targets linked to it. A slot may be
null, which holds no more than an empty one.

Main definitions:

* `Target`, `Slot`, `Outputs`, `Connections`;
* `Connections.slots` — the slots of one output;
* `Link`, `Connections.links` — the connections as one list of links, in document order.
-/

namespace Workflows

/-- The far end of a link: a node, and the type and index of its input. -/
structure Target where
  node : String
  input : String
  index : Int
  deriving DecidableEq, Repr

abbrev Slot := Option (List Target)

abbrev Outputs := Entries (List Slot)

abbrev Connections := Entries Outputs

structure Link where
  source : String
  output : String
  slot : Nat
  target : Target
  deriving DecidableEq, Repr

namespace Slot

def targets (s : Slot) : List Target :=
  s.getD []

def isEmpty (s : Slot) : Bool :=
  s.targets.isEmpty

end Slot

namespace Outputs

/-- The slots of one type of output; none when the type is not mentioned. -/
def slots (output : String) (os : Outputs) : List Slot :=
  (os.get? output).getD []

def size (os : Outputs) : Nat :=
  (os.flatMap fun o => o.2.flatMap fun s => s.targets).length

end Outputs

namespace Connections

def outputs (source : String) (cs : Connections) : Outputs :=
  (cs.get? source).getD []

def slots (source output : String) (cs : Connections) : List Slot :=
  (cs.outputs source).slots output

/-- The targets of one slot; none when there is no such slot. -/
def slotTargets (source output : String) (slot : Nat) (cs : Connections) : List Target :=
  Slot.targets ((cs.slots source output)[slot]?.getD none)

/-- All links, by source, type of output, slot and place in the slot. -/
def links (cs : Connections) : List Link :=
  cs.flatMap fun (source, os) =>
    os.flatMap fun (output, slots) =>
      slots.zipIdx.flatMap fun (s, i) =>
        Slot.targets s |>.map fun t => ⟨source, output, i, t⟩

/-! ## Reading and writing -/

def decodeTarget : Value → Decoded Target :=
  Shape.model "ConnectionTarget" fun es =>
    (fun node input index _ => ⟨node, input, index⟩)
      <$> Shape.required (.single "node") Shape.string es
      <*> Shape.optional (.single "type") "main" Shape.string es
      <*> Shape.required (.single "index") Shape.integer es
      <*> Shape.noLeftovers [.single "node", .single "type", .single "index"] es

def decode : Value → Decoded Connections :=
  Shape.mapping (Shape.mapping (Shape.list (Shape.nullable (Shape.list decodeTarget))))

def targetValue (t : Target) : Value :=
  .obj [("node", .str t.node), ("type", .str t.input), ("index", .int t.index)]

def slotValue : Slot → Value
  | none => .null
  | some ts => .arr (ts.map targetValue)

def toValue (cs : Connections) : Value :=
  .obj (cs.map fun (source, os) =>
    (source, .obj (os.map fun (output, slots) => (output, .arr (slots.map slotValue)))))

end Connections
end Workflows
