import Workflows.Document.Connections

/-!
# Rewiring — changes to connections

Where links are taken away, slots at the end that are left empty go, and so do types of outputs
without slots and sources without outputs.

Main definitions:

* `Connections.addTarget`, `Connections.removeTargets`, `Connections.matchingSlots`;
* `Connections.removeNode`, `Connections.renameNode`.
-/

namespace Workflows

namespace Slot

def without (test : Target → Bool) (s : Slot) : Slot :=
  match s with
  | none => none
  | some ts => some (ts.filter fun t => !test t)

def rename (old new : String) (s : Slot) : Slot :=
  s.map fun ts => ts.map fun t => if t.node = old then { t with node := new } else t

end Slot

namespace Connections

/-- The slots without the empty ones at the end. -/
def trim (slots : List Slot) : List Slot :=
  (slots.reverse.dropWhile Slot.isEmpty).reverse

/-! ## Single slots -/

/-- The slots of a list that is made long enough to have one at an index. -/
def padded (index : Nat) (slots : List Slot) : List Slot :=
  slots ++ List.replicate (index + 1 - slots.length) (some [])

/-- Adds a target to a slot. Slots before it that did not exist are empty. -/
def addTarget (source output : String) (slot : Nat) (t : Target) (cs : Connections) :
    Connections :=
  let slots :=
    (padded slot (cs.slots source output)).modify slot fun s => some (s.targets ++ [t])
  cs.put source ((cs.outputs source).put output slots)

/-- Replaces the slots of an output, as far as there is something in them. -/
def setSlots (source output : String) (slots : List Slot) (cs : Connections) : Connections :=
  -- An output without slots goes, and with the last output the source.
  let kept := trim slots
  let os := cs.outputs source
  let os := if kept.isEmpty then os.erase output else os.put output kept
  if os.isEmpty then cs.erase source else cs.put source os

/-- Whether a target is the node, on the given input or on any. -/
def leadsTo (node : String) (input : Option String) (t : Target) : Bool :=
  t.node == node && input.all (· == t.input)

/-- The indices of the slots of an output that have a target for which a test holds; only one slot
is looked at when its index is given. -/
def matchingSlots (source output : String) (test : Target → Bool) (index : Option Int)
    (cs : Connections) : List Nat :=
  ((cs.slots source output).zipIdx.filter fun (s, i) =>
    index.all (· == (i : Int)) && s.targets.any test).map Prod.snd

def removeTargets (source output : String) (test : Target → Bool) (index : Option Int)
    (cs : Connections) : Connections :=
  let chosen := cs.matchingSlots source output test index
  cs.setSlots source output
    ((cs.slots source output).zipIdx.map fun (s, i) =>
      if chosen.contains i then s.without test else s)

/-! ## Whole nodes -/

/-- The outputs without links to a node. -/
def outputsWithout (node : String) (os : Outputs) : Outputs :=
  (os.map fun (output, slots) =>
    (output, trim (slots.map (Slot.without fun t => t.node == node)))).filter
      fun o => !o.2.isEmpty

def removeNode (node : String) (cs : Connections) : Connections :=
  (cs.erase node).filterMap fun (source, os) =>
    -- A source that had no outputs before is not the concern of this removal.
    if os.isEmpty then some (source, os)
    else
      let kept := outputsWithout node os
      if kept.isEmpty then none else some (source, kept)

/-- The entries with one key replaced by another. When the other key is there too, the entry that
comes first keeps its place and the one that comes last its value. -/
def renameSource (old new : String) (cs : Connections) : Connections :=
  cs.foldl (fun acc (source, os) => acc.put (if source = old then new else source) os) []

/-- Gives a node another name, as a source and as a target. -/
def renameNode (old new : String) (cs : Connections) : Connections :=
  (renameSource old new cs).map fun (source, os) =>
    (source, os.map fun (output, slots) => (output, slots.map (Slot.rename old new)))

end Connections
end Workflows
