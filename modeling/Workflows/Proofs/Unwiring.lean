import Workflows.Proofs.Tidy

/-!
# Unwiring — a removal that takes back what was added

Removing a node takes away every link from it or to it. Links at the node that were added before
leave nothing behind: the objects and the padding that were made for them are what the removal
clears away. So it comes to the same whether the links were added or not, whatever types of
outputs and slots they are at and in which order they came.

This needs two things of the connections. A null slot would not come back, as an addition makes a
list of it; and a source without outputs would be cleared away only after it has had one.

Main definitions:

* `Connections.Solid` — no null slots and no sources without outputs;
* `Connections.removeNode_addTarget` — an added link at the node makes no difference to a removal.
-/

namespace Workflows
namespace Connections

/-- Every source has an output, and no slot is null. -/
structure Solid (cs : Connections) : Prop where
  filled : ∀ e ∈ cs, e.2 ≠ []
  slots : ∀ e ∈ cs, ∀ o ∈ e.2, none ∉ o.2

variable {cs : Connections} {os : Outputs} {slots : List Slot} {source output name : String}
  {slot : Nat} {t : Target}

/-! ## Slots -/

/-- Empty slots at the end are taken away whatever stands before them. -/
theorem trim_append_of_empty {tail : List Slot} (h : ∀ s ∈ tail, s.isEmpty = true) :
    trim (slots ++ tail) = trim slots := by
  have htail : tail.reverse.dropWhile Slot.isEmpty = [] :=
    List.dropWhile_eq_nil_iff.2 fun s hs => h s (List.mem_reverse.1 hs)
  simp [trim, List.dropWhile_append, htail]

/-- Slots that end with one that holds something are all kept. -/
theorem trim_eq_self (h : (slots.getLast?.any fun s => !s.isEmpty) = true) :
    trim slots = slots := by
  rcases List.eq_nil_or_concat slots with rfl | ⟨front, s, rfl⟩
  · rfl
  · have hs : s.isEmpty = false := by simpa using h
    simp [trim, hs]

/-- A slot without targets that are meant keeps them all. -/
theorem without_eq_self {s : Slot} {test : Target → Bool} (h : ∀ t ∈ s.targets, test t = false) :
    s.without test = s := by
  cases s with
  | none => rfl
  | some ts =>
    have hkeep : (ts.filter fun t => !test t) = ts :=
      List.filter_eq_self.2 fun t ht => by simp [h t ht]
    exact congrArg some hkeep

/-- The slots with a target added to one of them, which is made if there is none. -/
def withTarget (slot : Nat) (t : Target) (slots : List Slot) : List Slot :=
  (padded slot slots).modify slot fun s => some (s.targets ++ [t])

/-- A target is added to a slot of an output of its source. -/
theorem addTarget_eq (source output : String) (slot : Nat) (t : Target) (cs : Connections) :
    cs.addTarget source output slot t =
      Entries.put source
        ((cs.outputs source).put output (withTarget slot t (cs.slots source output))) cs :=
  rfl

/-- The slots that are added are empty, and not null. -/
theorem none_not_mem_padded (hnull : none ∉ slots) : none ∉ padded slot slots := by
  intro hmem
  rcases List.mem_append.1 hmem with hold | hmade
  · exact hnull hold
  · cases List.eq_of_mem_replicate hmade

/-- A slot that gets a target is not null, nor are those before it. -/
theorem none_not_mem_withTarget (hnull : none ∉ slots) : none ∉ withTarget slot t slots := by
  intro hmem
  rcases List.mem_iff_getElem?.1 hmem with ⟨i, hi⟩
  rw [withTarget, List.getElem?_modify] at hi
  cases hs : (padded slot slots)[i]? with
  | none => simp [hs] at hi
  | some s =>
    by_cases hslot : slot = i
    · simp [hslot] at hi
    · have hnone : s = none := by simpa [hs, hslot] using hi
      exact none_not_mem_padded hnull (hnone ▸ List.mem_of_getElem? hs)

/-- A target that is added to a slot which is not null is gone once targets like it are taken
away. -/
theorem map_without_withTarget {test : Target → Bool} (hnull : none ∉ slots)
    (ht : test t = true) :
    (withTarget slot t slots).map (Slot.without test) =
      (padded slot slots).map (Slot.without test) := by
  refine List.ext_getElem? ?_
  intro i
  rw [withTarget, List.getElem?_map, List.getElem?_map, List.getElem?_modify]
  cases hs : (padded slot slots)[i]? with
  | none => rfl
  | some s =>
    by_cases hi : slot = i
    · cases s with
      | none => exact absurd (List.mem_of_getElem? hs) (none_not_mem_padded hnull)
      | some ts => simp [hi, Slot.without, Slot.targets, ht]
    · simp [hi]

/-- After the target, the slots that were made for it are taken away. -/
theorem trim_without_withTarget {test : Target → Bool} (hnull : none ∉ slots)
    (ht : test t = true) :
    trim ((withTarget slot t slots).map (Slot.without test)) =
      trim (slots.map (Slot.without test)) := by
  let made : List Slot := List.replicate (slot + 1 - slots.length) (some [])
  have hmade : ∀ s ∈ made.map (Slot.without test), s.isEmpty = true := by
    intro s hs
    rcases List.mem_map.1 hs with ⟨s', hs', rfl⟩
    rw [List.eq_of_mem_replicate hs']
    rfl
  calc trim ((withTarget slot t slots).map (Slot.without test))
      = trim ((padded slot slots).map (Slot.without test)) := by
        rw [map_without_withTarget hnull ht]
    _ = trim (slots.map (Slot.without test) ++ made.map (Slot.without test)) := by
        rw [padded, List.map_append]
    _ = trim (slots.map (Slot.without test)) := trim_append_of_empty hmade

/-! ## Outputs and sources -/

def outputWithout (name : String) (o : String × List Slot) : Option (String × List Slot) :=
  let kept := trim (o.2.map (Slot.without fun t => t.node == name))
  if kept.isEmpty then none else some (o.1, kept)

/-- The removal of a node goes through the outputs one by one, and some of them vanish. -/
theorem outputsWithout_eq (name : String) (os : Outputs) :
    outputsWithout name os = os.filterMap (outputWithout name) := by
  induction os with
  | nil => rfl
  | cons o rest ih =>
    rw [List.filterMap_cons, ← ih]
    by_cases hkept : (trim (o.2.map (Slot.without fun t => t.node == name))).isEmpty <;>
      simp [outputsWithout, outputWithout, hkept]

def sourceWithout (name : String) (e : String × Outputs) : Option (String × Outputs) :=
  if e.2.isEmpty then some e
  else
    let kept := outputsWithout name e.2
    if kept.isEmpty then none else some (e.1, kept)

/-- A source that holds outputs keeps those in which something is left. -/
theorem sourceWithout_of_ne_nil (h : os ≠ []) :
    sourceWithout name (source, os) =
      if (outputsWithout name os).isEmpty then none
      else some (source, outputsWithout name os) := by
  have hos : os.isEmpty = false := by simpa using h
  simp [sourceWithout, hos]

/-- The removal of a node takes its own entry away and goes through the others one by one. -/
theorem removeNode_eq (name : String) (cs : Connections) :
    cs.removeNode name = (cs.erase name).filterMap (sourceWithout name) :=
  rfl

/-- An output is left with the same slots whether a link to the node was added or not. -/
theorem outputWithout_withTarget (hnull : none ∉ slots) (ht : t.node = name) :
    outputWithout name (output, withTarget slot t slots) = outputWithout name (output, slots) := by
  have htrim : trim ((withTarget slot t slots).map (Slot.without fun t => t.node == name)) =
      trim (slots.map (Slot.without fun t => t.node == name)) :=
    trim_without_withTarget hnull (by simpa using ht)
  simp only [outputWithout, htrim]

/-- A link to the node, added and removed again, leaves the outputs of a source as they would be
without it. -/
theorem outputsWithout_put (slot : Nat) (hnull : none ∉ os.slots output) (ht : t.node = name) :
    outputsWithout name (os.put output (withTarget slot t (os.slots output))) =
      outputsWithout name os := by
  rw [outputsWithout_eq, outputsWithout_eq]
  refine Entries.filterMap_put ?_
  rw [outputWithout_withTarget hnull ht]
  cases hold : Entries.get? output os with
  | none =>
    -- The output has been made for the link, and nothing of it is left.
    have hslots : os.slots output = [] := by simp [Outputs.slots, hold]
    rw [hslots]
    rfl
  | some old =>
    have hslots : os.slots output = old := by simp [Outputs.slots, hold]
    rw [hslots]
    rfl

/-- The slots of solid connections are none of them null. -/
theorem Solid.slots_outputs (h : cs.Solid) (source output : String) :
    none ∉ (cs.outputs source).slots output := by
  unfold Connections.outputs Outputs.slots
  cases hos : Entries.get? source cs with
  | none => simp
  | some os =>
    cases hslots : Entries.get? output os with
    | none => simp [hslots]
    | some slots =>
      have hnull := h.slots _ (Entries.mem_of_get? hos) _ (Entries.mem_of_get? hslots)
      simpa [hslots] using hnull

/-- Connections stay solid when a link is added. -/
theorem Solid.addTarget (h : cs.Solid) : (cs.addTarget source output slot t).Solid where
  filled e he := by
    rcases Entries.mem_put he with rfl | hold
    · exact Entries.put_ne_nil _ _ _
    · exact h.filled e hold
  slots e he o ho := by
    rcases Entries.mem_put he with rfl | hold
    · rcases Entries.mem_put ho with rfl | ho
      · exact none_not_mem_withTarget (h.slots_outputs source output)
      · cases hos : Entries.get? source cs with
        | none => simp [Connections.outputs, hos] at ho
        | some os =>
          have hin : o ∈ os := by simpa [Connections.outputs, hos] using ho
          exact h.slots _ (Entries.mem_of_get? hos) o hin
    · exact h.slots e hold o ho

/-- A link to the node or from it makes no difference to the removal of the node. -/
theorem removeNode_addTarget (h : cs.Solid) (hat : source = name ∨ t.node = name) :
    (cs.addTarget source output slot t).removeNode name = cs.removeNode name := by
  rw [removeNode_eq, removeNode_eq, addTarget_eq]
  by_cases hsource : source = name
  · -- Whatever has been put under the name of the node, is erased.
    rw [hsource, Entries.erase_put_self]
  · have ht : t.node = name := hat.resolve_left hsource
    have hsame : outputsWithout name ((cs.outputs source).put output
        (withTarget slot t (cs.slots source output))) = outputsWithout name (cs.outputs source) :=
      outputsWithout_put slot (h.slots_outputs source output) ht
    rw [Entries.erase_put_of_ne _ _ hsource]
    refine Entries.filterMap_put ?_
    rw [Entries.get?_erase_of_ne _ hsource, sourceWithout_of_ne_nil (Entries.put_ne_nil _ _ _),
      hsame]
    cases hos : Entries.get? source cs with
    | none =>
      -- The source has been made for the link, and goes with it.
      have houtputs : cs.outputs source = [] := by simp [Connections.outputs, hos]
      rw [houtputs]
      rfl
    | some os =>
      have houtputs : cs.outputs source = os := by simp [Connections.outputs, hos]
      have hfilled : os ≠ [] := h.filled _ (Entries.mem_of_get? hos)
      rw [houtputs]
      exact (sourceWithout_of_ne_nil hfilled).symm

/-! ## Nodes without links -/

/-- An output that does not lead to the node stays as it is. -/
theorem outputWithout_eq_self {o : String × List Slot}
    (htrimmed : (o.2.getLast?.any fun s => !s.isEmpty) = true)
    (h : ∀ s ∈ o.2, ∀ t ∈ s.targets, t.node ≠ name) : outputWithout name o = some o := by
  have hslots : o.2.map (Slot.without fun t => t.node == name) = o.2 := by
    refine (List.map_congr_left ?_).trans (List.map_id o.2)
    intro s hs
    exact without_eq_self fun t ht => by simpa using h s hs t ht
  have hfilled : o.2.isEmpty = false := by
    cases ho : o.2 with
    | nil => simp [ho] at htrimmed
    | cons => rfl
  simp only [outputWithout, hslots, trim_eq_self htrimmed, hfilled]
  rfl

/-- Nothing changes when a node is removed that has no links. -/
theorem removeNode_eq_self (h : cs.Solid)
    (htrimmed : ∀ e ∈ cs, ∀ o ∈ e.2, (o.2.getLast?.any fun s => !s.isEmpty) = true)
    (hsource : name ∉ cs.keys) (htarget : ∀ l ∈ cs.links, l.target.node ≠ name) :
    cs.removeNode name = cs := by
  have houtput : ∀ e ∈ cs, ∀ o ∈ e.2, outputWithout name o = some o := by
    intro e he o ho
    refine outputWithout_eq_self (htrimmed e he o ho) ?_
    intro s hs t ht
    rcases List.getElem?_of_mem hs with ⟨i, hi⟩
    exact htarget ⟨e.1, o.1, i, t⟩
      (mem_links_iff.2 ⟨e.2, he, o.2, ho, by simpa [hi] using ht⟩)
  have hsame : ∀ e ∈ cs, sourceWithout name e = some e := by
    intro e he
    have hkept : outputsWithout name e.2 = e.2 := by
      rw [outputsWithout_eq]
      exact (List.filterMap_congr (houtput e he)).trans List.filterMap_some
    rw [sourceWithout_of_ne_nil (h.filled e he), hkept]
    simp [h.filled e he]
  calc cs.removeNode name = (cs.erase name).filterMap (sourceWithout name) := rfl
    _ = cs.filterMap (sourceWithout name) := by rw [Entries.erase_of_not_mem hsource]
    _ = cs.filterMap some := List.filterMap_congr hsame
    _ = cs := List.filterMap_some

end Connections
end Workflows
