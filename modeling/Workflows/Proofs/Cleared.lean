import Mathlib.Data.List.DropRight
import Workflows.Document
import Workflows.Proofs.Tidy

/-!
# Cleared — connections without containers that hold no links

What holds no links can be cleared away: first the slots at the end of an output that are empty or
null, then the outputs without slots, then the sources without outputs. The links stay, one by one
and in order, and so does the content of every slot that is looked up.

Main definitions:

* `Outputs.cleared`, `Connections.cleared`, `Document.cleared`;
* `Connections.links_cleared`, `Connections.slotTargets_cleared` — links and slots;
* `Outputs.cleared_eq_nil_iff` — which sources are cleared away.
-/

namespace Workflows

/-! ## Entries that hold lists -/

namespace Entries

variable {α β : Type} {f : List α → List α} {es : Entries (List α)}

/-- Changes the lists of all entries, and keeps the entries in which something is left. -/
def mapFilled (f : List α → List α) (es : Entries (List α)) : Entries (List α) :=
  (es.map fun e => (e.1, f e.2)).filter fun e => !e.2.isEmpty

/-- The first entry is kept if something is left in it. -/
theorem mapFilled_cons (key : String) (value : List α) :
    mapFilled f ((key, value) :: es) =
      if f value = [] then es.mapFilled f else (key, f value) :: es.mapFilled f := by
  by_cases hvalue : f value = []
  · simp [mapFilled, hvalue]
  · simp [mapFilled, hvalue]

/-- Some keys vanish, and the others stay in order. -/
theorem keys_mapFilled_sublist (f : List α → List α) (es : Entries (List α)) :
    (es.mapFilled f).keys.Sublist es.keys := by
  rw [← keys_map f es]
  exact List.filter_sublist.map Prod.fst

/-- An entry that is not kept is looked up to the same as one that never was. -/
theorem getD_get?_mapFilled (h : es.Distinct) (hnil : f [] = []) (key : String) :
    ((es.mapFilled f).get? key).getD [] = f ((es.get? key).getD []) := by
  induction es with
  | nil => exact hnil.symm
  | cons e rest ih =>
    rcases e with ⟨k, v⟩
    rcases List.nodup_cons.1 h with ⟨hnew, hrest⟩
    by_cases hk : k = key
    · subst hk
      have hnone : (mapFilled f rest).get? k = none :=
        get?_eq_none_iff.2 fun hmem => hnew ((keys_mapFilled_sublist f rest).subset hmem)
      by_cases hv : f v = []
      · simp [mapFilled_cons, hv, hnone, get?]
      · simp [mapFilled_cons, hv, get?]
    · by_cases hv : f v = []
      · simpa [mapFilled_cons, hv, get?, hk] using ih hrest
      · simpa [mapFilled_cons, hv, get?, hk] using ih hrest

/-- The items of the entries that are kept are collected one entry after the other. -/
theorem flatMap_mapFilled (items : String × List α → List β) :
    (es.mapFilled f).flatMap items =
      es.flatMap fun e => if f e.2 = [] then [] else items (e.1, f e.2) := by
  induction es with
  | nil => rfl
  | cons e rest ih =>
    rcases e with ⟨k, v⟩
    by_cases hv : f v = []
    · simp [mapFilled_cons, hv, ih]
    · simp [mapFilled_cons, hv, ih]

/-- Where an empty list stands for no items, the entries that are not kept are not missed. -/
theorem flatMap_mapFilled_of_nil {items : String × List α → List β}
    (hnone : ∀ key, items (key, []) = []) :
    (es.mapFilled f).flatMap items = es.flatMap fun e => items (e.1, f e.2) := by
  rw [flatMap_mapFilled]
  refine List.flatMap_congr ?_
  intro e _
  split
  · rename_i hempty
    rw [hempty, hnone]
  · rfl

/-- No entry is kept if nothing is left in any of them. -/
theorem mapFilled_eq_nil_iff : es.mapFilled f = [] ↔ ∀ e ∈ es, f e.2 = [] := by
  rw [mapFilled, List.filter_eq_nil_iff, List.forall_mem_map]
  refine forall₂_congr ?_
  intro e _
  simp

/-- In every entry that is kept something is left. -/
theorem ne_nil_of_mem_mapFilled {e : String × List α} (h : e ∈ es.mapFilled f) : e.2 ≠ [] := by
  simpa using (List.mem_filter.1 h).2

/-! ### Assignment of lists -/

/-- Assigns a list to a key, the empty list by taking the entry away. -/
def putFilled (key : String) (value : List α) (es : Entries (List α)) : Entries (List α) :=
  if value = [] then es.erase key else es.put key value

/-- An assignment to another key passes the first entry by. -/
theorem putFilled_cons_of_ne {k key : String} (v value : List α) (h : k ≠ key) :
    putFilled key value ((k, v) :: es) = (k, v) :: es.putFilled key value := by
  simp only [putFilled, erase, put, if_neg h]
  split <;> rfl

end Entries

/-! ## Slots -/

namespace Connections

variable {slots : List Slot}

@[simp] theorem trim_nil : trim [] = [] := rfl

/-- All slots are taken away if all of them are empty. -/
theorem trim_eq_nil_iff : trim slots = [] ↔ ∀ s ∈ slots, s.isEmpty = true := by
  simp [trim, List.dropWhile_eq_nil_iff]

/-- The slots that are taken away have no targets, so a slot that is looked up keeps its own. -/
theorem targets_trim (slots : List Slot) (i : Nat) :
    Slot.targets ((trim slots)[i]?.getD none) = Slot.targets (slots[i]?.getD none) := by
  rcases exists_trim_append slots with ⟨tail, heq, htail⟩
  by_cases hi : i < (trim slots).length
  · have hsame : slots[i]? = (trim slots)[i]? := by
      conv_lhs => rw [heq]
      exact List.getElem?_append_left hi
    rw [hsame]
  · have hnone : (trim slots)[i]? = none := List.getElem?_eq_none (Nat.le_of_not_lt hi)
    have hempty : Slot.targets (slots[i]?.getD none) = [] := by
      conv_lhs => rw [heq, List.getElem?_append_right (Nat.le_of_not_lt hi)]
      cases hs : tail[i - (trim slots).length]? with
      | none => rfl
      | some s => simpa [Slot.isEmpty] using htail s (List.mem_of_getElem? hs)
    rw [hnone, hempty]
    rfl

end Connections

/-! ## Outputs and sources -/

/-- The outputs that hold links, without empty slots at their ends. -/
def Outputs.cleared (os : Outputs) : Outputs :=
  os.mapFilled Connections.trim

/-- The sources that hold links, with what holds them. -/
def Connections.cleared (cs : Connections) : Connections :=
  cs.mapFilled Outputs.cleared

def Document.cleared (d : Document) : Document :=
  { d with connections := d.connections.cleared }

namespace Outputs

variable {os : Outputs}

/-- A slot of a cleared output stands where it stood. -/
theorem slots_cleared (h : os.Distinct) (output : String) :
    os.cleared.slots output = Connections.trim (os.slots output) :=
  Entries.getD_get?_mapFilled h rfl output

/-- Nothing is left of outputs exactly if they hold no links. -/
theorem cleared_eq_nil_iff : os.cleared = [] ↔ os.size = 0 := by
  rw [cleared, Entries.mapFilled_eq_nil_iff, size, List.length_eq_zero_iff,
    List.flatMap_eq_nil_iff]
  refine forall₂_congr ?_
  intro o _
  simp [Connections.trim_eq_nil_iff, Slot.isEmpty]

end Outputs

namespace Connections

variable {cs : Connections}

/-- Clearing leaves the links of a source. -/
theorem outputLinks_cleared (source : String) (os : Outputs) :
    outputLinks source os.cleared = outputLinks source os := by
  calc outputLinks source os.cleared
      = os.flatMap fun o => linksFrom source o.1 0 (trim o.2) :=
        Entries.flatMap_mapFilled_of_nil fun _ => rfl
    _ = outputLinks source os :=
        List.flatMap_congr fun o _ => linksFrom_trim source o.1 0 o.2

/-- Clearing leaves the links of a document. -/
theorem links_cleared (cs : Connections) : cs.cleared.links = cs.links := by
  calc cs.cleared.links = cs.cleared.flatMap fun e => outputLinks e.1 e.2 := links_eq _
    _ = cs.flatMap fun e => outputLinks e.1 e.2.cleared :=
        Entries.flatMap_mapFilled_of_nil fun _ => rfl
    _ = cs.flatMap fun e => outputLinks e.1 e.2 :=
        List.flatMap_congr fun e _ => outputLinks_cleared e.1 e.2
    _ = cs.links := (links_eq cs).symm

/-- A source holds no links exactly if nothing is left of it. -/
theorem outputLinks_eq_nil_iff {source : String} {os : Outputs} :
    outputLinks source os = [] ↔ os.cleared = [] := by
  have hslots : ∀ (output : String) (slots : List Slot) (i : Nat),
      linksFrom source output i slots = [] ↔ trim slots = [] := by
    intro output slots
    induction slots with
    | nil => simp [linksFrom]
    | cons s rest ih => simp [linksFrom, ih, trim_eq_nil_iff, Slot.isEmpty]
  rw [outputLinks, List.flatMap_eq_nil_iff, Outputs.cleared, Entries.mapFilled_eq_nil_iff]
  exact forall₂_congr fun o _ => hslots o.1 o.2 0

/-- Nothing is left of connections exactly if they hold no links. -/
theorem cleared_eq_nil_iff : cs.cleared = [] ↔ cs.links = [] := by
  rw [cleared, Entries.mapFilled_eq_nil_iff, links_eq, List.flatMap_eq_nil_iff]
  exact forall₂_congr fun e _ => outputLinks_eq_nil_iff.symm

/-- No object among the connections has a key twice. -/
structure Keyed (cs : Connections) : Prop where
  keys : cs.Distinct
  outputs : ∀ e ∈ cs, e.2.Distinct

theorem Keyed.outputs_distinct (h : cs.Keyed) (source : String) : (cs.outputs source).Distinct := by
  unfold Connections.outputs
  cases hos : Entries.get? source cs with
  | none => exact List.nodup_nil
  | some os => exact h.outputs _ (Entries.mem_of_get? hos)

/-- The outputs of a source after clearing are the cleared ones. -/
theorem Keyed.outputs_cleared (h : cs.Keyed) (source : String) :
    cs.cleared.outputs source = (cs.outputs source).cleared :=
  Entries.getD_get?_mapFilled h.keys rfl source

/-- Every slot has the same targets after clearing. -/
theorem slotTargets_cleared (h : cs.Keyed) (source output : String) (slot : Nat) :
    cs.cleared.slotTargets source output slot = cs.slotTargets source output slot := by
  calc cs.cleared.slotTargets source output slot
      = Slot.targets (((cs.outputs source).cleared.slots output)[slot]?.getD none) := by
        rw [slotTargets, slots, h.outputs_cleared]
    _ = Slot.targets ((trim (cs.slots source output))[slot]?.getD none) := by
        rw [Outputs.slots_cleared (h.outputs_distinct source), slots]
    _ = cs.slotTargets source output slot := targets_trim _ slot

/-! ### Assignment of slots -/

/-- The slots of an output are set by two assignments, one in the other. -/
theorem setSlots_eq_putFilled (source output : String) (new : List Slot) (cs : Connections) :
    cs.setSlots source output new =
      cs.putFilled source ((cs.outputs source).putFilled output (trim new)) := by
  simp only [setSlots, Entries.putFilled, List.isEmpty_iff]
  rfl

end Connections
end Workflows
