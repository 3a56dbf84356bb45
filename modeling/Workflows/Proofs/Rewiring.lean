import Mathlib.Data.List.TakeWhile
import Workflows.Edit.Rewiring
import Workflows.Proofs.Entries

/-!
# Rewiring — what the changes to connections do to the links

Connections are objects in objects with lists of slots in them. What matters of them is the list of
their links, and every change is described here by what it does to that list: an addition puts one
link more, a removal takes those away for which a test holds, a new name is put in for the old one.
Slots without targets, which come and go on the way, hold no links.

Main statements:

* `mem_links_iff` — where a link stands;
* `links_addTarget_perm`, `links_removeTargets_perm` — additions and removals, as multisets;
* `links_removeNode`, `links_renameNode` — whole nodes, as lists.
-/

namespace Workflows

/-- A target under the new name, if it is the renamed node. -/
def Target.rename (old new : String) (t : Target) : Target :=
  if t.node = old then { t with node := new } else t

/-- A link with the new name at both of its ends. -/
def Link.rename (old new : String) (l : Link) : Link :=
  { l with
    source := if l.source = old then new else l.source
    target := l.target.rename old new }

/-- A node that keeps its name is renamed without any effect on targets. -/
theorem Target.rename_self (name : String) (t : Target) : t.rename name name = t := by
  unfold rename
  split
  · rename_i h
    rw [← h]
  · rfl

/-- A node that keeps its name is renamed without any effect on links. -/
theorem Link.rename_self (name : String) (l : Link) : l.rename name name = l := by
  unfold rename
  rw [Target.rename_self]
  split
  · rename_i h
    rw [← h]
  · rfl

namespace Slot

@[simp] theorem targets_without (test : Target → Bool) (s : Slot) :
    (s.without test).targets = s.targets.filter fun t => !test t := by
  cases s <;> rfl

@[simp] theorem targets_rename (old new : String) (s : Slot) :
    (s.rename old new).targets = s.targets.map (Target.rename old new) := by
  cases s <;> rfl

end Slot

namespace Connections

/-! ## The links of a list of slots -/

/-- The links from the slots of one output, the first of which has an index. -/
def linksFrom (source output : String) : Nat → List Slot → List Link
  | _, [] => []
  | i, s :: rest =>
    (s.targets.map fun t => ⟨source, output, i, t⟩) ++ linksFrom source output (i + 1) rest

def outputLinks (source : String) (os : Outputs) : List Link :=
  os.flatMap fun o => linksFrom source o.1 0 o.2

/-- The links of an output, slot by slot, are those that are collected with the index of the slot in
hand. -/
theorem flatMap_zipIdx_eq_linksFrom (source output : String) (i : Nat) (slots : List Slot) :
    ((slots.zipIdx i).flatMap fun s =>
      (Slot.targets s.1).map fun t => (⟨source, output, s.2, t⟩ : Link)) =
      linksFrom source output i slots := by
  induction slots generalizing i with
  | nil => rfl
  | cons s rest ih => simp [linksFrom, List.zipIdx_cons, ih]

/-- The links of a document are those of its sources, in order. -/
theorem links_eq (cs : Connections) :
    cs.links = cs.flatMap fun e => outputLinks e.1 e.2 := by
  have hopen : cs.links = cs.flatMap fun e => e.2.flatMap fun o => o.2.zipIdx.flatMap fun s =>
      (Slot.targets s.1).map fun t => ⟨e.1, o.1, s.2, t⟩ := rfl
  simp only [hopen, flatMap_zipIdx_eq_linksFrom, outputLinks]

section LinksFrom

variable (source output : String)

/-- The links of further slots come behind, and the slots count on. -/
theorem linksFrom_append (i : Nat) (front back : List Slot) :
    linksFrom source output i (front ++ back) =
      linksFrom source output i front ++ linksFrom source output (i + front.length) back := by
  induction front generalizing i with
  | nil => simp [linksFrom]
  | cons s rest ih =>
    have hindex : i + 1 + rest.length = i + (rest.length + 1) := by omega
    simp [linksFrom, ih, hindex]

/-- Empty slots hold no links. -/
theorem linksFrom_of_empty {slots : List Slot} (h : ∀ s ∈ slots, s.isEmpty = true) (i : Nat) :
    linksFrom source output i slots = [] := by
  induction slots generalizing i with
  | nil => rfl
  | cons s rest ih =>
    have hs : s.targets = [] := by
      simpa [Slot.isEmpty] using h s List.mem_cons_self
    have hrest := ih (fun s' hs' => h s' (List.mem_cons_of_mem _ hs')) (i + 1)
    simp [linksFrom, hs, hrest]

/-- A list of slots is its trimmed form with empty slots behind it. -/
theorem exists_trim_append (slots : List Slot) :
    ∃ tail, slots = trim slots ++ tail ∧ ∀ s ∈ tail, s.isEmpty = true := by
  refine ⟨(slots.reverse.takeWhile Slot.isEmpty).reverse, ?_, ?_⟩
  · have h := List.takeWhile_append_dropWhile (p := Slot.isEmpty) (l := slots.reverse)
    rw [trim, ← List.reverse_append, h, List.reverse_reverse]
  · intro s hs
    exact List.mem_takeWhile_imp (List.mem_reverse.1 hs)

/-- The slots that are taken away at the end held no links. -/
theorem linksFrom_trim (i : Nat) (slots : List Slot) :
    linksFrom source output i (trim slots) = linksFrom source output i slots := by
  rcases exists_trim_append slots with ⟨tail, heq, htail⟩
  have hnone := linksFrom_of_empty source output htail (i + (trim slots).length)
  conv_rhs => rw [heq, linksFrom_append, hnone, List.append_nil]

/-- A link of an output is a target in the slot that it names. -/
theorem mem_linksFrom_iff {l : Link} {i : Nat} {slots : List Slot} :
    l ∈ linksFrom source output i slots ↔
      l.source = source ∧ l.output = output ∧
        ∃ j, l.slot = i + j ∧ l.target ∈ Slot.targets (slots[j]?.getD none) := by
  induction slots generalizing i with
  | nil => simp [linksFrom, Slot.targets]
  | cons s rest ih =>
    simp only [linksFrom, List.mem_append, List.mem_map, ih]
    constructor
    · intro h
      rcases h with ⟨t, ht, rfl⟩ | ⟨hs, ho, j, hj, ht⟩
      · exact ⟨rfl, rfl, 0, rfl, by simpa using ht⟩
      · exact ⟨hs, ho, j + 1, by omega, by simpa using ht⟩
    · intro h
      rcases h with ⟨hs, ho, j, hj, ht⟩
      -- Either the slot of the link is the first one, or it is a slot of the rest.
      cases j with
      | zero =>
        refine Or.inl ⟨l.target, by simpa using ht, ?_⟩
        rcases l with ⟨source', output', slot, t⟩
        simp only [Nat.add_zero] at hj
        simp_all
      | succ j => exact Or.inr ⟨hs, ho, j, by omega, by simpa using ht⟩

/-- Where slot by slot the targets are filtered, so are the links. -/
theorem linksFrom_map_zipIdx (keep : Nat → Target → Bool) (change : Slot → Nat → Slot)
    (hchange : ∀ s j, (change s j).targets = s.targets.filter (keep j))
    (i : Nat) (slots : List Slot) :
    linksFrom source output i ((slots.zipIdx i).map fun (s, j) => change s j) =
      (linksFrom source output i slots).filter fun l => keep l.slot l.target := by
  induction slots generalizing i with
  | nil => rfl
  | cons s rest ih =>
    simp [linksFrom, List.zipIdx_cons, hchange, ih, List.filter_map, Function.comp_def]

/-- The links of one slot that lead where a test holds. -/
theorem filter_linksFrom_slot (test : Target → Bool) (k i : Nat) (slots : List Slot) :
    ((linksFrom source output i slots).filter fun l => l.slot == i + k && test l.target) =
      ((Slot.targets (slots[k]?.getD none)).filter test).map (Link.mk source output (i + k)) := by
  induction slots generalizing i k with
  | nil => simp [linksFrom, Slot.targets]
  | cons s rest ih =>
    cases k with
    | zero =>
      -- All links of the later slots have greater indices.
      have hrest : ((linksFrom source output (i + 1) rest).filter
          fun l => l.slot == i + 0 && test l.target) = [] := by
        refine List.filter_eq_nil_iff.2 ?_
        intro l hl
        rcases (mem_linksFrom_iff source output).1 hl with ⟨-, -, j, hj, -⟩
        have hne : l.slot ≠ i := by omega
        simp [hne]
      simp only [linksFrom, List.filter_append, hrest]
      simp [List.filter_map, Function.comp_def]
    | succ k =>
      have hstep := ih k (i + 1)
      have hindex : i + 1 + k = i + (k + 1) := by omega
      rw [hindex] at hstep
      simp only [linksFrom, List.filter_append, hstep]
      simp [List.filter_map, Function.comp_def]

/-- To rename a node in the slots is to rename it in their links. -/
theorem linksFrom_rename (old new : String) (i : Nat) (slots : List Slot) :
    linksFrom (if source = old then new else source) output i
        (slots.map (Slot.rename old new)) =
      (linksFrom source output i slots).map (Link.rename old new) := by
  induction slots generalizing i with
  | nil => rfl
  | cons s rest ih => simp [linksFrom, ih, Link.rename, Function.comp_def]

/-- The slots that are added for a link to come hold no links. -/
theorem linksFrom_padded (k : Nat) (slots : List Slot) :
    linksFrom source output 0 (padded k slots) = linksFrom source output 0 slots := by
  have hempty : ∀ s ∈ List.replicate (k + 1 - slots.length) (some ([] : List Target)),
      Slot.isEmpty s = true := by
    intro s hs
    rw [List.eq_of_mem_replicate hs]
    rfl
  rw [padded, linksFrom_append, linksFrom_of_empty source output hempty, List.append_nil]

/-- A target at the end of a slot is one link more. -/
theorem linksFrom_modify_perm (t : Target) {k : Nat} {slots : List Slot} (hk : k < slots.length)
    (i : Nat) :
    (linksFrom source output i (slots.modify k fun s => some (s.targets ++ [t]))).Perm
      (⟨source, output, i + k, t⟩ :: linksFrom source output i slots) := by
  induction slots generalizing i k with
  | nil => simp at hk
  | cons s rest ih =>
    cases k with
    | zero =>
      simp only [List.modify_zero_cons, linksFrom, Nat.add_zero]
      -- The new link stands behind those of its slot and before those of the later slots.
      have htargets : Slot.targets (some (s.targets ++ [t])) = s.targets ++ [t] := rfl
      rw [htargets, List.map_append, List.append_assoc]
      exact List.perm_middle
    | succ k =>
      have hstep := ih (by simpa using hk) (i + 1)
      have hindex : i + 1 + k = i + (k + 1) := by omega
      rw [hindex] at hstep
      simp only [List.modify_succ_cons, linksFrom]
      exact (hstep.append_left _).trans List.perm_middle

end LinksFrom

/-! ## The links of connections -/

/-- A link of a document is a target that stands where the link says. -/
theorem mem_links_iff {l : Link} {cs : Connections} :
    l ∈ cs.links ↔
      ∃ os, (l.source, os) ∈ cs ∧
        ∃ slots, (l.output, slots) ∈ os ∧ l.target ∈ Slot.targets (slots[l.slot]?.getD none) := by
  simp only [links_eq, outputLinks, List.mem_flatMap, mem_linksFrom_iff]
  constructor
  · intro h
    rcases h with ⟨⟨source, os⟩, he, ⟨output, slots⟩, ho, hs, hout, j, hj, ht⟩
    simp only [Nat.zero_add] at hj
    subst hj
    exact ⟨os, hs ▸ he, slots, hout ▸ ho, ht⟩
  · intro h
    rcases h with ⟨os, he, slots, ho, ht⟩
    exact ⟨(l.source, os), he, (l.output, slots), ho, rfl, rfl, l.slot, by simp, ht⟩

/-- The links of a source are found where its outputs are. -/
theorem outputLinks_outputs (source : String) (cs : Connections) :
    outputLinks source (cs.outputs source) =
      Entries.itemsAt (fun e : String × Outputs => outputLinks e.1 e.2) source cs := by
  unfold outputs Entries.itemsAt
  cases Entries.get? source cs with
  | none => rfl
  | some os => rfl

/-- The links of an output are found where its slots are. -/
theorem linksFrom_slots (source output : String) (os : Outputs) :
    linksFrom source output 0 (os.slots output) =
      Entries.itemsAt (fun o : String × List Slot => linksFrom source o.1 0 o.2) output os := by
  unfold Outputs.slots Entries.itemsAt
  cases Entries.get? output os with
  | none => rfl
  | some slots => rfl

/-! ## Additions and removals -/

/-- Setting the slots of an output trades its links for those of the new slots. -/
theorem links_setSlots_perm (source output : String) (new : List Slot) (cs : Connections) :
    ((cs.setSlots source output new).links
        ++ linksFrom source output 0 (cs.slots source output)).Perm
      (cs.links ++ linksFrom source output 0 new) := by
  let os := cs.outputs source
  let os' := if (trim new).isEmpty then os.erase output else os.put output (trim new)
  have hslots : (trim new).isEmpty = true → linksFrom source output 0 (trim new) = [] := by
    intro hkept
    rw [List.isEmpty_iff.1 hkept]
    rfl
  have houtputs : os'.isEmpty = true → outputLinks source os' = [] := by
    intro hos
    rw [List.isEmpty_iff.1 hos]
    rfl
  -- Inside the source, the output is erased or gets the new slots; trimming them loses no link.
  have hinner : (outputLinks source os' ++ linksFrom source output 0 (os.slots output)).Perm
      (outputLinks source os ++ linksFrom source output 0 new) := by
    rw [linksFrom_slots, ← linksFrom_trim source output 0 new]
    exact Entries.flatMap_putUnless_perm
      (fun o : String × List Slot => linksFrom source o.1 0 o.2) output (trim new) os hslots
  -- The source in turn is erased when no output is left, or gets the new outputs.
  have houter : ((cs.setSlots source output new).links ++ outputLinks source os).Perm
      (cs.links ++ outputLinks source os') := by
    rw [links_eq, links_eq, outputLinks_outputs]
    exact Entries.flatMap_putUnless_perm
      (fun e : String × Outputs => outputLinks e.1 e.2) source os' cs houtputs
  exact Entries.perm_of_exchange houter hinner

/-- Adding a target puts one link more. -/
theorem links_addTarget_perm (source output : String) (slot : Nat) (t : Target)
    (cs : Connections) :
    (cs.addTarget source output slot t).links.Perm (⟨source, output, slot, t⟩ :: cs.links) := by
  let old := cs.slots source output
  let new := (padded slot old).modify slot fun s => some (s.targets ++ [t])
  have hslots : (linksFrom source output 0 new).Perm
      (⟨source, output, slot, t⟩ :: linksFrom source output 0 old) := by
    have hlong : slot < (padded slot old).length := by
      simp only [padded, List.length_append, List.length_replicate]
      omega
    have hmodify := linksFrom_modify_perm source output t hlong 0
    rw [linksFrom_padded, Nat.zero_add] at hmodify
    exact hmodify
  have hinner := Entries.flatMap_put_perm
    (fun o : String × List Slot => linksFrom source o.1 0 o.2) output new (cs.outputs source)
  have houter := Entries.flatMap_put_perm
    (fun e : String × Outputs => outputLinks e.1 e.2) source
    ((cs.outputs source).put output new) cs
  rw [← linksFrom_slots] at hinner
  rw [← outputLinks_outputs, ← links_eq, ← links_eq] at houter
  have hexchanged : ((cs.addTarget source output slot t).links
      ++ linksFrom source output 0 old).Perm (cs.links ++ linksFrom source output 0 new) :=
    Entries.perm_of_exchange houter hinner
  -- The old links of the output stand on both sides.
  refine (List.perm_append_right_iff (linksFrom source output 0 old)).1 ?_
  refine hexchanged.trans ?_
  refine (hslots.append_left _).trans ?_
  exact List.perm_middle

/-- Whether a link stands in a slot that is looked at and leads where a test holds. -/
def selects (test : Target → Bool) (index : Option Int) (l : Link) : Bool :=
  index.all (· == (l.slot : Int)) && test l.target

/-- A slot is among those looked for if its index fits and one of its targets passes the test. -/
theorem mem_matchingSlots_iff {source output : String} {test : Target → Bool}
    {index : Option Int} {cs : Connections} {j : Nat} :
    j ∈ cs.matchingSlots source output test index ↔
      index.all (· == (j : Int)) = true ∧ ∃ t ∈ cs.slotTargets source output j, test t = true := by
  simp only [matchingSlots, slotTargets, List.mem_map, List.mem_filter, Prod.exists,
    Bool.and_eq_true, List.any_eq_true, List.mk_mem_zipIdx_iff_getElem?]
  constructor
  · intro h
    rcases h with ⟨s, i, ⟨hs, hindex, ht⟩, rfl⟩
    exact ⟨hindex, by simpa [hs] using ht⟩
  · intro h
    rcases h with ⟨hindex, t, ht, htest⟩
    cases hs : (cs.slots source output)[j]? with
    | none => simp [hs, Slot.targets] at ht
    | some s => exact ⟨s, j, ⟨hs, hindex, t, by simpa [hs] using ht, htest⟩, rfl⟩

/-- What is left of the slots of an output loses exactly the selected links. -/
theorem linksFrom_removeTargets (source output : String) (test : Target → Bool)
    (index : Option Int) (cs : Connections) :
    linksFrom source output 0
        ((cs.slots source output).zipIdx.map fun (s, i) =>
          if (cs.matchingSlots source output test index).contains i then s.without test else s) =
      (linksFrom source output 0 (cs.slots source output)).filter
        fun l => !selects test index l := by
  let chosen := cs.matchingSlots source output test index
  have hchange : ∀ (s : Slot) (j : Nat),
      Slot.targets (if chosen.contains j then s.without test else s) =
        s.targets.filter fun t => !(chosen.contains j && test t) := by
    intro s j
    by_cases hj : j ∈ chosen <;> simp [hj]
  rw [linksFrom_map_zipIdx source output _ _ hchange]
  -- A link for which the test holds is itself the reason why its slot is chosen.
  refine List.filter_congr ?_
  intro l hl
  rcases (mem_linksFrom_iff source output).1 hl with ⟨hs, ho, j, hj, ht⟩
  simp only [Nat.zero_add] at hj
  subst hj
  have hchosen : (chosen.contains l.slot && test l.target) = selects test index l := by
    rw [Bool.eq_iff_iff]
    simp only [selects, Bool.and_eq_true, List.contains_iff_mem, chosen, mem_matchingSlots_iff]
    constructor
    · intro h
      rcases h with ⟨⟨hindex, -⟩, htest⟩
      exact ⟨hindex, htest⟩
    · intro h
      rcases h with ⟨hindex, htest⟩
      exact ⟨⟨hindex, l.target, ht, htest⟩, htest⟩
  rw [hchosen]

/-- A removal takes away the selected links of its output. -/
theorem links_removeTargets_perm (source output : String) (test : Target → Bool)
    (index : Option Int) (cs : Connections) :
    ((cs.removeTargets source output test index).links
        ++ (linksFrom source output 0 (cs.slots source output)).filter
          (selects test index)).Perm cs.links := by
  have hset := links_setSlots_perm source output
    ((cs.slots source output).zipIdx.map fun (s, i) =>
      if (cs.matchingSlots source output test index).contains i then s.without test else s) cs
  rw [linksFrom_removeTargets] at hset
  let old := linksFrom source output 0 (cs.slots source output)
  have hsplit : (old.filter (selects test index)
      ++ old.filter fun l => !selects test index l).Perm old :=
    List.filter_append_perm (selects test index) old
  -- What is kept stands on both sides; the selected links make up the rest of the old ones.
  refine (List.perm_append_right_iff (old.filter fun l => !selects test index l)).1 ?_
  rw [List.append_assoc]
  exact (hsplit.append_left _).trans hset

/-- Where only one slot is chosen, it is the targets of this slot for which the test holds that are
taken away. -/
theorem links_removeTargets_of_slot {source output : String} {test : Target → Bool}
    {index : Option Int} {cs : Connections} {slot : Nat}
    (h : cs.matchingSlots source output test index = [slot]) :
    ((cs.removeTargets source output test index).links
        ++ ((cs.slotTargets source output slot).filter test).map
          (Link.mk source output slot)).Perm cs.links := by
  have hperm := links_removeTargets_perm source output test index cs
  -- As there is one such slot, the links that are chosen are those of the slot that pass the
  -- test.
  have hslot : ((linksFrom source output 0 (cs.slots source output)).filter
      (selects test index)) =
      ((cs.slotTargets source output slot).filter test).map (Link.mk source output slot) := by
    have hone := filter_linksFrom_slot source output test slot 0 (cs.slots source output)
    rw [Nat.zero_add] at hone
    unfold slotTargets
    rw [← hone]
    refine List.filter_congr ?_
    intro l hl
    rcases (mem_linksFrom_iff source output).1 hl with ⟨hs, ho, j, hj, ht⟩
    have hiff : l.slot = slot ↔ l.slot ∈ cs.matchingSlots source output test index := by
      rw [h, List.mem_singleton]
    rw [Bool.eq_iff_iff]
    simp only [selects, Bool.and_eq_true, beq_iff_eq, hiff, mem_matchingSlots_iff]
    constructor
    · intro hboth
      rcases hboth with ⟨hindex, htest⟩
      refine ⟨⟨hindex, l.target, ?_, htest⟩, htest⟩
      simpa [slotTargets, hj] using ht
    · intro hboth
      rcases hboth with ⟨⟨hindex, -⟩, htest⟩
      exact ⟨hindex, htest⟩
  rwa [hslot] at hperm

/-- A removal of targets leaves no links but those that were there. -/
theorem links_removeTargets_subset {source output : String} {test : Target → Bool}
    {index : Option Int} {cs : Connections} {l : Link}
    (h : l ∈ (cs.removeTargets source output test index).links) : l ∈ cs.links :=
  (links_removeTargets_perm source output test index cs).subset (List.mem_append_left _ h)

/-! ## Whole nodes -/

theorem source_of_mem_outputLinks {source : String} {os : Outputs} {l : Link}
    (h : l ∈ outputLinks source os) : l.source = source := by
  rcases List.mem_flatMap.1 h with ⟨o, -, hl⟩
  exact ((mem_linksFrom_iff source o.1).1 hl).1

/-- Without the links to a node the outputs hold what remains of their links. -/
theorem outputLinks_outputsWithout (node source : String) (os : Outputs) :
    outputLinks source (outputsWithout node os) =
      (outputLinks source os).filter fun l => l.target.node != node := by
  induction os with
  | nil => rfl
  | cons o rest ih =>
    rcases o with ⟨output, slots⟩
    let kept := trim (slots.map (Slot.without fun t => t.node == node))
    have hslots : linksFrom source output 0 kept =
        (linksFrom source output 0 slots).filter fun l => l.target.node != node := by
      have hmap : slots.map (Slot.without fun t => t.node == node) =
          slots.zipIdx.map fun (s, _) => s.without fun t => t.node == node := by
        rw [← List.zipIdx_map_fst 0 slots, List.map_map]
        simp [Function.comp_def]
      rw [linksFrom_trim, hmap]
      exact linksFrom_map_zipIdx source output (fun _ t => t.node != node)
        (fun s _ => s.without fun t => t.node == node) (fun s _ => Slot.targets_without _ s) 0 slots
    -- An output that is left out because nothing is kept of it has no links to lose.
    have hrest : outputLinks source (outputsWithout node ((output, slots) :: rest)) =
        linksFrom source output 0 kept ++ outputLinks source (outputsWithout node rest) := by
      by_cases hkept : kept.isEmpty
      · have hnone : kept = [] := List.isEmpty_iff.1 hkept
        simp only [outputsWithout, List.map_cons, List.filter_cons]
        rw [if_neg (by simpa using hnone)]
        simp [hnone, linksFrom]
      · simp only [outputsWithout, List.map_cons, List.filter_cons]
        rw [if_pos (by simpa using hkept)]
        rfl
    rw [hrest, ih, hslots]
    simp [outputLinks]

/-- Taking away a node takes away the links that lead from it or to it. -/
theorem links_removeNode {node : String} {cs : Connections} (h : cs.Distinct) :
    (cs.removeNode node).links =
      cs.links.filter fun l => l.source != node && l.target.node != node := by
  rw [removeNode, Entries.erase_eq_filter h, links_eq, links_eq]
  clear h
  induction cs with
  | nil => rfl
  | cons e rest ih =>
    rcases e with ⟨source, os⟩
    simp only [List.flatMap_cons, List.filter_append, ← ih]
    by_cases hsource : source = node
    · have hnone : ((outputLinks source os).filter
          fun l => l.source != node && l.target.node != node) = [] := by
        refine List.filter_eq_nil_iff.2 ?_
        intro l hl
        simp [source_of_mem_outputLinks hl, hsource]
      rw [hnone, List.filter_cons_of_neg (by simpa using hsource)]
      rfl
    · have hlinks : ((outputLinks source os).filter
          fun l => l.source != node && l.target.node != node) =
          outputLinks source (outputsWithout node os) := by
        rw [outputLinks_outputsWithout]
        refine List.filter_congr ?_
        intro l hl
        simp [source_of_mem_outputLinks hl, hsource]
      rw [hlinks, List.filter_cons_of_pos (by simpa using hsource), List.filterMap_cons]
      -- The source stays when it was empty before, or when something is kept of it.
      by_cases hos : os.isEmpty
      · have hnil : os = [] := List.isEmpty_iff.1 hos
        simp [hnil, outputLinks, outputsWithout]
      · by_cases hkept : (outputsWithout node os).isEmpty
        · have hnil : outputsWithout node os = [] := List.isEmpty_iff.1 hkept
          simp [hos, hnil, outputLinks]
        · simp [hos, hkept]

/-- Entries that come under keys not yet written are written behind the others. -/
theorem foldl_put_renamed {old new : String} {acc rest : Connections}
    (h : (acc.keys ++ rest.keys.map fun k => if k = old then new else k).Nodup) :
    rest.foldl (fun acc e => acc.put (if e.1 = old then new else e.1) e.2) acc =
      acc ++ rest.map fun e => (if e.1 = old then new else e.1, e.2) := by
  induction rest generalizing acc with
  | nil => simp
  | cons e rest ih =>
    rcases e with ⟨source, os⟩
    have hnew : (if source = old then new else source) ∉ Entries.keys acc := by
      intro hmem
      exact (List.nodup_append.1 h).2.2 _ hmem _ List.mem_cons_self rfl
    have hput := Entries.put_of_not_mem os hnew
    simp only [List.foldl_cons, hput]
    rw [ih]
    · simp
    · simpa [Entries.keys] using h

/-- Where no two sources come to bear one name, a new name is put in for the old one in place. -/
theorem renameSource_eq_map {old new : String} {cs : Connections}
    (h : (cs.keys.map fun k => if k = old then new else k).Nodup) :
    renameSource old new cs = cs.map fun e => (if e.1 = old then new else e.1, e.2) := by
  have hnone : (Entries.keys ([] : Connections) ++
      cs.keys.map fun k => if k = old then new else k).Nodup := by
    simpa [Entries.keys] using h
  exact foldl_put_renamed hnone

/-- A new name takes the place of the old one in every link. -/
theorem links_renameNode {old new : String} {cs : Connections}
    (h : (cs.keys.map fun k => if k = old then new else k).Nodup) :
    (cs.renameNode old new).links = cs.links.map (Link.rename old new) := by
  have houtputs : ∀ (source : String) (os : Outputs),
      outputLinks (if source = old then new else source)
        (os.map fun o => (o.1, o.2.map (Slot.rename old new))) =
        (outputLinks source os).map (Link.rename old new) := by
    intro source os
    simp only [outputLinks, List.flatMap_map, List.map_flatMap, linksFrom_rename]
  unfold renameNode
  rw [renameSource_eq_map h, links_eq, links_eq, List.map_flatMap, List.map_map, List.flatMap_map]
  refine List.flatMap_congr ?_
  intro e _
  exact houtputs e.1 e.2

/-! ## Sources -/

/-- An output without slots takes its source away when the source holds nothing else. -/
theorem setSlots_cases (source output : String) (new : List Slot) (cs : Connections) :
    cs.setSlots source output new = cs.erase source ∨
      ∃ os, cs.setSlots source output new = cs.put source os := by
  let os := cs.outputs source
  let os' := if (trim new).isEmpty then os.erase output else os.put output (trim new)
  by_cases hos : os'.isEmpty
  · refine Or.inl ?_
    simp only [setSlots]
    exact if_pos hos
  · refine Or.inr ⟨os', ?_⟩
    simp only [setSlots]
    exact if_neg hos

/-- A source gets an entry when its slots are set, and no other source does. -/
theorem mem_keys_setSlots {source output name : String} {new : List Slot} {cs : Connections}
    (h : name ∈ (cs.setSlots source output new).keys) : name = source ∨ name ∈ cs.keys := by
  rcases setSlots_cases source output new cs with heq | ⟨os, heq⟩
  · rw [heq] at h
    exact Or.inr (((Entries.erase_sublist source cs).map Prod.fst).subset h)
  · rw [heq] at h
    exact Entries.mem_keys_put h

/-- No source has two entries after its slots are set. -/
theorem distinct_setSlots {cs : Connections} (h : cs.Distinct) (source output : String)
    (new : List Slot) : (cs.setSlots source output new).Distinct := by
  rcases setSlots_cases source output new cs with heq | ⟨os, heq⟩
  · rw [heq]
    exact h.erase source
  · rw [heq]
    exact h.put source os

/-- When a node is removed its entry goes, and so do entries that have led to nothing else. -/
theorem removeNode_sublist (node : String) (cs : Connections) :
    (cs.removeNode node).keys.Sublist (cs.erase node).keys := by
  refine Entries.keys_filterMap_sublist ?_
  intro e e' he'
  rcases e with ⟨source, os⟩
  by_cases hos : os.isEmpty <;> by_cases hkept : (outputsWithout node os).isEmpty <;>
    simp [hos, hkept] at he' <;> simp [← he']

theorem keys_renameNode {old new : String} {cs : Connections}
    (h : (cs.keys.map fun k => if k = old then new else k).Nodup) :
    (cs.renameNode old new).keys = cs.keys.map fun k => if k = old then new else k := by
  unfold renameNode
  rw [renameSource_eq_map h]
  simp [Entries.keys, Function.comp_def]

end Connections
end Workflows
