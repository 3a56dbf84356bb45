import Mathlib.Tactic.MkIffOfInductiveProp
import Workflows.Proofs.Rewiring

/-!
# Tidy — connections without empty remains

Connections are tidy when no object has a key twice, no list of slots ends in an empty slot, no
source has an empty object, and no slot lists a target twice. Every change to tidy connections
leaves them tidy; an addition has to bring a target that its slot does not have, and a new name has
to be one that no link mentions.

Main statements: `Tidy.addTarget`, `Tidy.removeTargets`, `Tidy.removeNode`, `Tidy.renameNode`.
-/

namespace Workflows

/-- A list of slots that ends in a slot with targets, and whose slots list no target twice. -/
@[mk_iff]
structure TidySlots (slots : List Slot) : Prop where
  trimmed : (slots.getLast?.any fun s => !s.isEmpty) = true
  unrepeated : ∀ s ∈ slots, s.targets.Nodup

instance (slots : List Slot) : Decidable (TidySlots slots) :=
  decidable_of_iff _ (tidySlots_iff slots).symm

/-- The outputs of a source: at least one, each mentioned once and with tidy slots. -/
@[mk_iff]
structure Outputs.Tidy (os : Outputs) : Prop where
  keys : os.Distinct
  filled : os ≠ []
  slots : ∀ o ∈ os, TidySlots o.2

instance (os : Outputs) : Decidable os.Tidy :=
  decidable_of_iff _ (Outputs.tidy_iff os).symm

@[mk_iff]
structure Connections.Tidy (cs : Connections) : Prop where
  keys : cs.Distinct
  outputs : ∀ e ∈ cs, e.2.Tidy

instance (cs : Connections) : Decidable cs.Tidy :=
  decidable_of_iff _ (Connections.tidy_iff cs).symm

namespace Connections

variable {cs : Connections}

/-! ## Lists of slots -/

theorem mem_of_mem_trim {s : Slot} {slots : List Slot} (h : s ∈ trim slots) : s ∈ slots := by
  have hrev := List.mem_reverse.1 h
  exact List.mem_reverse.1 ((List.dropWhile_sublist _).subset hrev)

theorem trimmed_trim {slots : List Slot} (h : trim slots ≠ []) :
    ((trim slots).getLast?.any fun s => !s.isEmpty) = true := by
  have hhead := List.head?_dropWhile_not Slot.isEmpty slots.reverse
  unfold trim at h ⊢
  rw [List.getLast?_reverse]
  cases hd : (slots.reverse.dropWhile Slot.isEmpty).head? with
  | none =>
    rw [List.head?_eq_none_iff.1 hd] at h
    exact absurd rfl h
  | some s =>
    rw [hd] at hhead
    simpa using hhead

theorem TidySlots.trim {slots : List Slot} (hne : trim slots ≠ [])
    (h : ∀ s ∈ slots, s.targets.Nodup) : TidySlots (trim slots) where
  trimmed := trimmed_trim hne
  unrepeated s hs := h s (mem_of_mem_trim hs)

/-- A slot that gets a target is not empty, so a list of slots stays trimmed by an addition, and
becomes so when slots before it are made. -/
theorem trimmed_modify_padded {slots : List Slot} (k : Nat) (t : Target)
    (h : slots = [] ∨ (slots.getLast?.any fun s => !s.isEmpty) = true) :
    (((padded k slots).modify k fun s => some (s.targets ++ [t])).getLast?.any
      fun s => !s.isEmpty) = true := by
  have hlen : (padded k slots).length = max slots.length (k + 1) := by
    simp only [padded, List.length_append, List.length_replicate]
    omega
  rw [List.getLast?_eq_getElem?, List.getElem?_modify, List.length_modify, hlen]
  -- The last slot is the one that gets the target, or it is the old last one.
  by_cases hk : slots.length ≤ k + 1
  · have hlast : max slots.length (k + 1) - 1 = k := by omega
    have hin : k < (padded k slots).length := by omega
    simp [hlast, List.getElem?_eq_getElem hin, Slot.isEmpty, Slot.targets]
  · have hlast : max slots.length (k + 1) - 1 = slots.length - 1 := by omega
    have hne : k ≠ slots.length - 1 := by omega
    have hin : slots.length - 1 < slots.length := by omega
    rcases h with h | h
    · simp [h] at hin
    · rw [List.getLast?_eq_getElem?] at h
      simpa [hlast, hne, padded, List.getElem?_append_left hin] using h

/-- The slots that are made to have one at an index are empty. -/
theorem targets_padded (k : Nat) (slots : List Slot) :
    Slot.targets ((padded k slots)[k]?.getD none) = Slot.targets (slots[k]?.getD none) := by
  unfold padded
  by_cases hin : k < slots.length
  · rw [List.getElem?_append_left hin]
  · have hnone : slots[k]? = none := List.getElem?_eq_none (by omega)
    have hmade : k - slots.length < k + 1 - slots.length := by omega
    rw [List.getElem?_append_right (by omega), List.getElem?_replicate_of_lt hmade, hnone]
    rfl

/-- A target that is new to its slot repeats none. -/
theorem nodup_modify_padded {slots : List Slot} {k : Nat} {t : Target}
    (h : ∀ s ∈ slots, s.targets.Nodup) (hnew : t ∉ Slot.targets (slots[k]?.getD none)) :
    ∀ s ∈ (padded k slots).modify k fun s => some (s.targets ++ [t]), s.targets.Nodup := by
  have hold : ∀ s ∈ padded k slots, s.targets.Nodup := by
    intro s hs
    rcases List.mem_append.1 hs with hs | hs
    · exact h s hs
    · rw [List.eq_of_mem_replicate hs]
      exact List.nodup_nil
  intro s hs
  rcases List.getElem?_of_mem hs with ⟨j, hj⟩
  rw [List.getElem?_modify] at hj
  cases hs' : (padded k slots)[j]? with
  | none => simp [hs'] at hj
  | some s' =>
    have hnodup := hold s' (List.mem_of_getElem? hs')
    by_cases hslot : k = j
    · -- The slot of the target holds what it held before, or nothing if it has been made.
      subst hslot
      have hnot : t ∉ s'.targets := by
        rw [← targets_padded] at hnew
        simpa [hs'] using hnew
      simp only [hs', if_true, Option.map_eq_map, Option.map_some, Option.some.injEq] at hj
      rw [← hj]
      refine List.nodup_append.2 ⟨hnodup, List.nodup_singleton t, ?_⟩
      intro a ha b hb hab
      exact hnot (List.mem_singleton.1 hb ▸ hab ▸ ha)
    · simp only [hs', hslot, if_false, Option.map_eq_map, Option.map_some,
        Option.some.injEq] at hj
      exact hj ▸ hnodup

/-! ## Setting slots -/

theorem Tidy.outputs_tidy (h : cs.Tidy) (source : String) :
    cs.outputs source = [] ∨ (cs.outputs source).Tidy := by
  unfold Connections.outputs
  cases hos : Entries.get? source cs with
  | none => exact Or.inl rfl
  | some os => exact Or.inr (h.outputs _ (Entries.mem_of_get? hos))

theorem Tidy.slots_tidy (h : cs.Tidy) (source output : String) :
    cs.slots source output = [] ∨ TidySlots (cs.slots source output) := by
  unfold Connections.slots Outputs.slots
  cases hslots : Entries.get? output (cs.outputs source) with
  | none => exact Or.inl rfl
  | some slots =>
    have hmem := Entries.mem_of_get? hslots
    rcases h.outputs_tidy source with hnil | htidy
    · simp [hnil] at hmem
    · exact Or.inr (htidy.slots _ hmem)

theorem Tidy.unrepeated (h : cs.Tidy) {source output : String} {s : Slot}
    (hs : s ∈ cs.slots source output) : s.targets.Nodup := by
  rcases h.slots_tidy source output with hnil | htidy
  · simp [hnil] at hs
  · exact htidy.unrepeated s hs

theorem Tidy.put (h : cs.Tidy) {source : String} {os : Outputs} (hos : os.Tidy) :
    Connections.Tidy (Entries.put source os cs) where
  keys := h.keys.put source os
  outputs e he := by
    rcases Entries.mem_put he with rfl | hmem
    · exact hos
    · exact h.outputs e hmem

theorem Tidy.put_output (h : cs.Tidy) (source : String) {output : String} {slots : List Slot}
    (hslots : TidySlots slots) : Outputs.Tidy ((cs.outputs source).put output slots) where
  keys := by
    rcases h.outputs_tidy source with hnil | htidy
    · simp [hnil, Entries.put, Entries.Distinct, Entries.keys]
    · exact htidy.keys.put output slots
  filled := Entries.put_ne_nil output slots _
  slots o ho := by
    rcases Entries.mem_put ho with rfl | hmem
    · exact hslots
    · rcases h.outputs_tidy source with hnil | htidy
      · simp [hnil] at hmem
      · exact htidy.slots o hmem

theorem Tidy.setSlots (h : cs.Tidy) {source output : String} {new : List Slot}
    (hnew : ∀ s ∈ new, s.targets.Nodup) : (cs.setSlots source output new).Tidy := by
  have hsource : Connections.Tidy (Entries.erase source cs) :=
    ⟨h.keys.erase source, fun e he => h.outputs e ((Entries.erase_sublist source cs).subset he)⟩
  unfold Connections.setSlots
  by_cases hkept : (trim new).isEmpty
  · simp only [hkept, if_true]
    by_cases hos : ((cs.outputs source).erase output).isEmpty
    · simpa [hos] using hsource
    · -- Erasing has left an output, so there were outputs before.
      have hsub := Entries.erase_sublist output (cs.outputs source)
      have htidy : (cs.outputs source).Tidy := by
        refine (h.outputs_tidy source).resolve_left fun hnil => hos ?_
        simp [hnil, Entries.erase]
      rw [if_neg hos]
      refine h.put ⟨htidy.keys.erase output, ?_, fun o ho => htidy.slots o (hsub.subset ho)⟩
      intro hnil
      exact hos (List.isEmpty_iff.2 hnil)
  · have hslots := TidySlots.trim (fun hnil => hkept (List.isEmpty_iff.2 hnil)) hnew
    have hput : Outputs.Tidy ((cs.outputs source).put output (trim new)) :=
      h.put_output source hslots
    have hos : ((cs.outputs source).put output (trim new)).isEmpty = false := by
      simpa using hput.filled
    simpa [hkept, hos] using h.put hput

/-! ## Additions and removals -/

theorem Tidy.addTarget (h : cs.Tidy) {source output : String} {slot : Nat} {t : Target}
    (hnew : t ∉ cs.slotTargets source output slot) :
    (cs.addTarget source output slot t).Tidy := by
  refine h.put (h.put_output source ⟨?_, ?_⟩)
  · exact trimmed_modify_padded slot t ((h.slots_tidy source output).imp_right (·.trimmed))
  · exact nodup_modify_padded (fun s hs => h.unrepeated hs) hnew

theorem Tidy.removeTargets (h : cs.Tidy) (source output : String) (test : Target → Bool)
    (index : Option Int) : (cs.removeTargets source output test index).Tidy := by
  refine h.setSlots ?_
  intro s hs
  rcases List.mem_map.1 hs with ⟨⟨s', i⟩, hmem, rfl⟩
  have hnodup := h.unrepeated (List.fst_mem_of_mem_zipIdx hmem)
  by_cases hi : (cs.matchingSlots source output test index).contains i = true
  · simpa only [hi, if_true, Slot.targets_without] using hnodup.filter _
  · simpa only [if_neg hi] using hnodup

/-! ## Whole nodes -/

theorem Tidy.outputsWithout {os : Outputs} (h : os.Tidy) (node : String)
    (hne : Connections.outputsWithout node os ≠ []) :
    (Connections.outputsWithout node os).Tidy where
  keys := by
    -- The outputs before the empty ones among them are left out.
    let cleared : Outputs := os.map fun o =>
      (o.1, Connections.trim (o.2.map (Slot.without fun t => t.node == node)))
    have hkeys : cleared.keys = os.keys := by
      simp [cleared, Entries.keys, Function.comp_def]
    have hcleared : cleared.Distinct := by
      unfold Entries.Distinct
      rw [hkeys]
      exact h.keys
    exact hcleared.sublist List.filter_sublist
  filled := hne
  slots o ho := by
    rcases List.mem_filter.1 ho with ⟨hmem, hfull⟩
    rcases List.mem_map.1 hmem with ⟨⟨output, slots⟩, hslots, rfl⟩
    refine TidySlots.trim (by simpa using hfull) ?_
    intro s hs
    rcases List.mem_map.1 hs with ⟨s', hs', rfl⟩
    rw [Slot.targets_without]
    exact ((h.slots _ hslots).unrepeated s' hs').filter _

theorem Tidy.removeNode (h : cs.Tidy) (node : String) : (cs.removeNode node).Tidy := by
  have hrest := Entries.erase_sublist node cs
  refine ⟨(removeNode_sublist node cs).nodup (h.keys.erase node), ?_⟩
  intro e he
  rcases List.mem_filterMap.1 he with ⟨⟨source, os⟩, hmem, he'⟩
  have hos : os.Tidy := h.outputs _ (hrest.subset hmem)
  have hfilled : os.isEmpty = false := by simpa using hos.filled
  by_cases hkept : (Connections.outputsWithout node os).isEmpty
  · simp [hfilled, hkept] at he'
  · have heq : e = (source, Connections.outputsWithout node os) := by
      simpa [hfilled, hkept] using he'.symm
    rw [heq]
    exact Tidy.outputsWithout hos node fun hnil => hkept (List.isEmpty_iff.2 hnil)

theorem TidySlots.rename {slots : List Slot} (h : TidySlots slots) {old new : String}
    (hnew : ∀ s ∈ slots, ∀ t ∈ Slot.targets s, t.node ≠ new) :
    TidySlots (slots.map (Slot.rename old new)) where
  trimmed := by
    have hempty : ∀ s : Slot, (s.rename old new).isEmpty = s.isEmpty := by
      intro s
      simp [Slot.isEmpty]
    rw [List.getLast?_map, Option.any_map]
    simpa [Function.comp_def, hempty] using h.trimmed
  unrepeated s hs := by
    rcases List.mem_map.1 hs with ⟨s', hs', rfl⟩
    rw [Slot.targets_rename]
    refine List.Nodup.map_on ?_ (h.unrepeated s' hs')
    intro t ht u hu heq
    -- No target had the new name, so two renamed targets agree only if both had the old one.
    have htn := hnew s' hs' t ht
    have hun := hnew s' hs' u hu
    by_cases hto : t.node = old <;> by_cases huo : u.node = old <;>
      simp only [Target.rename, hto, huo, if_true, if_false, Target.mk.injEq, true_and] at heq
    · rcases t with ⟨tn, ti, tx⟩
      rcases u with ⟨un, ui, ux⟩
      simp_all
    · exact absurd (congrArg Target.node heq.symm) hun
    · exact absurd (congrArg Target.node heq) htn
    · exact heq

theorem Tidy.renameNode (h : cs.Tidy) {old new : String}
    (hkeys : (cs.keys.map fun k => if k = old then new else k).Nodup)
    (hnew : ∀ l ∈ cs.links, l.target.node ≠ new) : (cs.renameNode old new).Tidy := by
  unfold Connections.renameNode
  rw [renameSource_eq_map hkeys, List.map_map]
  constructor
  · simpa [Entries.Distinct, Entries.keys, Function.comp_def] using hkeys
  · intro e he
    rcases List.mem_map.1 he with ⟨⟨source, os⟩, hmem, rfl⟩
    have hos : os.Tidy := h.outputs _ hmem
    refine ⟨?_, by simpa using hos.filled, ?_⟩
    · simpa [Entries.Distinct, Entries.keys, Function.comp_def] using hos.keys
    · intro o ho
      rcases List.mem_map.1 ho with ⟨⟨output, slots⟩, hslots, rfl⟩
      refine TidySlots.rename (hos.slots _ hslots) ?_
      intro s hs t ht
      rcases List.getElem?_of_mem hs with ⟨j, hj⟩
      exact hnew ⟨source, output, j, t⟩
        (mem_links_iff.2 ⟨os, hmem, slots, hslots, by simpa [hj] using ht⟩)

end Connections
end Workflows
