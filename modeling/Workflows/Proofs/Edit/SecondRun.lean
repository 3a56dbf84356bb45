import Workflows.Proofs.Edit.FirstRun

/-!
# SecondRun — changes that have been carried out on trial, carried out for good

Both runs start from the same object, but the second one has the changes as the first one has left
them. An object that is assigned comes with the objects of the changes that it holds, and what is
assigned within them then changes those changes before it is their turn. Unless the changes are
tangled this does not happen, and the second run leads to the same object as the first.

Main definitions:

* `ChangeRun.SecondRun` — what the steps keep;
* `ChangeRun.run_again` — what changes lead to that are carried out again.
-/

namespace Workflows

open Value

namespace ChangeRun

variable {r r' : ChangeRun} {c d e : Change} {t i : Nat} {cs : List Change}

/-- The changes hold, within their values, what others of them have as theirs. -/
def Held (cs : List Change) : Prop :=
  ∀ (i : Nat) (d : Change), cs[i]? = some d → ∀ j ∈ d.holds, ∀ e : Change, cs[j]? = some e →
    ∃ w, e.keys = d.keys ++ w ∧ readAt w d.value = some e.value

/-- No object is assigned before two assignments within its place, the second of which makes up for
the first. -/
def Untangled (cs : List Change) : Prop :=
  ∀ i j k : Nat, i < j → j < k → ∀ a b c : Change,
    cs[i]? = some a → cs[j]? = some b → cs[k]? = some c →
      a.isObject = true → a.keys <+: c.keys → ¬ c.keys <+: b.keys

/-- What the steps of a second run keep: the changes that are still to come have the values that
they have started with. Those among them that have been placed have come with an object that has
been assigned. -/
structure SecondRun (cs : List Change) (t : Nat) (r : ChangeRun) : Prop where
  consistent : r.Consistent
  paths : r.changes.map (·.path) = cs.map (·.path)
  pending : ∀ i, t ≤ i → ∀ d c : Change, r.changes[i]? = some d → cs[i]? = some c →
    d.value = c.value
  reached : ∀ i ∈ r.placed, t ≤ i → ∀ c : Change, cs[i]? = some c →
    ∃ j < t, ∃ a, cs[j]? = some a ∧ a.isObject = true ∧ a.keys <+: c.keys
  holds : ∀ i, t ≤ i → ∀ d, r.changes[i]? = some d → ∀ j ∈ d.holds, ∀ e c : Change,
    r.changes[j]? = some e → cs[j]? = some c →
      ∃ w u, e.keys = d.keys ++ w ∧ readAt w d.value = some u ∧ (t ≤ j → u = c.value)

theorem secondRun_start (hheld : Held cs) (data : Entries Value) :
    SecondRun cs 0 { data := data, changes := cs } where
  consistent := by simp [Consistent]
  paths := rfl
  pending i _ d c hd hc := by rw [Option.some.inj (hd.symm.trans hc)]
  reached := by simp
  holds i _ d hd j hj e c he hc := by
    rcases hheld i d hd j hj e he with ⟨w, hw, hread⟩
    exact ⟨w, e.value, hw, hread, fun _ => by rw [Option.some.inj (he.symm.trans hc)]⟩

namespace SecondRun

/-! ## One step -/

section Step

variable (hr : SecondRun cs t r) (hc : r.changes[t]? = some c)

include hr hc in
theorem holdsWithin : r.HoldsWithin c := by
  intro j hj d hd
  rcases getElem?_of_paths hr.paths hd with ⟨d₀, hd₀, -⟩
  rcases hr.holds t le_rfl c hc j hj d d₀ hd hd₀ with ⟨w, u, hw, hu, -⟩
  exact ⟨w, u, hw, hu⟩

include hr hc in
/-- A change that is still to come keeps its value. -/
theorem pending_step {d₀ : Change} (huntangled : Untangled cs) (hi : t + 1 ≤ i)
    (hd : r.changes[i]? = some d) (hd₀ : cs[i]? = some d₀) (hfollows : r.Follows t c i d e) :
    e.value = d₀.value := by
  rcases getElem?_of_paths hr.paths hc with ⟨c₀, hc₀, -⟩
  have hdvalue : d.value = d₀.value := hr.pending i (by omega) d d₀ hd hd₀
  by_cases hafter : i ∈ r.placedAfter t c
  · have hbecomes := hfollows.becomes hafter
    generalize e.value = u at hbecomes
    cases hbecomes with
    | kept => exact hdvalue
    | @filled w _ hplaced hkeys =>
      -- The object has come with one that encloses it, so nothing is assigned within it yet.
      rcases hr.reached i hplaced (by omega) d₀ hd₀ with ⟨j, hj, a, ha, hobject, hprefix⟩
      refine absurd ?_ (huntangled j t i hj (by omega) a c₀ d₀ ha hc₀ hd₀ hobject hprefix)
      rw [← keys_eq_of_paths hr.paths hc hc₀, hkeys, ← keys_eq_of_paths hr.paths hd hd₀]
      exact List.prefix_append d.keys w
    | assigned _ hit => omega
    | @held w u _ hiheld hkeys hu =>
      -- It comes with the object that is assigned, in which it stands with its own value.
      rcases hr.holds t le_rfl c hc i hiheld d d₀ hd hd₀ with ⟨w', u', hw', hu', hsame⟩
      obtain rfl : w = w' := List.append_cancel_left (hkeys.symm.trans hw')
      rw [← hsame (by omega)]
      exact Option.some.inj (hu.symm.trans hu')
  · rw [hfollows.apart hafter, hdvalue]

include hr hc in
/-- What is placed before it is its turn comes with an object that has been assigned. -/
theorem reached_step {d₀ : Change} (hi : i ∈ r.placedAfter t c) (hle : t + 1 ≤ i)
    (hd₀ : cs[i]? = some d₀) :
    ∃ j < t + 1, ∃ a, cs[j]? = some a ∧ a.isObject = true ∧ a.keys <+: d₀.keys := by
  rcases of_mem_placedAfter hi with hplaced | ⟨hobject, rfl | hiheld⟩
  · rcases hr.reached i hplaced (by omega) d₀ hd₀ with ⟨j, hj, a, ha⟩
    exact ⟨j, Nat.lt_succ_of_lt hj, a, ha⟩
  · omega
  · rcases getElem?_of_paths hr.paths hc with ⟨c₀, hc₀, -⟩
    rcases getElem?_of_paths hr.paths.symm hd₀ with ⟨d, hd, -⟩
    rcases hr.holdsWithin hc i hiheld d hd with ⟨w, u, hw, -⟩
    have hvalue : c.value = c₀.value := hr.pending t le_rfl c c₀ hc hc₀
    refine ⟨t, Nat.lt_succ_self t, c₀, hc₀, by rwa [Change.isObject, ← hvalue], ?_⟩
    rw [← keys_eq_of_paths hr.paths hd hd₀, hw, keys_eq_of_paths hr.paths hc hc₀]
    exact List.prefix_append c₀.keys w

end Step

theorem step (huntangled : Untangled cs) (hr : SecondRun cs t r)
    (hc : r.changes[t]? = some c) (h : r.step t c = .ok r') : SecondRun cs (t + 1) r' := by
  have hcarried := step_carried hr.consistent (hr.holdsWithin hc) hc h
  have hpending : ∀ i, t + 1 ≤ i → ∀ e d₀ : Change, r'.changes[i]? = some e → cs[i]? = some d₀ →
      e.value = d₀.value := by
    intro i hi e d₀ he hd₀
    rcases hcarried.follows i e he with ⟨d, hd, hfollows⟩
    exact hr.pending_step hc huntangled hi hd hd₀ hfollows
  refine
    { consistent := hcarried.consistent
      paths := (step_eq_ok h).2.trans hr.paths
      pending := hpending
      reached := fun i hi hle d₀ hd₀ => hr.reached_step hc (hcarried.placed ▸ hi) hle hd₀
      holds := fun i hi e he j hj f f₀ hf hf₀ => ?_ }
  -- What a change holds stands within it, whether it has been placed or is as it was.
  rcases hcarried.follows i e he with ⟨d, hd, hfollows⟩
  by_cases hafter : i ∈ r'.placed
  · rcases (hcarried.holds i e he hafter j hj).2 f hf with ⟨w, hw, hread⟩
    exact ⟨w, f.value, hw, hread, fun hle => hpending j hle f f₀ hf hf₀⟩
  · rw [hcarried.placed] at hafter
    obtain rfl := hfollows.apart hafter
    rcases hcarried.follows j f hf with ⟨g, hg, hfg⟩
    rcases hr.holds i (by omega) e hd j hj g f₀ hg hf₀ with ⟨w, u, hw, hu, hsame⟩
    exact ⟨w, u, hfg.keys.trans hw, hu, fun hle => hsame (by omega)⟩

end SecondRun

/-! ## The whole run -/

/-- A second run with changes that are not tangled does what the assignments do one after the
other. -/
theorem secondRun_run (hheld : Held cs) (huntangled : Untangled cs) (data : Entries Value) :
    (∀ r, run cs data = .ok r →
        SecondRun cs cs.length r ∧ DottedPath.assignAll (pairs cs) data = .ok r.data) ∧
      ∀ es, DottedPath.assignAll (pairs cs) data = .ok es → ∃ r, run cs data = .ok r :=
  run_of_inv (I := SecondRun cs) (fun _ _ hr => hr.paths) (fun t _ hr => hr.pending t le_rfl)
    (fun _ _ _ _ hr hc hstep => hr.step huntangled hc hstep) (secondRun_start hheld data)

/-! ## Both runs -/

theorem FirstRun.held (h : FirstRun cs cs.length r) : Held r.changes := by
  intro i d hd j hj e he
  exact (h.holds i d hd j hj).2.2 e he

theorem cons_sublist_drop {α : Type} {l s : List α} {i : Nat} {a : α} (h : l[i]? = some a)
    (hs : s.Sublist (l.drop (i + 1))) : (a :: s).Sublist (l.drop i) := by
  rcases List.getElem?_eq_some_iff.1 h with ⟨hlt, rfl⟩
  rw [List.drop_eq_getElem_cons hlt]
  exact hs.cons_cons _

theorem drop_sublist_drop {α : Type} (l : List α) {i j : Nat} (h : i ≤ j) :
    (l.drop j).Sublist (l.drop i) := by
  obtain ⟨k, rfl⟩ := Nat.exists_eq_add_of_le h
  rw [← List.drop_drop]
  exact List.drop_sublist k _

theorem FirstRun.untangled (h : FirstRun cs cs.length r)
    (hcs : ¬ Tangled (cs.map Change.assignment)) : Untangled r.changes := by
  intro i j k hij hjk a b c ha hb hc hobject hac hcb
  rcases getElem?_of_paths h.paths ha with ⟨a', ha', -⟩
  rcases getElem?_of_paths h.paths hb with ⟨b', hb', -⟩
  rcases getElem?_of_paths h.paths hc with ⟨c', hc', -⟩
  have hi : i < cs.length := (List.getElem?_eq_some_iff.1 ha').1
  have hobject' : a'.isObject = true := by
    by_contra hplain
    rw [Bool.not_eq_true] at hplain
    rw [Change.isObject, (h.plain i hi a a' ha ha' hplain).1] at hobject
    exact Bool.false_ne_true (hplain.symm.trans hobject)
  have hsub : [a', b', c'].Sublist cs := by
    have hlast : [c'].Sublist (cs.drop k) := cons_sublist_drop hc' (List.nil_sublist _)
    have hmiddle : [b', c'].Sublist (cs.drop j) :=
      cons_sublist_drop hb' (hlast.trans (drop_sublist_drop cs hjk))
    exact (cons_sublist_drop ha' (hmiddle.trans (drop_sublist_drop cs hij))).trans
      (List.drop_sublist i cs)
  rw [keys_eq_of_paths h.paths ha ha', keys_eq_of_paths h.paths hc hc'] at hac
  rw [keys_eq_of_paths h.paths hc hc', keys_eq_of_paths h.paths hb hb'] at hcb
  exact hcs ⟨_, _, _, hsub.map Change.assignment, hobject', hac, hcb⟩

/-- Changes that are not tangled, once they have been carried out on trial, can be carried out again
on the same object, and lead to the same. -/
theorem run_again (hfresh : ∀ c ∈ cs, c.holds = []) (hcs : ¬ Tangled (cs.map Change.assignment))
    {data : Entries Value} (h : run cs data = .ok r) :
    ∃ r', run r.changes data = .ok r' ∧ r'.data = r.data := by
  -- Both runs do what assignments do: the first those given, the second the settled ones.
  rcases (firstRun_run hfresh data).1 r h with ⟨hfirst, hall⟩
  rcases assignAll_pairs_iff.1 hall with ⟨hkeys, hats⟩
  have hpaths : ∀ d ∈ r.changes, "" ∉ d.keys := by
    intro d hd
    rcases List.mem_iff_getElem?.1 hd with ⟨i, hi⟩
    rcases getElem?_of_paths hfirst.paths hi with ⟨c, hc, -⟩
    rw [keys_eq_of_paths hfirst.paths hi hc]
    exact hkeys c (List.mem_of_getElem? hc)
  have hsettled : assignAts (r.changes.map Change.assignment) (.obj data) = some (.obj r.data) := by
    rw [hfirst.assignments]
    exact assignAts_settle hcs hats
  have hsecond := secondRun_run hfirst.held (hfirst.untangled hcs) data
  have hagain := assignAll_pairs_iff.2 ⟨hpaths, hsettled⟩
  rcases hsecond.2 _ hagain with ⟨r', hr'⟩
  exact ⟨r', hr', Except.ok.inj ((hsecond.1 r' hr').2.symm.trans hagain)⟩

end ChangeRun
end Workflows
