import Workflows.Proofs.Edit.Runs

/-!
# FirstRun — changes that are carried out for the first time

The values that are given are assigned one after the other. An object among them is shared with the
place that it is assigned to, and takes in what is assigned there later, until the place is assigned
anew. So a run does what the assignments do, and leaves the values settled.

Main definitions:

* `ChangeRun.FirstRun` — what the steps keep;
* `ChangeRun.firstRun_run`, `ChangeRun.FirstRun.assignments` — what a run does, and what it leaves.
-/

namespace Workflows

open Value

namespace ChangeRun

variable {r r' : ChangeRun} {c d e : Change} {t i j : Nat} {cs : List Change}

def later (cs : List Change) (t : Nat) : Assignments :=
  (cs.drop t).map Change.assignment

theorem later_eq_cons (h : cs[t]? = some c) : later cs t = c.assignment :: later cs (t + 1) := by
  rcases List.getElem?_eq_some_iff.1 h with ⟨hlt, rfl⟩
  rw [later, List.drop_eq_getElem_cons hlt, List.map_cons, later]

/-- What the steps of a first run keep: the changes that are still to come are as they were given,
and what later assignments have made of the others, together with those that are still to come, is
what they leave. -/
structure FirstRun (cs : List Change) (t : Nat) (r : ChangeRun) : Prop where
  consistent : r.Consistent
  paths : r.changes.map (·.path) = cs.map (·.path)
  pending : ∀ i, t ≤ i → ∀ d c : Change, r.changes[i]? = some d → cs[i]? = some c → d = c
  started : ∀ i ∈ r.placed, i < t
  plain : ∀ i < t, ∀ d c : Change, r.changes[i]? = some d → cs[i]? = some c →
    c.isObject = false → d.value = c.value ∧ i ∉ r.placed
  settling : ∀ i < t, ∀ d c : Change, r.changes[i]? = some d → cs[i]? = some c →
    c.isObject = true → d.isObject = true ∧
      assignAts (inside c.keys (if i ∈ r.placed then later cs t else [])) d.value =
        assignAts (inside c.keys (later cs (i + 1))) c.value
  holds : ∀ i d, r.changes[i]? = some d → ∀ j ∈ d.holds, j < t ∧ (j ∈ r.placed → i ∈ r.placed) ∧
    ∀ e, r.changes[j]? = some e → ∃ w, e.keys = d.keys ++ w ∧ readAt w d.value = some e.value

theorem firstRun_start (hfresh : ∀ c ∈ cs, c.holds = []) (data : Entries Value) :
    FirstRun cs 0 { data := data, changes := cs } where
  consistent := by simp [Consistent]
  paths := rfl
  pending i _ d c hd hc := Option.some.inj (hd.symm.trans hc)
  started := by simp
  plain := by simp
  settling := by simp
  holds i d hd j hj := by simp [hfresh d (List.mem_of_getElem? hd)] at hj

theorem isObject_of_assignAt {w : List String} {x v u : Value} (hw : w ≠ [])
    (h : assignAt w x v = some u) : u.obj?.isSome = true := by
  cases w with
  | nil => exact absurd rfl hw
  | cons key rest =>
    rcases assignAt_cons_eq_some.1 h with ⟨es, inner, -, -, rfl⟩
    rfl

/-- What a change becomes takes in the assignment of the change of an index. -/
theorem Becomes.takes_in {u : Value} (h : r.Becomes t c i d u) (hne : i ≠ t) (hnone : c.holds = [])
    (hobject : d.isObject = true) (cs : Assignments) :
    u.obj?.isSome = true ∧
      assignAts (inside d.keys (c.assignment :: cs)) d.value = assignAts (inside d.keys cs) u := by
  cases h with
  | kept hi hparted =>
    have hinside : inside d.keys (c.assignment :: cs) = inside d.keys cs := by
      rw [Change.assignment, inside_of_parted hparted]
    exact ⟨hobject, by rw [hinside]⟩
  | @filled w _ hi hkeys hout hu =>
    have hw : w ≠ [] := by
      rintro rfl
      rw [hkeys, List.append_nil] at hout
      exact hout (List.prefix_refl d.keys)
    refine ⟨isObject_of_assignAt hw hu, ?_⟩
    rw [Change.assignment, hkeys, inside_of_within (hkeys ▸ hout), assignAts, hu, Option.bind_some]
  | assigned hc hi => exact absurd hi hne
  | held hc hi => simp [hnone] at hi

theorem Becomes.eq_assigned {u : Value} (h : r.Becomes t c t d u) (hnone : c.holds = [])
    (hnot : t ∉ r.placed) : u = c.value := by
  cases h with
  | kept hi => exact absurd hi hnot
  | filled hi => exact absurd hi hnot
  | assigned => rfl
  | held hc hi => simp [hnone] at hi

/-! ## One step -/

namespace FirstRun

section Step

variable (hr : FirstRun cs t r) (hc : r.changes[t]? = some c) (hgiven : cs[t]? = some c)
  (hnone : c.holds = [])

include hr in
theorem not_placed : t ∉ r.placed :=
  fun hi => lt_irrefl t (hr.started t hi)

include hnone in
theorem of_placed (hi : i ∈ r.placedAfter t c) : i ∈ r.placed ∨ (c.isObject = true ∧ i = t) := by
  simpa [hnone] using of_mem_placedAfter hi

include hr hnone in
theorem lt_of_placed (hi : i ∈ r.placedAfter t c) : i < t + 1 := by
  rcases of_placed hnone hi with hi | ⟨-, rfl⟩
  · exact Nat.lt_succ_of_lt (hr.started i hi)
  · exact Nat.lt_succ_self i

include hr hc hgiven hnone in
/-- A value that is no object stays as it was given. -/
theorem plain_step {c' : Change} (hi : i < t + 1) (hd : r.changes[i]? = some d)
    (hc' : cs[i]? = some c') (hplain : c'.isObject = false) :
    d.value = c'.value ∧ i ∉ r.placedAfter t c := by
  rcases Nat.lt_succ_iff_lt_or_eq.1 hi with hlt | rfl
  · rcases hr.plain i hlt d c' hd hc' hplain with ⟨hvalue, hnot⟩
    exact ⟨hvalue, fun hin => (of_placed hnone hin).elim hnot fun h => hlt.ne h.2⟩
  · obtain rfl : c = c' := Option.some.inj (hgiven.symm.trans hc')
    obtain rfl : c = d := Option.some.inj (hc.symm.trans hd)
    refine ⟨rfl, ?_⟩
    intro hin
    rcases of_placed hnone hin with hin | ⟨hobject, -⟩
    · exact hr.not_placed hin
    · simp [hplain] at hobject

include hr hgiven hnone in
/-- An object that has been assigned before takes in what is assigned. -/
theorem settling_step {c' : Change} (hlt : i < t) (hd : r.changes[i]? = some d)
    (hc' : cs[i]? = some c') (hobject : c'.isObject = true) (hfollows : r.Follows t c i d e) :
    e.isObject = true ∧
      assignAts (inside c'.keys (if i ∈ r.placedAfter t c then later cs (t + 1) else [])) e.value =
        assignAts (inside c'.keys (later cs (i + 1))) c'.value := by
  rcases hr.settling i hlt d c' hd hc' hobject with ⟨hdobject, hsettling⟩
  rw [← hsettling, ← keys_eq_of_paths hr.paths hd hc']
  by_cases hafter : i ∈ r.placedAfter t c
  · -- It still lies in the object, and nothing but the step itself has been taken in.
    have hbefore : i ∈ r.placed := (of_placed hnone hafter).resolve_right fun h => hlt.ne h.2
    have hbecomes := hfollows.becomes hafter
    rcases hbecomes.takes_in hlt.ne hnone hdobject (later cs (t + 1)) with ⟨heobject, htakes⟩
    refine ⟨heobject, ?_⟩
    rw [if_pos hafter, if_pos hbefore, later_eq_cons hgiven, htakes]
  · rw [if_neg hafter, hfollows.apart hafter]
    refine ⟨hdobject, ?_⟩
    by_cases hbefore : i ∈ r.placed
    · -- Its place has been assigned as a whole.
      have hcovered : c.keys <+: d.keys := by
        by_contra hnot
        exact hafter ((mem_placedAfter_iff hd).2 (Or.inl ⟨hbefore, hnot⟩))
      have hnothing : inside d.keys (later cs t) = [] := by
        rw [later_eq_cons hgiven, Change.assignment, inside_of_covered hcovered]
      rw [if_pos hbefore, hnothing, inside]
    · rw [if_neg hbefore]

include hr hnone in
/-- The object that is assigned is settled by the assignments that are still to come. -/
theorem settling_assigned (hobject : c.isObject = true) (hc : r.changes[t]? = some c)
    (hfollows : r.Follows t c t c e) :
    e.isObject = true ∧
      assignAts (inside c.keys (if t ∈ r.placedAfter t c then later cs (t + 1) else [])) e.value =
        assignAts (inside c.keys (later cs (t + 1))) c.value := by
  have hafter : t ∈ r.placedAfter t c :=
    (mem_placedAfter_iff hc).2 (Or.inr ⟨hobject, Or.inl rfl⟩)
  have hvalue := (hfollows.becomes hafter).eq_assigned hnone hr.not_placed
  rw [Change.isObject, hvalue, if_pos hafter]
  exact ⟨hobject, rfl⟩

include hr hc hnone in
/-- Where an object is left as it was, so are those that it holds. -/
theorem not_placed_of_held (hd : r.changes[i]? = some d) (hj : j ∈ d.holds)
    (hi : i ∉ r.placedAfter t c) : j ∉ r.placedAfter t c := by
  intro hjafter
  rcases hr.holds i d hd j hj with ⟨hjt, hjplaced, hread⟩
  have hjbefore : j ∈ r.placed := (of_placed hnone hjafter).resolve_right fun h => hjt.ne h.2
  have hlt : j < r.changes.length := hjt.trans (List.getElem?_eq_some_iff.1 hc).1
  have hg := List.getElem?_eq_getElem hlt
  rcases hread _ hg with ⟨w, hw, -⟩
  -- If the place of the one has been assigned as a whole, so has that of the other.
  refine hi ((mem_placedAfter_iff hd).2 (Or.inl ⟨hjplaced hjbefore, ?_⟩))
  intro hcovered
  rcases (mem_placedAfter_iff hg).1 hjafter with ⟨-, hout⟩ | ⟨-, rfl | hheld⟩
  · exact hout (hw ▸ hcovered.trans (List.prefix_append _ w))
  · exact lt_irrefl j hjt
  · simp [hnone] at hheld

include hr hc hnone in
theorem holds_step (hcarried : r.Carried t c r') (he : r'.changes[i]? = some e) (hj : j ∈ e.holds) :
    j < t + 1 ∧ (j ∈ r'.placed → i ∈ r'.placed) ∧
      ∀ f, r'.changes[j]? = some f →
        ∃ w, f.keys = e.keys ++ w ∧ readAt w e.value = some f.value := by
  rcases hcarried.follows i e he with ⟨d, hd, hfollows⟩
  by_cases hafter : i ∈ r'.placed
  · rcases hcarried.holds i e he hafter j hj with ⟨hjafter, hread⟩
    exact ⟨hr.lt_of_placed hnone (hcarried.placed ▸ hjafter), fun _ => hafter, hread⟩
  · rw [hcarried.placed] at hafter ⊢
    obtain rfl := hfollows.apart hafter
    have hjafter := hr.not_placed_of_held hc hnone hd hj hafter
    rcases hr.holds i e hd j hj with ⟨hjt, -, hread⟩
    refine ⟨Nat.lt_succ_of_lt hjt, fun h => absurd h hjafter, ?_⟩
    intro f hf
    rcases hcarried.follows j f hf with ⟨g, hg, hfg⟩
    rw [hfg.apart hjafter]
    exact hread g hg

end Step

theorem step (hfresh : ∀ c ∈ cs, c.holds = []) (hr : FirstRun cs t r)
    (hc : r.changes[t]? = some c) (h : r.step t c = .ok r') : FirstRun cs (t + 1) r' := by
  have hgiven : cs[t]? = some c := by
    rcases getElem?_of_paths hr.paths hc with ⟨c', hc', -⟩
    rw [hc', hr.pending t le_rfl c c' hc hc']
  -- As no change holds anything at the start, the step places the change itself and nothing else.
  have hnone : c.holds = [] := hfresh c (List.mem_of_getElem? hgiven)
  have hcarried := step_carried hr.consistent (holdsWithin_of_nil hnone) hc h
  constructor
  case consistent => exact hcarried.consistent
  case paths => exact (step_eq_ok h).2.trans hr.paths
  case pending =>
    intro i hi e c' he hc'
    rcases hcarried.follows i e he with ⟨d, hd, hfollows⟩
    have hout : i ∉ r.placedAfter t c := by
      intro hin
      exact absurd (hr.lt_of_placed hnone hin) (by omega)
    rw [hfollows.apart hout]
    exact hr.pending i (by omega) d c' hd hc'
  case started =>
    intro i hi
    exact hr.lt_of_placed hnone (hcarried.placed ▸ hi)
  case plain =>
    intro i hi e c' he hc' hplain
    rcases hcarried.follows i e he with ⟨d, hd, hfollows⟩
    rcases hr.plain_step hc hgiven hnone hi hd hc' hplain with ⟨hvalue, hout⟩
    rw [hfollows.apart hout, hcarried.placed]
    exact ⟨hvalue, hout⟩
  case settling =>
    intro i hi e c' he hc' hobject
    rcases hcarried.follows i e he with ⟨d, hd, hfollows⟩
    rw [hcarried.placed]
    rcases Nat.lt_succ_iff_lt_or_eq.1 hi with hlt | rfl
    · exact hr.settling_step hgiven hnone hlt hd hc' hobject hfollows
    · obtain rfl : c = c' := Option.some.inj (hgiven.symm.trans hc')
      obtain rfl : c = d := Option.some.inj (hc.symm.trans hd)
      exact hr.settling_assigned hnone hobject hc hfollows
  case holds =>
    intro i e he j hj
    exact hr.holds_step hc hnone hcarried he hj

end FirstRun

/-! ## The whole run -/

/-- A first run does what the assignments do one after the other. -/
theorem firstRun_run (hfresh : ∀ c ∈ cs, c.holds = []) (data : Entries Value) :
    (∀ r, run cs data = .ok r →
        FirstRun cs cs.length r ∧ DottedPath.assignAll (pairs cs) data = .ok r.data) ∧
      ∀ es, DottedPath.assignAll (pairs cs) data = .ok es → ∃ r, run cs data = .ok r := by
  refine run_of_inv (I := FirstRun cs) ?_ ?_ ?_ (firstRun_start hfresh data)
  · intro t r hr
    exact hr.paths
  · intro t r hr d c hd hc
    rw [hr.pending t le_rfl d c hd hc]
  · intro t r r' c hr hc hstep
    exact hr.step hfresh hc hstep

/-- A first run leaves the values settled. -/
theorem FirstRun.assignments (h : FirstRun cs cs.length r) :
    r.changes.map Change.assignment = settle (cs.map Change.assignment) := by
  have hlast : later cs cs.length = [] := by simp [later]
  refine List.ext_getElem? ?_
  intro i
  rw [getElem?_settle, List.getElem?_map, List.getElem?_map]
  cases hd : r.changes[i]? with
  | none => simp [getElem?_eq_none_of_paths h.paths hd]
  | some d =>
    rcases getElem?_of_paths h.paths hd with ⟨c, hc, -⟩
    have hi : i < cs.length := (List.getElem?_eq_some_iff.1 hc).1
    have hkeys := keys_eq_of_paths h.paths hd hc
    have hvalue : d.value = settled c.keys c.value (later cs (i + 1)) := by
      by_cases hobject : c.value.obj?.isSome = true
      · -- Nothing is still to come, so that the value has taken in everything.
        have hsettling := (h.settling i hi d c hd hc hobject).2
        rw [hlast, ite_self, inside, assignAts] at hsettling
        rw [settled, if_pos hobject, ← hsettling, Option.getD_some]
      · rw [(h.plain i hi d c hd hc (Bool.eq_false_iff.2 hobject)).1, settled, if_neg hobject]
    simp [hc, Change.assignment, hkeys, hvalue, later, List.map_drop]

end ChangeRun
end Workflows
