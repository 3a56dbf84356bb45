import Workflows.Proofs.Assignment

/-!
# Settled — what assignments leave of the objects that they assign

Several assignments are made one after the other. An object that one of them assigns takes in what
later ones assign within its place, until the place is assigned anew. So in the end it is settled:
it holds what is found at its place, or what was found there last. When the assignments are made
again, from the same start but with the settled objects, they come out the same, unless one of them
is in the way of another: an object has taken in an assignment at the end of a way, and one before
that leads further on.

Main definitions:

* `Value.assignAts` — assignments one after the other;
* `Value.inside`, `Value.settled`, `Value.settle` — what they leave of the objects;
* `Value.Tangled` — when one is in the way of another;
* `Value.assignAts_settle` — the assignments made again.
-/

namespace Workflows
namespace Value

abbrev Assignments := List (List String × Value)

def assignAts : Assignments → Value → Option Value
  | [], v => some v
  | (p, x) :: rest, v => (assignAt p x v).bind (assignAts rest)

/-- The assignments that lead on from the end of a way, relative to it, up to the first one that
comes to lie at its end or before. -/
def inside (p : List String) : Assignments → Assignments
  | [] => []
  | (q, x) :: rest =>
    if q <+: p then []
    else if p <+: q then (q.drop p.length, x) :: inside p rest
    else inside p rest

/-- What later assignments leave of a value. Only objects take them in. -/
def settled (p : List String) (x : Value) (later : Assignments) : Value :=
  if x.obj?.isSome then (assignAts (inside p later) x).getD x else x

def settle : Assignments → Assignments
  | [] => []
  | (p, x) :: rest => (p, settled p x rest) :: settle rest

/-- An object is assigned, and within its place an assignment is followed by one that comes to lie
at the end of its way or before. -/
def Tangled (cs : Assignments) : Prop :=
  ∃ a b c, [a, b, c].Sublist cs ∧ a.2.obj?.isSome ∧ a.1 <+: c.1 ∧ c.1 <+: b.1

variable {p q w : List String} {v v' x y z u : Value} {cs rest : Assignments}

/-! ## Assignments within a place -/

theorem inside_of_covered (h : q <+: p) : inside p ((q, x) :: rest) = [] := by
  rw [inside, if_pos h]

theorem inside_of_within (h : ¬ p ++ w <+: p) :
    inside p ((p ++ w, x) :: rest) = (w, x) :: inside p rest := by
  rw [inside, if_neg h, if_pos (List.prefix_append p w), List.drop_left]

theorem inside_of_parted (h : Parted p q) : inside p ((q, x) :: rest) = inside p rest := by
  rw [inside, if_neg h.2, if_neg h.1]

/-- How a second way lies to a first one: at its end or before, beyond, or apart from it. -/
theorem covered_or_within_or_parted (p q : List String) :
    q <+: p ∨ (∃ w, q = p ++ w ∧ ¬ p ++ w <+: p) ∨ Parted p q := by
  by_cases hq : q <+: p
  · exact Or.inl hq
  · by_cases hp : p <+: q
    · rcases hp with ⟨w, rfl⟩
      exact Or.inr (Or.inl ⟨w, rfl, hq⟩)
    · exact Or.inr (Or.inr ⟨hp, hq⟩)

theorem inside_append (p w : List String) (cs : Assignments) :
    inside (p ++ w) cs = inside w (inside p cs) := by
  induction cs with
  | nil => rfl
  | cons c rest ih =>
    rcases c with ⟨q, x⟩
    rcases covered_or_within_or_parted p q with hq | ⟨u, rfl, hu⟩ | hparted
    · rw [inside_of_covered hq, inside_of_covered (hq.trans (List.prefix_append p w)), inside]
    · rw [inside_of_within hu]
      have hprefix : ∀ a b : List String, p ++ a <+: p ++ b ↔ a <+: b :=
        fun a b => List.prefix_append_right_inj p
      have hdrop : (p ++ u).drop (p ++ w).length = u.drop w.length := by
        rw [List.length_append, ← List.drop_drop, List.drop_left]
      simp only [inside, hprefix, hdrop, ih]
    · have hparted' : Parted (p ++ w) q := by
        refine ⟨fun h => hparted.1 ((List.prefix_append p w).trans h), ?_⟩
        intro h
        exact (List.prefix_or_prefix_of_prefix h (List.prefix_append p w)).elim hparted.2 hparted.1
      rw [inside_of_parted hparted, inside_of_parted hparted', ih]

/-- What is assigned within a place has been assigned. -/
theorem inside_sublist (p : List String) (cs : Assignments) :
    ((inside p cs).map fun c => (p ++ c.1, c.2)).Sublist cs := by
  induction cs with
  | nil => exact List.Sublist.refl []
  | cons c rest ih =>
    rcases c with ⟨q, x⟩
    rcases covered_or_within_or_parted p q with hq | ⟨w, rfl, hw⟩ | hparted
    · rw [inside_of_covered hq]
      exact List.nil_sublist _
    · rw [inside_of_within hw]
      exact ih.cons_cons _
    · rw [inside_of_parted hparted]
      exact ih.cons _

/-- What stands at the end of a way takes in what is assigned within. -/
theorem readAt_assignAts (hread : readAt p v = some u) (h : assignAts cs v = some z) :
    ∃ u', assignAts (inside p cs) u = some u' ∧
      ((∀ c ∈ cs, ¬ c.1 <+: p) → readAt p z = some u') := by
  induction cs generalizing v u with
  | nil =>
    obtain rfl : v = z := Option.some.inj h
    exact ⟨u, rfl, fun _ => hread⟩
  | cons c rest ih =>
    rcases c with ⟨q, x⟩
    rcases Option.bind_eq_some_iff.1 h with ⟨v₁, hv₁, hrest⟩
    have hlater : (∀ c ∈ (q, x) :: rest, ¬ c.1 <+: p) → ∀ c ∈ rest, ¬ c.1 <+: p := by
      intro hall c hc
      exact hall c (List.mem_cons_of_mem _ hc)
    -- An assignment that covers the place leaves nothing there to be followed, one within it is
    -- made on the value as well, and one apart from it does not matter.
    rcases covered_or_within_or_parted p q with hq | ⟨w, rfl, hw⟩ | hparted
    · have hinside : assignAts (inside p ((q, x) :: rest)) u = some u := by
        rw [inside_of_covered hq, assignAts]
      refine ⟨u, hinside, ?_⟩
      intro hfree
      exact absurd hq (hfree (q, x) List.mem_cons_self)
    · rw [assignAt_append hread] at hv₁
      rcases Option.bind_eq_some_iff.1 hv₁ with ⟨u₁, hu₁, hv₁⟩
      rcases ih (readAt_assignAt_self hv₁) hrest with ⟨u', hu', hfree⟩
      have hinside : assignAts (inside p ((p ++ w, x) :: rest)) u = some u' := by
        rw [inside_of_within hw, assignAts, hu₁, Option.bind_some, hu']
      refine ⟨u', hinside, ?_⟩
      intro hall
      exact hfree (hlater hall)
    · rcases ih (readAt_assignAt_apart hparted hv₁ hread) hrest with ⟨u', hu', hfree⟩
      have hinside : assignAts (inside p ((q, x) :: rest)) u = some u' := by
        rw [inside_of_parted hparted, hu']
      refine ⟨u', hinside, ?_⟩
      intro hall
      exact hfree (hlater hall)

/-- Assignments tell nothing of what stood at the end of a way if they come out the same within
that place. -/
theorem assignAts_eq_of_inside (hread : readAt p v = some y) (h : assignAt p x v = some v')
    (hsame : assignAts (inside p cs) y = some z) (hsame' : assignAts (inside p cs) x = some z) :
    assignAts cs v' = assignAts cs v := by
  induction cs generalizing v v' x y with
  | nil =>
    obtain rfl : y = x := Option.some.inj (hsame.trans hsame'.symm)
    rw [assignAt_readAt hread] at h
    exact h.symm
  | cons c rest ih =>
    rcases c with ⟨q, x₀⟩
    rcases covered_or_within_or_parted p q with ⟨w, rfl⟩ | ⟨w, rfl, hw⟩ | hparted
    · -- The place is assigned as a whole.
      rw [assignAts, assignAts, assignAt_covered h]
    · -- The first assignment is made within the place, on either side.
      rw [inside_of_within hw] at hsame hsame'
      rcases Option.bind_eq_some_iff.1 hsame with ⟨y₁, hy₁, hsame⟩
      rcases Option.bind_eq_some_iff.1 hsame' with ⟨x₁, hx₁, hsame'⟩
      rcases exists_assignAt hread y₁ with ⟨v₁, hv₁⟩
      rcases exists_assignAt hread x₁ with ⟨v₁', hv₁'⟩
      have hleft : assignAt (p ++ w) x₀ v' = some v₁' := by
        rw [assignAt_append (readAt_assignAt_self h), hx₁, Option.bind_some, assignAt_assignAt h,
          hv₁']
      have hright : assignAt (p ++ w) x₀ v = some v₁ := by
        rw [assignAt_append hread, hy₁, Option.bind_some, hv₁]
      have hagain : assignAt p x₁ v₁ = some v₁' := by
        rw [assignAt_assignAt hv₁, hv₁']
      rw [assignAts, assignAts, hleft, hright]
      exact ih (readAt_assignAt_self hv₁) hagain hsame hsame'
    · -- The first assignment is made elsewhere, so it does not matter which comes first.
      rw [inside_of_parted hparted] at hsame hsame'
      have hcomm := assignAt_comm hparted hread x x₀
      rw [h, Option.bind_some] at hcomm
      rw [assignAts, assignAts, hcomm]
      cases hv₁ : assignAt q x₀ v with
      | none => rfl
      | some v₁ =>
        have hread₁ := readAt_assignAt_apart hparted hv₁ hread
        rcases exists_assignAt hread₁ x with ⟨v₁', hv₁'⟩
        rw [Option.bind_some, Option.bind_some, hv₁', Option.bind_some]
        exact ih hread₁ hv₁' hsame hsame'

/-- Assignments none of which makes up for an earlier one change nothing when they are made again
on what they have led to. -/
theorem assignAts_again (hcs : cs.Pairwise fun b c => ¬ c.1 <+: b.1) (h : assignAts cs y = some z) :
    assignAts cs z = some z := by
  induction cs generalizing y with
  | nil => rfl
  | cons c rest ih =>
    rcases c with ⟨q, x⟩
    rcases List.pairwise_cons.1 hcs with ⟨hfree, hrest⟩
    rcases Option.bind_eq_some_iff.1 h with ⟨y₁, hy₁, hz⟩
    have hagain : assignAts rest z = some z := ih hrest hz
    -- What stands at the place in the end comes of the value, and is left as it is.
    rcases readAt_assignAts (readAt_assignAt_self hy₁) hz with ⟨x', hx', hread⟩
    have hread : readAt q z = some x' := hread hfree
    rcases readAt_assignAts hread hagain with ⟨x'', hx'', hread'⟩
    obtain rfl : x' = x'' := Option.some.inj (hread.symm.trans (hread' hfree))
    rcases exists_assignAt hread x with ⟨z', hz'⟩
    calc assignAts ((q, x) :: rest) z
        = assignAts rest z' := by rw [assignAts, hz', Option.bind_some]
      _ = assignAts rest z := assignAts_eq_of_inside hread hz' hx'' hx'
      _ = some z := hagain

/-! ## Settled objects -/

theorem map_fst_settle (cs : Assignments) : (settle cs).map Prod.fst = cs.map Prod.fst := by
  induction cs with
  | nil => rfl
  | cons c rest ih => rw [settle, List.map_cons, List.map_cons, ih]

theorem getElem?_settle (cs : Assignments) (i : Nat) :
    (settle cs)[i]? = (cs[i]?).map fun c => (c.1, settled c.1 c.2 (cs.drop (i + 1))) := by
  induction cs generalizing i with
  | nil => rfl
  | cons c rest ih =>
    cases i with
    | zero => rfl
    | succ i => exact ih i

/-- The assignments within a place can be settled by themselves. -/
theorem inside_settle (p : List String) (cs : Assignments) :
    inside p (settle cs) = settle (inside p cs) := by
  induction cs with
  | nil => rfl
  | cons c rest ih =>
    rcases c with ⟨q, x⟩
    rw [settle]
    rcases covered_or_within_or_parted p q with hq | ⟨w, rfl, hw⟩ | hparted
    · rw [inside_of_covered hq, inside_of_covered hq, settle]
    · have hsettled : settled (p ++ w) x rest = settled w x (inside p rest) := by
        rw [settled, settled, inside_append]
      rw [inside_of_within hw, inside_of_within hw, settle, ih, hsettled]
    · rw [inside_of_parted hparted, inside_of_parted hparted, ih]

theorem length_inside_le (p : List String) (cs : Assignments) :
    (inside p cs).length ≤ cs.length := by
  simpa using (inside_sublist p cs).length_le

theorem Tangled.mono {fs : Assignments} (h : Tangled cs) (hsub : cs.Sublist fs) : Tangled fs := by
  rcases h with ⟨a, b, c, habc, hobj, hac, hcb⟩
  exact ⟨a, b, c, habc.trans hsub, hobj, hac, hcb⟩

theorem Tangled.of_inside (h : Tangled (inside p cs)) : Tangled cs := by
  rcases h with ⟨a, b, c, habc, hobj, hac, hcb⟩
  refine ⟨(p ++ a.1, a.2), (p ++ b.1, b.2), (p ++ c.1, c.2), ?_, hobj, ?_, ?_⟩
  · exact (habc.map fun c => (p ++ c.1, c.2)).trans (inside_sublist p cs)
  · exact List.prefix_append_right_inj p |>.2 hac
  · exact List.prefix_append_right_inj p |>.2 hcb

/-- Within the place of an object no assignment makes up for an earlier one. -/
theorem pairwise_inside (h : ¬ Tangled ((p, x) :: rest)) (hx : x.obj?.isSome) :
    (inside p rest).Pairwise fun b c => ¬ c.1 <+: b.1 := by
  rw [List.pairwise_iff_forall_sublist]
  intro b c hbc hcb
  refine h ⟨(p, x), (p ++ b.1, b.2), (p ++ c.1, c.2), ?_, hx, List.prefix_append p c.1, ?_⟩
  · exact ((hbc.map fun c => (p ++ c.1, c.2)).trans (inside_sublist p rest)).cons_cons _
  · exact (List.prefix_append_right_inj p).2 hcb

/-- Assignments that are not tangled come out the same when they are made with what they have left
of their values. -/
theorem assignAts_settle {cs : Assignments} {v z : Value} (hcs : ¬ Tangled cs)
    (h : assignAts cs v = some z) : assignAts (settle cs) v = some z := by
  match cs with
  | [] => exact h
  | (p, x) :: rest =>
    rcases Option.bind_eq_some_iff.1 h with ⟨v₁, hv₁, hz⟩
    have hrest : ¬ Tangled rest := by
      intro htangled
      exact hcs (htangled.mono (List.sublist_cons_self _ _))
    have hlater : assignAts (settle rest) v₁ = some z := assignAts_settle hrest hz
    have hread := readAt_assignAt_self hv₁
    by_cases hx : x.obj?.isSome = true
    · -- The later assignments come out the same within the place, whether they are made on the
      -- object that was given or on what they have left of it.
      rcases readAt_assignAts hread hz with ⟨x', hx', -⟩
      have hsettled : settled p x rest = x' := by
        rw [settled, if_pos hx, hx', Option.getD_some]
      have hinside : ¬ Tangled (inside p rest) := by
        intro htangled
        exact hrest htangled.of_inside
      have hfirst : assignAts (inside p (settle rest)) x = some x' := by
        rw [inside_settle]
        exact assignAts_settle hinside hx'
      have hpairs : (inside p (settle rest)).Pairwise fun b c => ¬ c.1 <+: b.1 := by
        have hpairs := pairwise_inside hcs hx
        rw [← List.pairwise_map (f := Prod.fst) (R := fun b c => ¬ c <+: b)] at hpairs ⊢
        rwa [inside_settle, map_fst_settle]
      have hagain : assignAts (inside p (settle rest)) x' = some x' := assignAts_again hpairs hfirst
      rcases exists_assignAt hread x' with ⟨v₁', hv₁'⟩
      have hput : assignAt p x' v = some v₁' := by
        rw [← assignAt_assignAt hv₁, hv₁']
      calc assignAts (settle ((p, x) :: rest)) v
          = assignAts (settle rest) v₁' := by
            rw [settle, hsettled, assignAts, hput, Option.bind_some]
        _ = assignAts (settle rest) v₁ := assignAts_eq_of_inside hread hv₁' hfirst hagain
        _ = some z := hlater
    · have hsettled : settled p x rest = x := if_neg hx
      rw [settle, hsettled, assignAts, hv₁, Option.bind_some, hlater]
termination_by cs.length
decreasing_by
  · simp
  · have := length_inside_le p rest
    simp
    omega

end Value
end Workflows
