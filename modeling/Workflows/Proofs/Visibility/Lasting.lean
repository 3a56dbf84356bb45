import Workflows.Proofs.Visibility.Acyclic

/-!
# Lasting — what a memory holds after any course of questions

What a resolver remembers stays, also when a question is left without an answer: an answer is added
for a property that had none, and marks are only added. So an answer that has been given can be told
from any later memory. It was positive just if it is remembered to be positive then: whatever is
answered in the negative without being remembered is on the stack, and what is on the stack has no
answer yet.

A property that is remembered to apply had its condition met, by the answers that were positive at
the time. Since answers stay, those are positive in the end too.

Main definitions:

* `Resolver.Memory.Grounded` — memories whose positive answers have such grounds;
* `Resolver.Lasting` — queries that keep memories grounded, with results that last;
* `Resolver.Reached.grounded` — all memories that questions can leave are grounded.
-/

namespace Workflows
namespace Resolver

/-- The answers that are remembered to be positive. -/
def Memory.positive (m : Memory) (i : Nat) : Bool :=
  m.answers.lookup i == some true

/-- A memory, while the entries on a stack are being evaluated, in which every positive answer is one
that the condition of the property gave rise to. -/
structure Memory.Grounded (r : Resolver) (stack : List Nat) (m : Memory) : Prop where
  pending : ∀ i ∈ stack, m.answers.lookup i = none
  positions : ∀ i a, m.answers.lookup i = some a → i < r.properties.length
  grounds : ∀ i p, m.answers.lookup i = some true → r.properties[i]? = some p →
    ∃ earlier : Memory, earlier.Extends m ∧ r.Applies earlier.positive p

/-- The memory that is left is grounded, and nothing of the first one is forgotten; and if there is
a result, it can be told from the positive answers of any later memory. -/
structure Lasts {α : Type} (r : Resolver) (stack : List Nat)
    (value : (Nat → Bool) → Except EvalError α) (m : Memory) (o : Except EvalError α × Memory) :
    Prop where
  grounded : o.2.Grounded r stack
  kept : m.Extends o.2
  result : ∀ a, o.1 = .ok a → ∀ later : Memory, later.Grounded r stack → o.2.Extends later →
    value later.positive = .ok a

/-- From any grounded memory, what comes of the query lasts. -/
def Lasting {α : Type} (r : Resolver) (stack : List Nat) (q : Query α)
    (value : (Nat → Bool) → Except EvalError α) : Prop :=
  ∀ m : Memory, m.Grounded r stack → Lasts r stack value m (outcome q m)

variable {r : Resolver} {stack : List Nat} {m m' : Memory} {i : Nat}

/-! ## Memories -/

namespace Memory

theorem positive_eq {a : Bool} (h : m.answers.lookup i = some a) : m.positive i = a := by
  unfold positive
  rw [h]
  cases a <;> rfl

theorem positive_of_none (h : m.answers.lookup i = none) : m.positive i = false := by
  unfold positive
  rw [h]
  rfl

theorem positive_iff : m.positive i = true ↔ m.answers.lookup i = some true :=
  beq_iff_eq

theorem Extends.positive (h : m.Extends m') (hi : m.positive i = true) : m'.positive i = true :=
  positive_iff.2 (h.answers i true (positive_iff.1 hi))

theorem Grounded.positive_of_le (h : m.Grounded r stack) (hi : r.properties.length ≤ i) :
    m.positive i = false := by
  refine positive_of_none (Option.eq_none_iff_forall_ne_some.2 ?_)
  intro a ha
  exact absurd (h.positions i a ha) (Nat.not_lt.2 hi)

theorem grounded_empty (r : Resolver) : ({} : Memory).Grounded r [] where
  pending := by simp
  positions := by simp
  grounds := by simp

theorem Grounded.mark (h : m.Grounded r stack) (i : Nat) : (m.mark i stack).Grounded r stack where
  pending := h.pending
  positions := h.positions
  grounds j p hj hp := by
    rcases h.grounds j p hj hp with ⟨earlier, hearlier, happlies⟩
    exact ⟨earlier, hearlier.trans (.mark m i stack), happlies⟩

theorem Grounded.push (h : m.Grounded r stack) (hnew : m.answers.lookup i = none) :
    m.Grounded r (i :: stack) where
  pending := List.forall_mem_cons.2 ⟨hnew, h.pending⟩
  positions := h.positions
  grounds := h.grounds

/-- An evaluation that is given up leaves its entry without an answer. -/
theorem Grounded.pop (h : m.Grounded r (i :: stack)) : m.Grounded r stack where
  pending := (List.forall_mem_cons.1 h.pending).2
  positions := h.positions
  grounds := h.grounds

/-- An entry gets a positive answer if its condition is met by the answers so far. -/
theorem Grounded.settle {p : Property} {a : Bool} (h : m.Grounded r (i :: stack))
    (hstack : i ∉ stack) (hp : r.properties[i]? = some p)
    (hmet : a = true → r.Applies m.positive p) : (m.settle i a).Grounded r stack where
  pending j hj := by
    have hne : j ≠ i := fun heq => hstack (heq ▸ hj)
    rw [lookup_settle_of_ne hne]
    exact h.pop.pending j hj
  positions j b hj := by
    by_cases heq : j = i
    · exact heq ▸ (List.getElem?_eq_some_iff.1 hp).1
    · rw [lookup_settle_of_ne heq] at hj
      exact h.positions j b hj
  grounds j q hj hq := by
    have hextends : m.Extends (m.settle i a) := .settle (h.pending i List.mem_cons_self) a
    by_cases heq : j = i
    · -- A mark could only have made the answer negative.
      subst heq
      obtain rfl : p = q := Option.some.inj (hp.symm.trans hq)
      rw [lookup_settle_self] at hj
      have hanswer : a = true ∧ j ∉ m.cyclic := by simpa [verdict] using hj
      exact ⟨m, hextends, hmet hanswer.1⟩
    · rw [lookup_settle_of_ne heq] at hj
      rcases h.grounds j q hj hq with ⟨earlier, hearlier, happlies⟩
      exact ⟨earlier, hearlier.trans hextends, happlies⟩

end Memory

/-! ## Queries -/

section Queries

variable {α β : Type}

theorem lasts_error {value : (Nat → Bool) → Except EvalError α} {e : EvalError}
    (hm' : m'.Grounded r stack) (hextends : m.Extends m') :
    Lasts r stack value m (.error e, m') :=
  ⟨hm', hextends, by simp⟩

theorem lasts_ok {value : (Nat → Bool) → Except EvalError α} {a : α} (hm' : m'.Grounded r stack)
    (hextends : m.Extends m')
    (hvalue : ∀ later : Memory, later.Grounded r stack → m'.Extends later →
      value later.positive = .ok a) : Lasts r stack value m (.ok a, m') := by
  refine ⟨hm', hextends, ?_⟩
  intro b hb later hlater hlast
  obtain rfl : a = b := Except.ok.inj hb
  exact hvalue later hlater hlast

theorem lasting_pure (a : α) : r.Lasting stack (pure a) fun _ => .ok a :=
  fun m hm => lasts_ok hm (.refl m) fun _ _ _ => rfl

theorem Lasting.bind {q : Query α} {f : α → Query β} {value : (Nat → Bool) → Except EvalError α}
    {result : α → (Nat → Bool) → Except EvalError β} (hq : r.Lasting stack q value)
    (hf : ∀ a, r.Lasting stack (f a) (result a)) :
    r.Lasting stack (q >>= f) fun v => (value v).bind fun a => result a v := by
  intro m hm
  have hfirst := hq m hm
  rw [outcome_bind]
  generalize outcome q m = o at hfirst
  rcases o with ⟨x, m₁⟩
  rcases hfirst with ⟨hm₁, hextends, hresult⟩
  cases x with
  | error e => exact lasts_error hm₁ hextends
  | ok a =>
    rcases hf a m₁ hm₁ with ⟨hm₂, hextends', hresult'⟩
    refine ⟨hm₂, hextends.trans hextends', ?_⟩
    intro b hb later hlater hlast
    -- Both results are told from the same later memory.
    calc
      (value later.positive).bind (fun a => result a later.positive)
          = (Except.ok a).bind fun a => result a later.positive := by
            rw [hresult a rfl later hlater (hextends'.trans hlast)]
      _ = .ok b := hresult' b hb later hlater hlast

/-- The result of a script is the one it has with the answers that are positive in the end. -/
theorem lasting_run {visible : Nat → Query Bool}
    (h : ∀ k, r.Lasting stack (visible k) fun v => .ok (v k)) (s : Script α) :
    r.Lasting stack (s.run visible) s.value := by
  induction s with
  | done a => exact lasting_pure a
  | fail e => exact fun m hm => lasts_error hm (.refl m)
  | ask i next ih => exact (h i).bind ih

theorem lasting_visible {fuel : Nat} (hroom : r.Room fuel stack) (i : Nat) :
    r.Lasting stack (r.visible fuel stack i) fun v => .ok (v i) := by
  induction fuel generalizing stack i with
  | zero =>
    rcases hroom.exists_fuel with ⟨rest, hrest⟩
    omega
  | succ fuel ih =>
    intro m hm
    rw [outcome_visible]
    cases hlookup : m.answers.lookup i with
    | some a =>
      refine lasts_ok hm (.refl m) ?_
      intro later _ hlast
      rw [Memory.positive_eq (hlast.answers i a hlookup)]
    | none =>
      by_cases hstack : i ∈ stack
      · simp only [List.contains_iff_mem.2 hstack, if_true]
        -- It has no answer as long as it is on the stack.
        refine lasts_ok (hm.mark i) (.mark m i stack) ?_
        intro later hlater _
        rw [Memory.positive_of_none (hlater.pending i hstack)]
      · have hcontains : stack.contains i = false := by simpa using hstack
        simp only [hcontains, Bool.false_eq_true, if_false]
        cases hp : r.properties[i]? with
        | none =>
          refine lasts_ok hm (.refl m) ?_
          intro later hlater _
          rw [hlater.positive_of_le (List.getElem?_eq_none_iff.1 hp)]
        | some p =>
          have hi : i < r.properties.length := (List.getElem?_eq_some_iff.1 hp).1
          have hinner := lasting_run (ih (hroom.push hstack hi)) (r.conditionScript p.condition) m
            (hm.push hlookup)
          dsimp only
          generalize outcome ((r.conditionScript p.condition).run (r.visible fuel (i :: stack))) m = o
            at hinner
          rcases o with ⟨x, m₁⟩
          rcases hinner with ⟨hm₁, hextends, hvalue⟩
          cases x with
          | error e => exact lasts_error hm₁.pop hextends
          | ok a =>
            have hmet : a = true → r.Applies m₁.positive p := fun ha =>
              (value_conditionScript (hvalue a rfl m₁ hm₁ (.refl m₁))).1 ha
            have hsettle : m₁.Extends (m₁.settle i a) :=
              .settle (hm₁.pending i List.mem_cons_self) a
            refine lasts_ok (hm₁.settle hstack hp hmet) (hextends.trans hsettle) ?_
            intro later _ hlast
            rw [Memory.positive_eq (hlast.answers i _ (Memory.lookup_settle_self m₁ i a))]

theorem lasting_isVisible (r : Resolver) (i : Nat) :
    r.Lasting [] (r.isVisible i) fun v => .ok (v i) :=
  lasting_visible (room_nil r) i

theorem lasting_isNameVisible (r : Resolver) (name : String) :
    r.Lasting [] (r.isNameVisible name) fun v =>
      .ok ((r.positions name).isEmpty || (r.positions name).any v) := by
  unfold isNameVisible
  cases r.positions name with
  | nil => exact lasting_pure true
  | cons i more =>
    have hrun := lasting_run r.lasting_isVisible (anyVisibleScript (i :: more))
    rw [run_anyVisibleScript] at hrun
    have hvalue : (anyVisibleScript (i :: more)).value = fun v => .ok ((i :: more).any v) :=
      funext fun v => value_anyVisibleScript (i :: more)
    rw [hvalue] at hrun
    simpa using hrun

theorem lasting_visibleAmong (r : Resolver) (is : List Nat) :
    r.Lasting [] (r.visibleAmong is) fun v => .ok (is.filter v) := by
  induction is with
  | nil => exact lasting_pure []
  | cons i rest ih =>
    have hboth := (r.lasting_isVisible i).bind fun v =>
      ih.bind fun more => lasting_pure (if v then i :: more else more)
    have hvalue : (fun v : Nat → Bool => (Except.ok (v i) : Except EvalError Bool).bind fun b =>
        (Except.ok (rest.filter v) : Except EvalError (List Nat)).bind fun more =>
          .ok (if b then i :: more else more)) = fun v => .ok ((i :: rest).filter v) := by
      funext v
      simp only [Except.bind, List.filter_cons]
    rw [hvalue] at hboth
    exact hboth

end Queries

/-! ## Courses of questions -/

/-- Any memory that questions leave, with or without answers, has grounds for its positive
answers. -/
theorem Reached.grounded (h : r.Reached m) : m.Grounded r [] := by
  induction h with
  | fresh => exact Memory.grounded_empty r
  | @asked m q _ ih =>
    cases q with
    | entry i => exact (r.lasting_isVisible i m ih).grounded
    | name name => exact (r.lasting_isNameVisible name m ih).grounded
  | visible _ ih =>
    exact (((r.lasting_visibleAmong _).bind fun is => lasting_pure _) _ ih).grounded
  | hidden _ ih =>
    exact (((r.lasting_visibleAmong _).bind fun is => lasting_pure _) _ ih).grounded

end Resolver
end Workflows
