import Mathlib.Data.Fintype.Perm
import Workflows.Proofs.Visibility.Script

/-!
# QuestionOrder — whether answers depend on what was asked before

A resolver remembers answers and marks, so a question may be answered from what earlier ones have
left. An entry that is met again below itself is taken for hidden, together with all between; but an
entry in between that has been settled before the cycle is noticed keeps the answer it got then.
Asked first, it may get another one.

That cannot happen only after several questions. If no single question to a fresh resolver, in
whatever order the properties stand, leaves an answer in memory that differs from the one the
property gets when it is asked alone, then no course of questions changes any answer. The reason is
that the entries in memory are closed under what their conditions ask for. What a fresh resolver
does about other entries is then not affected by leaving out those, and each of those gets the
answer that is remembered.

Main definitions:

* `Question`, `Resolver.answerAfter`, `Resolver.reorder` — questions in a course;
* `Resolver.OrderFree` — no course of questions changes an answer;
* `Resolver.Eval.simulate` — a fresh evaluation is followed from a memory;
* `Resolver.orderFree_iff`.
-/

namespace Workflows
namespace Resolver

/-! ## Memory -/

namespace Memory

variable {r : Resolver} {v : Nat → Bool} {m m' m'' : Memory} {stack : List Nat}

/-- The memory while the entries on a stack are being evaluated. -/
structure Under (r : Resolver) (stack : List Nat) (m : Memory) : Prop where
  pending : ∀ i ∈ stack, m.answers.lookup i = none
  marked : ∀ i ∈ m.cyclic, i ∈ stack ∨ m.answers.lookup i = some false
  positions : ∀ i a, m.answers.lookup i = some a → i < r.properties.length

/-- The second memory has what is in the first. -/
structure Extends (m m' : Memory) : Prop where
  answers : ∀ i a, m.answers.lookup i = some a → m'.answers.lookup i = some a
  cyclic : ∀ i ∈ m.cyclic, i ∈ m'.cyclic

/-- What is remembered agrees with given answers, by which the marked entries are hidden. -/
structure Agrees (v : Nat → Bool) (m : Memory) : Prop where
  answers : ∀ i a, m.answers.lookup i = some a → a = v i
  cyclic : ∀ i ∈ m.cyclic, v i = false

theorem Extends.refl (m : Memory) : m.Extends m :=
  ⟨fun _ _ h => h, fun _ h => h⟩

theorem Extends.trans (h : m.Extends m') (h' : m'.Extends m'') : m.Extends m'' :=
  ⟨fun i a ha => h'.answers i a (h.answers i a ha), fun i hi => h'.cyclic i (h.cyclic i hi)⟩

theorem Agrees.of_extends (h' : m'.Agrees v) (h : m.Extends m') : m.Agrees v :=
  ⟨fun i a ha => h'.answers i a (h.answers i a ha), fun i hi => h'.cyclic i (h.cyclic i hi)⟩

/-! ### Marks and answers that are added -/

theorem mem_downTo_self (i : Nat) (stack : List Nat) : i ∈ downTo i stack :=
  List.mem_append_right _ List.mem_cons_self

theorem mem_of_mem_downTo {i j : Nat} (hi : i ∈ stack) (h : j ∈ downTo i stack) : j ∈ stack := by
  rcases List.mem_append.1 h with h | h
  · exact (List.takeWhile_sublist _).subset h
  · exact List.mem_singleton.1 h ▸ hi

theorem mem_mark_iff {i j : Nat} :
    j ∈ (m.mark i stack).cyclic ↔ j ∈ downTo i stack ∨ j ∈ m.cyclic :=
  List.mem_append

theorem Extends.mark (m : Memory) (i : Nat) (stack : List Nat) : m.Extends (m.mark i stack) :=
  ⟨fun _ _ h => h, fun _ h => mem_mark_iff.2 (Or.inr h)⟩

theorem lookup_settle_self (m : Memory) (i : Nat) (a : Bool) :
    (m.settle i a).answers.lookup i = some (m.verdict i a) := by
  simp [settle]

theorem lookup_settle_of_ne {i j : Nat} (h : j ≠ i) (m : Memory) (a : Bool) :
    (m.settle i a).answers.lookup j = m.answers.lookup j := by
  have hne : (j == i) = false := by simpa using h
  simp [settle, List.lookup_cons, hne]

theorem Extends.settle {i : Nat} (hnew : m.answers.lookup i = none) (a : Bool) :
    m.Extends (m.settle i a) := by
  refine ⟨?_, fun _ h => h⟩
  intro j b hj
  have hne : j ≠ i := by
    rintro rfl
    simp [hnew] at hj
  rw [lookup_settle_of_ne hne]
  exact hj

theorem Under.mark {i : Nat} (h : m.Under r stack) (hi : i ∈ stack) :
    (m.mark i stack).Under r stack where
  pending := h.pending
  marked j hj := by
    rcases mem_mark_iff.1 hj with hj | hj
    · exact Or.inl (mem_of_mem_downTo hi hj)
    · exact h.marked j hj
  positions := h.positions

theorem Under.push {i : Nat} (h : m.Under r stack) (hnew : m.answers.lookup i = none) :
    m.Under r (i :: stack) where
  pending j hj := by
    rcases List.mem_cons.1 hj with rfl | hj
    · exact hnew
    · exact h.pending j hj
  marked j hj := (h.marked j hj).imp_left (List.mem_cons_of_mem i)
  positions := h.positions

/-- An entry that is settled leaves the stack, and hidden if it is marked. -/
theorem Under.settle {i : Nat} (h : m.Under r (i :: stack)) (hstack : i ∉ stack)
    (hi : i < r.properties.length) (a : Bool) : (m.settle i a).Under r stack where
  pending j hj := by
    have hne : j ≠ i := fun heq => hstack (heq ▸ hj)
    rw [lookup_settle_of_ne hne]
    exact h.pending j (List.mem_cons_of_mem i hj)
  marked j hj := by
    -- A mark on the entry itself has made the answer negative.
    by_cases heq : j = i
    · have hmarked : i ∈ m.cyclic := heq ▸ hj
      refine Or.inr ?_
      rw [heq, lookup_settle_self]
      simp [verdict, hmarked]
    · rw [lookup_settle_of_ne heq]
      rcases h.marked j hj with hmem | hhidden
      · exact Or.inl ((List.mem_cons.1 hmem).resolve_left heq)
      · exact Or.inr hhidden
  positions j b hj := by
    by_cases heq : j = i
    · exact heq ▸ hi
    · rw [lookup_settle_of_ne heq] at hj
      exact h.positions j b hj

end Memory

/-! ## What an evaluation keeps -/

section Keeps

variable {r : Resolver} {v : Nat → Bool} {stack : List Nat} {s : Script Bool} {m m' : Memory}
  {b : Bool}

theorem Eval.keeps (h : r.Eval stack s m b m') (hm : m.Under r stack) :
    m'.Under r stack ∧ m.Extends m' := by
  induction h with
  | done => exact ⟨hm, .refl _⟩
  | known _ _ ih => exact ih hm
  | @again stack i next b m m' hnew hstack _ ih =>
    rcases ih (hm.mark hstack) with ⟨hm', hextends⟩
    exact ⟨hm', (Memory.Extends.mark m i stack).trans hextends⟩
  | @settled stack i p next a b m m₁ m' hnew hstack hp _ _ ihCondition ihRest =>
    have hi : i < r.properties.length := (List.getElem?_eq_some_iff.1 hp).1
    rcases ihCondition (hm.push hnew) with ⟨hm₁, hfirst⟩
    rcases ihRest (hm₁.settle hstack hi a) with ⟨hm', hrest⟩
    have hpending := hm₁.pending i List.mem_cons_self
    exact ⟨hm', (hfirst.trans (.settle hpending a)).trans hrest⟩

/-! ### Answers on the way, seen from the end -/

theorem Eval.known_eq {i : Nat} {a : Bool} (h : r.Eval stack s m b m') (hm : m.Under r stack)
    (hm' : m'.Agrees v) (hknown : m.answers.lookup i = some a) : a = v i :=
  hm'.answers i a ((h.keeps hm).2.answers i a hknown)

/-- An entry that is met again and hidden for now is hidden in the end. -/
theorem Eval.again_eq {i : Nat} (h : r.Eval stack s (m.mark i stack) b m') (hm : m.Under r stack)
    (hm' : m'.Agrees v) (hstack : i ∈ stack) : v i = false := by
  have hextends := (h.keeps (hm.mark hstack)).2
  have hmarked : i ∈ (m.mark i stack).cyclic :=
    Memory.mem_mark_iff.2 (Or.inl (Memory.mem_downTo_self i stack))
  exact hm'.cyclic i (hextends.cyclic i hmarked)

/-- The memory at the moment when an entry gets an answer, which is the one it has in the end. -/
structure Memory.Settles (r : Resolver) (v : Nat → Bool) (stack : List Nat) (i : Nat) (a : Bool)
    (m : Memory) : Prop where
  under : m.Under r (i :: stack)
  agrees : m.Agrees v
  verdict : m.verdict i a = v i
  after : (m.settle i a).Under r stack

theorem Memory.Settles.pending {i : Nat} {a : Bool} (h : m.Settles r v stack i a) :
    m.answers.lookup i = none :=
  h.under.pending i List.mem_cons_self

theorem Eval.settles {i : Nat} {p : Property} {c : Script Bool} {a : Bool} {m₁ : Memory}
    (hcondition : r.Eval (i :: stack) c m a m₁) (h : r.Eval stack s (m₁.settle i a) b m')
    (hm : m.Under r stack) (hm' : m'.Agrees v) (hnew : m.answers.lookup i = none)
    (hstack : i ∉ stack) (hp : r.properties[i]? = some p) : m₁.Settles r v stack i a := by
  have hi : i < r.properties.length := (List.getElem?_eq_some_iff.1 hp).1
  have hm₁ := (hcondition.keeps (hm.push hnew)).1
  have hafter := hm₁.settle hstack hi a
  have hagrees := hm'.of_extends (h.keeps hafter).2
  have hpending := hm₁.pending i List.mem_cons_self
  exact
    { under := hm₁
      agrees := hagrees.of_extends (.settle hpending a)
      verdict := hagrees.answers i _ (Memory.lookup_settle_self m₁ i a)
      after := hafter }

/-! ### What is asked for is remembered -/

/-- The properties that a script asks for, given the answers. -/
def Script.reads {α : Type} (v : Nat → Bool) : Script α → List Nat
  | .done _ => []
  | .fail _ => []
  | .ask i next => i :: (next (v i)).reads v

/-- Whatever the condition of a remembered entry asks for is remembered too, or on the stack. -/
def Memory.Closed (r : Resolver) (v : Nat → Bool) (stack : List Nat) (m : Memory) : Prop :=
  ∀ i a p, m.answers.lookup i = some a → r.properties[i]? = some p →
    ∀ k ∈ (r.conditionScript p.condition).reads v,
      k ∈ stack ∨ (m.answers.lookup k).isSome = true

theorem Memory.isSome_of_extends {i : Nat} (h : m.Extends m')
    (hi : (m.answers.lookup i).isSome = true) : (m'.answers.lookup i).isSome = true := by
  rcases Option.isSome_iff_exists.1 hi with ⟨a, ha⟩
  rw [h.answers i a ha]
  rfl

theorem Memory.Closed.settle {i : Nat} {p : Property} {a : Bool} (h : m.Closed r v (i :: stack))
    (hnew : m.answers.lookup i = none) (hp : r.properties[i]? = some p)
    (hreads : ∀ k ∈ (r.conditionScript p.condition).reads v,
      k ∈ i :: stack ∨ (m.answers.lookup k).isSome = true) :
    (m.settle i a).Closed r v stack := by
  -- What was on the stack is still there, but for the entry, which is remembered now.
  have hmore : ∀ k, k ∈ i :: stack ∨ (m.answers.lookup k).isSome = true →
      k ∈ stack ∨ ((m.settle i a).answers.lookup k).isSome = true := by
    intro k hcases
    rcases hcases with hk | hk
    · rcases List.mem_cons.1 hk with rfl | hk
      · refine Or.inr ?_
        rw [lookup_settle_self]
        rfl
      · exact Or.inl hk
    · exact Or.inr (isSome_of_extends (.settle hnew a) hk)
  intro j c q hj hq k hk
  by_cases heq : j = i
  · subst heq
    have hsame : p = q := Option.some.inj (hp.symm.trans hq)
    subst hsame
    exact hmore k (hreads k hk)
  · rw [lookup_settle_of_ne heq] at hj
    exact hmore k (h j c q hj hq k hk)

/-- The answers that a script gets are the given ones, if the memory that it leaves agrees with
them; so what it asks for is known in the end, or still on the stack. -/
theorem Eval.closed (h : r.Eval stack s m b m') (hm : m.Under r stack) (hm' : m'.Agrees v)
    (hclosed : m.Closed r v stack) :
    m'.Closed r v stack ∧
      ∀ k ∈ s.reads v, k ∈ stack ∨ (m'.answers.lookup k).isSome = true := by
  -- The induction is on the evaluation: whatever is asked for is remembered, lies on the stack,
  -- or is evaluated first, and then its own questions have answers by the first hypothesis.
  induction h with
  | done => exact ⟨hclosed, by simp [Script.reads]⟩
  | @known stack i next a b m m' hknown hrest ih =>
    have hextends := (hrest.keeps hm).2
    have heq : a = v i := hrest.known_eq hm hm' hknown
    subst heq
    rcases ih hm hm' hclosed with ⟨hclosed', hreads⟩
    refine ⟨hclosed', ?_⟩
    intro k hk
    rcases List.mem_cons.1 hk with rfl | hk
    · refine Or.inr ?_
      rw [hextends.answers k _ hknown]
      rfl
    · exact hreads k hk
  | @again stack i next b m m' hnew hstack hrest ih =>
    have hhidden : v i = false := hrest.again_eq hm hm' hstack
    rcases ih (hm.mark hstack) hm' hclosed with ⟨hclosed', hreads⟩
    refine ⟨hclosed', ?_⟩
    intro k hk
    rcases List.mem_cons.1 hk with rfl | hk
    · exact Or.inl hstack
    · exact hreads k (hhidden ▸ hk)
  | @settled stack i p next a b m m₁ m' hnew hstack hp hcondition hrest ihCondition ihRest =>
    have hsettles := hcondition.settles hrest hm hm' hnew hstack hp
    have hextends := (hrest.keeps hsettles.after).2
    have hpush : m.Closed r v (i :: stack) := fun j c q hj hq k hk =>
      (hclosed j c q hj hq k hk).imp_left (List.mem_cons_of_mem i)
    rcases ihCondition (hm.push hnew) hsettles.agrees hpush with ⟨hclosed₁, hreads₁⟩
    have hclosed₂ := hclosed₁.settle (a := a) hsettles.pending hp hreads₁
    rcases ihRest hsettles.after hm' hclosed₂ with ⟨hclosed', hreads⟩
    refine ⟨hclosed', ?_⟩
    intro k hk
    rcases List.mem_cons.1 hk with rfl | hk
    · refine Or.inr ?_
      rw [hextends.answers k _ (Memory.lookup_settle_self m₁ k a)]
      rfl
    · exact hreads k (hsettles.verdict ▸ hk)

end Keeps

/-! ## Entries that are known already -/

/-- What a memory holds about all but some entries is what another one holds. -/
structure Memory.SameOutside (D : Nat → Prop) (m m' : Memory) : Prop where
  answers : ∀ i, ¬ D i → m.answers.lookup i = m'.answers.lookup i
  cyclic : ∀ i, ¬ D i → (i ∈ m.cyclic ↔ i ∈ m'.cyclic)

namespace Memory.SameOutside

variable {D : Nat → Prop} {m m' m'' : Memory} {stack : List Nat} {i : Nat}

theorem refl (m : Memory) : m.SameOutside D m :=
  ⟨fun _ _ => rfl, fun _ _ => Iff.rfl⟩

theorem trans (h : m.SameOutside D m') (h' : m'.SameOutside D m'') : m.SameOutside D m'' :=
  ⟨fun i hi => (h.answers i hi).trans (h'.answers i hi),
    fun i hi => (h.cyclic i hi).trans (h'.cyclic i hi)⟩

theorem symm (h : m.SameOutside D m') : m'.SameOutside D m :=
  ⟨fun i hi => (h.answers i hi).symm, fun i hi => (h.cyclic i hi).symm⟩

/-- Marks on entries that do not count. -/
theorem mark_right (hdown : ∀ j ∈ downTo i stack, D j) (m : Memory) :
    m.SameOutside D (m.mark i stack) := by
  refine ⟨fun _ _ => rfl, ?_⟩
  intro j hj
  rw [mem_mark_iff]
  constructor
  · exact Or.inr
  · intro h
    rcases h with hdownTo | hold
    · exact absurd (hdown j hdownTo) hj
    · exact hold

/-- An answer to an entry that does not count. -/
theorem settle_right (hi : D i) (m : Memory) (a : Bool) : m.SameOutside D (m.settle i a) := by
  refine ⟨?_, fun _ _ => Iff.rfl⟩
  intro j hj
  have hne : j ≠ i := fun heq => hj (heq ▸ hi)
  exact (lookup_settle_of_ne hne m a).symm

theorem mark (h : m.SameOutside D m') (i : Nat) (stack : List Nat) :
    (m.mark i stack).SameOutside D (m'.mark i stack) := by
  refine ⟨h.answers, ?_⟩
  intro j hj
  rw [mem_mark_iff, mem_mark_iff, h.cyclic j hj]

theorem verdict_eq (h : m.SameOutside D m') (hi : ¬ D i) (a : Bool) :
    m.verdict i a = m'.verdict i a := by
  have hcontains : m.cyclic.contains i = m'.cyclic.contains i := by
    rw [Bool.eq_iff_iff, List.contains_iff_mem, List.contains_iff_mem]
    exact h.cyclic i hi
  unfold verdict
  rw [hcontains]

theorem settle (h : m.SameOutside D m') (hi : ¬ D i) (a : Bool) :
    (m.settle i a).SameOutside D (m'.settle i a) := by
  refine ⟨?_, h.cyclic⟩
  intro j hj
  by_cases heq : j = i
  · rw [heq, lookup_settle_self, lookup_settle_self, h.verdict_eq hi]
  · rw [lookup_settle_of_ne heq, lookup_settle_of_ne heq, h.answers j hj]

end Memory.SameOutside

/-- A second memory knows the answers to some entries, and holds the same about all others. -/
structure Memory.Follows (D : Nat → Prop) (v : Nat → Bool) (m w : Memory) : Prop
    extends SameOutside D m w where
  known : ∀ i, D i → w.answers.lookup i = some (v i)

namespace Memory.Follows

variable {D : Nat → Prop} {v : Nat → Bool} {m w : Memory}

theorem mark (h : m.Follows D v w) (i : Nat) (stack : List Nat) :
    (m.mark i stack).Follows D v (w.mark i stack) :=
  ⟨h.toSameOutside.mark i stack, h.known⟩

theorem settle (h : m.Follows D v w) {i : Nat} (hi : ¬ D i) (a : Bool) :
    (m.settle i a).Follows D v (w.settle i a) := by
  refine ⟨h.toSameOutside.settle hi a, ?_⟩
  intro j hj
  have hne : j ≠ i := fun heq => hi (heq ▸ hj)
  rw [lookup_settle_of_ne hne]
  exact h.known j hj

end Memory.Follows

/-- Entries whose conditions ask for such entries only. -/
def ClosedSet (r : Resolver) (v : Nat → Bool) (D : Nat → Prop) : Prop :=
  ∀ i p, D i → r.properties[i]? = some p →
    ∀ k ∈ (r.conditionScript p.condition).reads v, D k

theorem downTo_append {i : Nat} {inner : List Nat} (h : i ∈ inner) (outer : List Nat) :
    downTo i (inner ++ outer) = downTo i inner := by
  induction inner with
  | nil => simp at h
  | cons j rest ih =>
    by_cases heq : j = i
    · simp [downTo, heq]
    · have hrest : i ∈ rest := (List.mem_cons.1 h).resolve_left fun h => heq h.symm
      have htail := ih hrest
      simp only [downTo] at htail
      simp [downTo, heq, htail]

section Simulation

variable {r : Resolver} {v : Nat → Bool} {D : Nat → Prop} {s : Script Bool} {m m' w : Memory}
  {b : Bool}

/-- A script that asks for entries of a closed set leaves what is remembered of other entries as it
is: a cycle that is met lies within the set, since the stack is left as soon as it leaves the set. -/
theorem Eval.sameOutside {stack inner outer : List Nat} (h : r.Eval stack s m b m')
    (hm : m.Under r stack) (hm' : m'.Agrees v) (hD : r.ClosedSet v D)
    (hstack : stack = inner ++ outer) (hinner : ∀ i ∈ inner, D i) (houter : ∀ i ∈ outer, ¬ D i)
    (hreads : ∀ k ∈ s.reads v, D k) : m.SameOutside D m' := by
  induction h generalizing inner with
  | done => exact .refl _
  | @known stack i next a b m m' hknown hrest ih =>
    have heq : a = v i := hrest.known_eq hm hm' hknown
    subst heq
    exact ih hm hm' hstack hinner fun k hk => hreads k (List.mem_cons_of_mem i hk)
  | @again stack i next b m m' hnew hmem hrest ih =>
    have hhidden : v i = false := hrest.again_eq hm hm' hmem
    have hi : D i := hreads i List.mem_cons_self
    -- The entry is in the inner part of the stack, so all that is marked lies there.
    have hin : i ∈ inner := by
      rw [hstack] at hmem
      exact (List.mem_append.1 hmem).resolve_right fun hout => houter i hout hi
    have hdown : ∀ j ∈ downTo i stack, D j := by
      intro j hj
      rw [hstack, downTo_append hin] at hj
      exact hinner j (Memory.mem_of_mem_downTo hin hj)
    refine (Memory.SameOutside.mark_right hdown m).trans ?_
    refine ih (hm.mark hmem) hm' hstack hinner ?_
    intro k hk
    exact hreads k (List.mem_cons_of_mem i (hhidden ▸ hk))
  | @settled stack i p next a b m m₁ m' hnew hmem hp hcondition hrest ihCondition ihRest =>
    have hi : D i := hreads i List.mem_cons_self
    have hsettles := hcondition.settles hrest hm hm' hnew hmem hp
    have hpush : ∀ j ∈ i :: inner, D j := by
      intro j hj
      rcases List.mem_cons.1 hj with rfl | hj
      · exact hi
      · exact hinner j hj
    have hfirst : m.SameOutside D m₁ :=
      ihCondition (hm.push hnew) hsettles.agrees (congrArg (List.cons i) hstack) hpush
        (hD i p hi hp)
    have hlast : (m₁.settle i a).SameOutside D m' := by
      refine ihRest hsettles.after hm' hstack hinner ?_
      intro k hk
      exact hreads k (List.mem_cons_of_mem i (hsettles.verdict ▸ hk))
    exact (hfirst.trans (.settle_right hi m₁ a)).trans hlast

/-- A fresh evaluation is followed from a memory that holds the answers to a closed set of entries:
it has the same result, and it leaves the same of all other entries. -/
theorem Eval.simulate {stack : List Nat} (h : r.Eval stack s m b m') (hm : m.Under r stack)
    (hm' : m'.Agrees v) (hD : r.ClosedSet v D) (hfollows : m.Follows D v w)
    (hstack : ∀ i ∈ stack, ¬ D i) :
    ∃ w', r.Eval stack s w b w' ∧ m'.Follows D v w' := by
  induction h generalizing w with
  | done => exact ⟨w, .done, hfollows⟩
  | @known stack i next a b m m' hlookup hrest ih =>
    rcases ih hm hm' hfollows hstack with ⟨w', heval, hfollows'⟩
    by_cases hi : D i
    · have heq : a = v i := hrest.known_eq hm hm' hlookup
      subst heq
      exact ⟨w', .known (hfollows.known i hi) heval, hfollows'⟩
    · exact ⟨w', .known ((hfollows.answers i hi).symm.trans hlookup) heval, hfollows'⟩
  | @again stack i next b m m' hnew hmem hrest ih =>
    have hi : ¬ D i := hstack i hmem
    rcases ih (hm.mark hmem) hm' (hfollows.mark i stack) hstack with ⟨w', heval, hfollows'⟩
    exact ⟨w', .again ((hfollows.answers i hi).symm.trans hnew) hmem heval, hfollows'⟩
  | @settled stack i p next a b m m₁ m' hnew hmem hp hcondition hrest ihCondition ihRest =>
    have hsettles := hcondition.settles hrest hm hm' hnew hmem hp
    by_cases hi : D i
    · -- The second memory knows the answer, and what the first one does for it is not seen.
      have honly : ∀ j ∈ [i], D j := by simpa using hi
      have hinside : m.SameOutside D m₁ :=
        hcondition.sameOutside (hm.push hnew) hsettles.agrees hD List.singleton_append.symm honly
          hstack
          (hD i p hi hp)
      have hsame : (m₁.settle i a).SameOutside D w :=
        (hinside.trans (.settle_right hi m₁ a)).symm.trans hfollows.toSameOutside
      rcases ihRest hsettles.after hm' ⟨hsame, hfollows.known⟩ hstack with ⟨w', heval, hfollows'⟩
      exact ⟨w', .known (hfollows.known i hi) (hsettles.verdict ▸ heval), hfollows'⟩
    · have hpush : ∀ j ∈ i :: stack, ¬ D j := by
        intro j hj
        rcases List.mem_cons.1 hj with rfl | hj
        · exact hi
        · exact hstack j hj
      rcases ihCondition (hm.push hnew) hsettles.agrees hfollows hpush with
        ⟨w₁, heval₁, hfollows₁⟩
      rcases ihRest hsettles.after hm' (hfollows₁.settle hi a) hstack with ⟨w', heval, hfollows'⟩
      have hlookup := (hfollows.answers i hi).symm.trans hnew
      rw [hfollows₁.verdict_eq hi] at heval
      exact ⟨w', .settled hlookup hmem hp heval₁ heval, hfollows'⟩

end Simulation

/-! ## Courses of questions -/

/-- The memory between two questions. -/
structure Memory.Settled (r : Resolver) (v : Nat → Bool) (m : Memory) : Prop where
  under : m.Under r []
  agrees : m.Agrees v
  closed : m.Closed r v []

/-- Asked of a fresh resolver, every property gets the given answer, and nothing else than given
answers is remembered of others. -/
def Honest (r : Resolver) (v : Nat → Bool) : Prop :=
  ∀ i < r.properties.length, ∃ m, r.Eval [] (.ask i .done) {} (v i) m ∧
    ∀ j a, m.answers.lookup j = some a → a = v j

section Courses

variable {r : Resolver} {v : Nat → Bool} {m w : Memory}

theorem under_empty (r : Resolver) : ({} : Memory).Under r [] where
  pending := by simp
  marked := by simp
  positions := by simp

theorem settled_empty (r : Resolver) (v : Nat → Bool) : ({} : Memory).Settled r v where
  under := under_empty r
  agrees := ⟨by simp, by simp⟩
  closed := by simp [Memory.Closed]

/-- With an empty stack, what is marked is remembered as hidden. -/
theorem Memory.Under.agrees (h : m.Under r [])
    (hanswers : ∀ i a, m.answers.lookup i = some a → a = v i) : m.Agrees v where
  answers := hanswers
  cyclic i hi := by
    have hhidden := (h.marked i hi).resolve_left List.not_mem_nil
    exact (hanswers i false hhidden).symm

/-- A property gets the same answer as from a fresh resolver, whatever was asked before. -/
theorem Memory.Settled.ask (hw : w.Settled r v) (h : r.Honest v) {i : Nat}
    (hi : i < r.properties.length) :
    ∃ w', r.Eval [] (.ask i .done) w (v i) w' ∧ w'.Settled r v := by
  rcases h i hi with ⟨m, heval, hanswers⟩
  let D : Nat → Prop := fun j => (w.answers.lookup j).isSome = true
  have hagrees : m.Agrees v := (heval.keeps (under_empty r)).1.agrees hanswers
  have hD : r.ClosedSet v D := by
    intro j p hj hp k hk
    rcases Option.isSome_iff_exists.1 hj with ⟨a, ha⟩
    exact (hw.closed j a p ha hp k hk).resolve_left List.not_mem_nil
  -- Everything the memory holds is about known entries, so it follows the empty one.
  have hfollows : ({} : Memory).Follows D v w := by
    refine ⟨⟨?_, ?_⟩, ?_⟩
    · intro j hj
      have hnone : w.answers.lookup j = none := Option.not_isSome_iff_eq_none.1 hj
      exact hnone.symm
    · intro j hj
      constructor
      · simp
      · intro hmarked
        have hhidden := (hw.under.marked j hmarked).resolve_left List.not_mem_nil
        have hknown : D j := Option.isSome_of_mem hhidden
        exact absurd hknown hj
    · intro j hj
      rcases Option.isSome_iff_exists.1 hj with ⟨a, ha⟩
      rw [ha, hw.agrees.answers j a ha]
  rcases heval.simulate (under_empty r) hagrees hD hfollows (by simp) with ⟨w', heval', hfollows'⟩
  have hunder := (heval'.keeps hw.under).1
  -- An answer is one from before or one that the fresh evaluation has left too.
  have hagrees' : w'.Agrees v := by
    refine hunder.agrees ?_
    intro j a hj
    by_cases hDj : D j
    · exact (Option.some.inj ((hfollows'.known j hDj).symm.trans hj)).symm
    · exact hanswers j a ((hfollows'.answers j hDj).trans hj)
  exact ⟨w', heval', hunder, hagrees', (heval'.closed hw.under hagrees' hw.closed).1⟩

/-- An evaluation goes on from the answer to its first question. -/
theorem Eval.followed {stack : List Nat} {i : Nat} {next : Bool → Script Bool} {a b : Bool}
    {m₁ m' : Memory} (h : r.Eval stack (.ask i .done) m a m₁)
    (hrest : r.Eval stack (next a) m₁ b m') : r.Eval stack (.ask i next) m b m' := by
  cases h with
  | known hknown hdone =>
    cases hdone
    exact .known hknown hrest
  | again hnew hstack hdone =>
    cases hdone
    exact .again hnew hstack hrest
  | settled hnew hstack hp hcondition hdone =>
    cases hdone
    exact .settled hnew hstack hp hcondition hrest

theorem Memory.Settled.any (hw : w.Settled r v) (h : r.Honest v) {is : List Nat}
    (his : ∀ i ∈ is, i < r.properties.length) :
    ∃ b w', r.Eval [] (anyVisibleScript is) w b w' ∧ w'.Settled r v := by
  induction is generalizing w with
  | nil => exact ⟨false, w, .done, hw⟩
  | cons i rest ih =>
    rcases hw.ask h (his i List.mem_cons_self) with ⟨w₁, hfirst, hw₁⟩
    cases hv : v i with
    | true =>
      rw [hv] at hfirst
      exact ⟨true, w₁, hfirst.followed .done, hw₁⟩
    | false =>
      rw [hv] at hfirst
      rcases ih hw₁ fun j hj => his j (List.mem_cons_of_mem i hj) with ⟨b, w', hrest, hw'⟩
      exact ⟨b, w', hfirst.followed hrest, hw'⟩

end Courses

/-- A question that may be asked: whether an entry applies, or whether a parameter does. -/
inductive Question
  | entry (i : Nat)
  | name (name : String)
  deriving DecidableEq, Repr

def ask (r : Resolver) : Question → Query Bool
  | .entry i => r.isVisible i
  | .name name => r.isNameVisible name

/-- The memory after some questions; one without an answer leaves what was remembered by then. -/
def memoryAfter (r : Resolver) : List Question → Memory → Memory
  | [], m => m
  | q :: rest, m => r.memoryAfter rest (outcome (r.ask q) m).2

/-- The answer that a property gets when other questions have been asked before. -/
def answerAfter (r : Resolver) (qs : List Question) (i : Nat) : Except EvalError Bool :=
  (outcome (r.isVisible i) (r.memoryAfter qs {})).1

def reorder (r : Resolver) (σ : Equiv.Perm (Fin r.properties.length)) : Resolver :=
  { r with properties := List.ofFn fun i => r.properties[σ i] }

/-- No course of questions and no order of the properties changes the answer of a property. -/
def OrderFree (r : Resolver) : Prop :=
  ∀ (σ : Equiv.Perm (Fin r.properties.length)) (qs : List Question)
    (i : Fin r.properties.length),
    (r.reorder σ).answerAfter qs i = r.answerAfter [] (σ i)

section Questions

variable {r : Resolver} {v : Nat → Bool} {m w : Memory}

theorem outcome_isVisible_of_eval {i : Nat} {b : Bool} (h : r.Eval [] (.ask i .done) w b m) :
    outcome (r.isVisible i) w = (.ok b, m) := by
  have hrun := h.outcome_eq (room_nil r)
  simpa [Script.run, isVisible] using hrun

theorem eval_of_outcome_isVisible {i : Nat} {b : Bool} (hi : i < r.properties.length)
    (h : outcome (r.isVisible i) w = (.ok b, m)) : r.Eval [] (.ask i .done) w b m := by
  have hs : (Script.ask i .done : Script Bool).Within r.properties.length :=
    ⟨hi, fun _ => trivial⟩
  refine eval_of_outcome (room_nil r) hs ?_
  simpa [Script.run, isVisible] using h

theorem Eval.lookup_answer {i : Nat} {b : Bool} (h : r.Eval [] (.ask i .done) w b m) :
    m.answers.lookup i = some b := by
  cases h with
  | known hknown hdone =>
    cases hdone
    exact hknown
  | again _ hstack _ => exact absurd hstack List.not_mem_nil
  | settled _ _ _ _ hdone =>
    cases hdone
    exact Memory.lookup_settle_self _ i _

/-- A property that the list does not have is no matter for the memory. -/
theorem outcome_isVisible_of_le {i : Nat} (hi : r.properties.length ≤ i) (m : Memory) :
    (outcome (r.isVisible i) m).2 = m := by
  have hp : r.properties[i]? = none := List.getElem?_eq_none hi
  unfold isVisible
  rw [outcome_visible]
  cases m.answers.lookup i with
  | some a => rfl
  | none => simp [hp]

theorem Memory.Settled.question (hw : w.Settled r v) (h : r.Honest v) (q : Question) :
    (outcome (r.ask q) w).2.Settled r v := by
  cases q with
  | entry i =>
    by_cases hi : i < r.properties.length
    · rcases hw.ask h hi with ⟨w', heval, hw'⟩
      simpa only [Resolver.ask, outcome_isVisible_of_eval heval] using hw'
    · simpa only [Resolver.ask, outcome_isVisible_of_le (Nat.le_of_not_lt hi)] using hw
  | name name =>
    simp only [Resolver.ask, isNameVisible]
    cases hpositions : r.positions name with
    | nil => exact hw
    | cons i more =>
      have hbound : ∀ j ∈ i :: more, j < r.properties.length := fun j hj =>
        lt_of_mem_positions (hpositions ▸ hj)
      rcases hw.any h hbound with ⟨b, w', heval, hw'⟩
      have hrun := heval.outcome_eq (room_nil r)
      rw [run_anyVisibleScript] at hrun
      have hsame : anyVisible r.isVisible (i :: more) =
          anyVisible (r.visible (r.properties.length + 1) []) (i :: more) := rfl
      simpa only [hsame, hrun] using hw'

theorem Memory.Settled.questions (hw : w.Settled r v) (h : r.Honest v) (qs : List Question) :
    (r.memoryAfter qs w).Settled r v := by
  induction qs generalizing w with
  | nil => exact hw
  | cons q rest ih => exact ih (hw.question h q)

theorem Honest.answerAfter (h : r.Honest v) (qs : List Question) {i : Nat}
    (hi : i < r.properties.length) : r.answerAfter qs i = .ok (v i) := by
  have hsettled := (settled_empty r v).questions h qs
  rcases hsettled.ask h hi with ⟨w', heval, -⟩
  unfold Resolver.answerAfter
  rw [outcome_isVisible_of_eval heval]

end Questions

theorem length_reorder (r : Resolver) (σ : Equiv.Perm (Fin r.properties.length)) :
    (r.reorder σ).properties.length = r.properties.length := by
  simp [reorder]

/-- A first question that has an answer is an evaluation, which leaves its memory. -/
theorem exists_eval_of_answerAfter_nil {r : Resolver} {i : Nat} {b : Bool}
    (hi : i < r.properties.length) (h : r.answerAfter [] i = .ok b) :
    r.Eval [] (.ask i .done) {} b (r.memoryAfter [.entry i] {}) := by
  refine eval_of_outcome_isVisible hi (Prod.ext h ?_)
  rfl

/-- Where single questions to fresh resolvers have answers, no course of questions and no order of
the properties changes an answer exactly if no single question, in any order of the properties,
leaves another answer in memory than the one the property gets when it is asked alone. -/
theorem orderFree_iff (r : Resolver)
    (hanswers : ∀ (σ : Equiv.Perm (Fin r.properties.length)) (i : Fin r.properties.length),
      ∃ b, (r.reorder σ).answerAfter [] i = .ok b) :
    r.OrderFree ↔
      ∀ (σ : Equiv.Perm (Fin r.properties.length)) (j i : Fin r.properties.length) (b : Bool),
        ((r.reorder σ).memoryAfter [.entry j] {}).answers.lookup (i : Nat) = some b →
          r.answerAfter [] (σ i) = .ok b := by
  constructor
  · intro hfree σ j i b hlookup
    have hasked : (r.reorder σ).answerAfter [.entry j] i = .ok b := by
      simp only [answerAfter, isVisible, outcome_visible, hlookup]
    rw [← hfree σ [.entry j] i, hasked]
  · intro hmemory σ qs i
    -- The answers given in the order as it is, at the positions of the other order.
    let v : Nat → Bool := fun k =>
      if hk : k < r.properties.length then r.answerAfter [] (σ ⟨k, hk⟩) matches .ok true else false
    have hv : ∀ (k : Fin r.properties.length) (b : Bool),
        r.answerAfter [] (σ k) = .ok b → b = v k := by
      intro k b hb
      cases b <;> simp [v, hb]
    have hi : (i : Nat) < (r.reorder σ).properties.length := by
      rw [length_reorder]
      exact i.isLt
    have hhonest : (r.reorder σ).Honest v := by
      intro j hj
      have hj' : j < r.properties.length := length_reorder r σ ▸ hj
      rcases hanswers σ ⟨j, hj'⟩ with ⟨b, hb⟩
      have heval := exists_eval_of_answerAfter_nil hj hb
      have hb' : b = v j := hv ⟨j, hj'⟩ b (hmemory σ ⟨j, hj'⟩ ⟨j, hj'⟩ b heval.lookup_answer)
      refine ⟨_, hb' ▸ heval, ?_⟩
      intro k a hk
      have hposition := (heval.keeps (under_empty _)).1.positions k a hk
      have hk' : k < r.properties.length := length_reorder r σ ▸ hposition
      exact hv ⟨k, hk'⟩ a (hmemory σ ⟨j, hj'⟩ ⟨k, hk'⟩ a hk)
    rcases hanswers σ i with ⟨b, hb⟩
    have heval := exists_eval_of_answerAfter_nil hi hb
    have halone : r.answerAfter [] (σ i) = .ok b := hmemory σ i i b heval.lookup_answer
    calc (r.reorder σ).answerAfter qs i = .ok (v i) := hhonest.answerAfter qs hi
      _ = .ok b := by rw [← hv i b halone]
      _ = r.answerAfter [] (σ i) := halone.symm

/-- A property that hides while one of some parameters is `1`. -/
def hiddenBy (name : String) (others : List String) : Property where
  name := name
  type := "string"
  condition := some { hideWhen := others.map fun other => (other, .str "1") }

def rivals : Resolver where
  properties := [hiddenBy "a" ["b"], hiddenBy "b" ["a"]]
  config := [("a", .str "1"), ("b", .str "1")]

theorem rivals_orderFree :
    (∀ (σ : Equiv.Perm (Fin rivals.properties.length)) (i : Fin rivals.properties.length),
      ∃ b, (rivals.reorder σ).answerAfter [] i = .ok b) ∧ rivals.OrderFree := by
  have hanswers : ∀ (σ : Equiv.Perm (Fin rivals.properties.length))
      (i : Fin rivals.properties.length), ∃ b, (rivals.reorder σ).answerAfter [] i = .ok b := by
    decide +kernel
  exact ⟨hanswers, (orderFree_iff rivals hanswers).2 (by decide +kernel)⟩

/-- Two properties that hide each other, and a third one which hides while the second applies and
hides the first one in turn. -/
def entangled : Resolver where
  properties := [hiddenBy "q" ["r", "p"], hiddenBy "r" ["q"], hiddenBy "p" ["r"]]
  config := [("q", .str "1"), ("r", .str "1"), ("p", .str "1")]

/-- Asked after the first property, the third one applies; asked at once, it does not. -/
theorem cycle_order_seen :
    entangled.answerAfter [.entry 0] 2 = .ok true ∧ entangled.answerAfter [] 2 = .ok false ∧
      ¬ entangled.OrderFree := by
  have hlater : entangled.answerAfter [.entry 0] 2 = .ok true := by decide +kernel
  have hfirst : entangled.answerAfter [] 2 = .ok false := by decide +kernel
  refine ⟨hlater, hfirst, ?_⟩
  intro hfree
  have hsame : entangled.answerAfter [.entry 0] 2 = entangled.answerAfter [] 2 :=
    hfree (Equiv.refl _) [.entry 0] ⟨2, by decide⟩
  rw [hlater, hfirst] at hsame
  exact absurd hsame (by decide)

end Resolver
end Workflows
