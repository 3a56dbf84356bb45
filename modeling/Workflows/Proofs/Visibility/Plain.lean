import Workflows.Proofs.Visibility.Script

/-!
# Plain — properties whose conditions always have an answer

An allow-list of plain values only compares, and every two values can be compared. Only a condition
among its entries, with operators of its own, can be a question without an answer. When the
properties of a type have no such conditions, it is known for every node which of them apply.

Main definitions:

* `Allowed.isPlain`, `Property.isPlain` — no condition stands in the allow-lists;
* `Script.Ends` — a script ends with a result, whatever the answers are;
* `Resolver.exists_visibleProperties` — it can be told which properties apply.
-/

namespace Workflows

namespace Allowed

/-- Whether none of the entries of an allow-list is a condition. -/
def isPlain (allowed : Value) : Bool :=
  (entries allowed).all fun entry => (condition? entry).isNone

/-- Plain conditions are all answered. -/
theorem exists_someAllows (value : Option Value) {es : List Value}
    (h : ∀ entry ∈ es, condition? entry = none) : ∃ b, someAllows value es = .ok b := by
  induction es with
  | nil => exact ⟨false, rfl⟩
  | cons entry rest ih =>
    rcases List.forall_mem_cons.1 h with ⟨hentry, hrest⟩
    unfold someAllows entryAllows
    rw [hentry]
    dsimp only
    split
    · rename_i heq
      simp at heq
    · exact ⟨true, rfl⟩
    · exact ih hrest

/-- A plain value is answered whatever it is compared with. -/
theorem exists_allows (value : Option Value) {allowed : Value} (h : isPlain allowed = true) :
    ∃ b, allows value allowed = .ok b := by
  refine exists_someAllows value ?_
  intro entry hentry
  simpa using List.all_eq_true.1 h entry hentry

end Allowed

def Condition.isPlain (c : Condition) : Bool :=
  (c.showWhen ++ c.hideWhen).all fun e => Allowed.isPlain e.2

def Property.isPlain (p : Property) : Bool :=
  p.condition.all Condition.isPlain

namespace Resolver

/-! ## Scripts that end -/

/-- A script ends with a result, whatever the answers are. -/
def Script.Ends {α : Type} : Script α → Prop
  | .done _ => True
  | .fail _ => False
  | .ask _ next => ∀ b, (next b).Ends

/-- A script ends if each of its parts does. -/
theorem Script.ends_bind {α β : Type} {s : Script α} {f : α → Script β} (hs : s.Ends)
    (hf : ∀ a, (f a).Ends) : (s.bind f).Ends := by
  induction s with
  | done a => exact hf a
  | fail e => exact hs.elim
  | ask i next ih => exact fun b => ih b (hs b)

section Conditions

variable (r : Resolver)

/-- The question whether one of some entries is visible ends. -/
theorem ends_anyVisibleScript (is : List Nat) : (anyVisibleScript is).Ends := by
  induction is with
  | nil => trivial
  | cons i rest ih =>
    intro v
    cases v with
    | true => trivial
    | false => exact ih

/-- The question for the value of a name ends. -/
theorem ends_siblingScript (name : String) : (r.siblingScript name).Ends := by
  unfold siblingScript
  split
  · trivial
  · split
    · trivial
    · trivial
    · split
      · trivial
      · exact Script.ends_bind (ends_anyVisibleScript _) fun _ => trivial

/-- The question whether a value is allowed ends. -/
theorem ends_allowsScript (value : Option Value) {allowed : Value}
    (h : Allowed.isPlain allowed = true) : (allowsScript value allowed).Ends := by
  rcases Allowed.exists_allows value h with ⟨b, hb⟩
  unfold allowsScript
  rw [hb]
  trivial

variable {r}

/-- The conditions for showing end if they are plain. -/
theorem ends_allMatchScript {es : Entries Value}
    (h : ∀ e ∈ es, Allowed.isPlain e.2 = true) : (allMatchScript r.siblingScript es).Ends := by
  induction es with
  | nil => trivial
  | cons e rest ih =>
    rcases List.forall_mem_cons.1 h with ⟨he, hrest⟩
    refine Script.ends_bind (r.ends_siblingScript e.1) ?_
    intro value
    refine Script.ends_bind (ends_allowsScript value he) ?_
    intro matched
    cases matched with
    | true => exact ih hrest
    | false => trivial

/-- The conditions for hiding end if they are plain. -/
theorem ends_noneMatchesScript {es : Entries Value}
    (h : ∀ e ∈ es, Allowed.isPlain e.2 = true) : (noneMatchesScript r.siblingScript es).Ends := by
  induction es with
  | nil => trivial
  | cons e rest ih =>
    rcases List.forall_mem_cons.1 h with ⟨he, hrest⟩
    refine Script.ends_bind (r.ends_siblingScript e.1) ?_
    intro value
    refine Script.ends_bind (ends_allowsScript value he) ?_
    intro matched
    cases matched with
    | true => trivial
    | false => exact ih hrest

/-- A plain condition ends. -/
theorem ends_conditionScript {c : Option Condition} (h : c.all Condition.isPlain = true) :
    (r.conditionScript c).Ends := by
  cases c with
  | none => trivial
  | some c =>
    have hall : ∀ e ∈ c.showWhen ++ c.hideWhen, Allowed.isPlain e.2 = true :=
      List.all_eq_true.1 h
    rcases List.forall_mem_append.1 hall with ⟨hshow, hhide⟩
    refine Script.ends_bind (ends_allMatchScript hshow) ?_
    intro shown
    cases shown with
    | true => exact ends_noneMatchesScript hhide
    | false => trivial

end Conditions

/-! ## Questions that have an answer -/

/-- A question has an answer, whatever is remembered. -/
def Answered {α : Type} (q : Query α) : Prop :=
  ∀ m, ∃ a m', outcome q m = (.ok a, m')

theorem answered_pure {α : Type} (a : α) : Answered (pure a) :=
  fun m => ⟨a, m, rfl⟩

/-- A query is answered if each of its parts is. -/
theorem Answered.bind {α β : Type} {q : Query α} {f : α → Query β} (hq : Answered q)
    (hf : ∀ a, Answered (f a)) : Answered (q >>= f) := by
  intro m
  rcases hq m with ⟨a, m₁, ha⟩
  rcases hf a m₁ with ⟨b, m', hb⟩
  refine ⟨b, m', ?_⟩
  rw [outcome_bind, ha]
  exact hb

/-- A script that ends is answered if its questions are. -/
theorem answered_run {α : Type} {visible : Nat → Query Bool} {s : Script α}
    (hvisible : ∀ i, Answered (visible i)) (hs : s.Ends) : Answered (s.run visible) := by
  induction s with
  | done a => exact answered_pure a
  | fail e => exact hs.elim
  | ask i next ih => exact (hvisible i).bind fun b => ih b (hs b)

section Properties

variable {r : Resolver} (h : ∀ p ∈ r.properties, p.isPlain = true)

include h

/-- The question whether an entry is visible is answered. -/
theorem answered_visible (fuel : Nat) (stack : List Nat) (i : Nat) :
    Answered (r.visible fuel stack i) := by
  induction fuel generalizing stack i with
  | zero => exact answered_pure false
  | succ fuel ih =>
    intro m
    rw [outcome_visible]
    cases m.answers.lookup i with
    | some answer => exact ⟨answer, m, rfl⟩
    | none =>
      dsimp only
      split
      · exact ⟨false, _, rfl⟩
      · cases hp : r.properties[i]? with
        | none => exact ⟨false, m, rfl⟩
        | some p =>
          have hscript := ends_conditionScript (r := r) (h p (List.mem_of_getElem? hp))
          rcases answered_run (fun j => ih (i :: stack) j) hscript m with ⟨answer, m', hanswer⟩
          dsimp only
          rw [hanswer]
          exact ⟨_, _, rfl⟩

theorem answered_visibleAmong (is : List Nat) : Answered (r.visibleAmong is) := by
  induction is with
  | nil => exact answered_pure []
  | cons i rest ih =>
    exact (answered_visible h _ [] i).bind fun v => ih.bind fun more => answered_pure _

/-- When all conditions are plain, it can be told which properties apply. -/
theorem exists_visibleProperties : ∃ ps, (r.visibleProperties.run {}).1 = .ok ps := by
  have hanswered : Answered r.visibleProperties :=
    (answered_visibleAmong h _).bind fun is => answered_pure _
  rcases hanswered {} with ⟨ps, m, hps⟩
  exact ⟨ps, congrArg Prod.fst hps⟩

end Properties

end Resolver
end Workflows
