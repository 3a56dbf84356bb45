import Mathlib.Data.List.Perm.Subperm
import Mathlib.Data.List.Nodup
import Workflows.Visibility.Resolver

/-!
# Script — the questions a condition asks, apart from their answers

A condition asks of one property after the other whether it applies, and which one it asks next
depends on the answers so far. A script is that course of questions as a tree: it ends in a result
or an error, or asks for a property and goes on with the answer. The resolver runs such scripts.

An evaluation is a run that ends well, as a derivation. A property that is asked for is known from
memory, or is met again and marked, or has its own condition evaluated under a longer stack; there
is no fuel, since a stack without repetitions that holds positions only cannot outgrow the list of
properties.

Main definitions:

* `Script`, `Script.run`, `Resolver.conditionScript` — questions, and those of a condition;
* `Resolver.Eval` — evaluations; `Resolver.eval_iff` — they are the runs that end well.
-/

namespace Workflows
namespace Resolver

/-- A course of questions about properties, by their positions. -/
inductive Script (α : Type)
  | done (a : α)
  | fail (e : EvalError)
  | ask (i : Nat) (next : Bool → Script α)

namespace Script

variable {α β : Type}

def bind : Script α → (α → Script β) → Script β
  | done a, f => f a
  | fail e, _ => .fail e
  | ask i next, f => .ask i fun b => (next b).bind f

/-- Carries out the questions with the given way of answering them. -/
def run (visible : Nat → Query Bool) : Script α → Query α
  | done a => pure a
  | fail e => throw e
  | ask i next => do
    let b ← visible i
    (next b).run visible

/-- Every property that is asked for has a position below a bound. -/
def Within (n : Nat) : Script α → Prop
  | done _ => True
  | fail _ => True
  | ask i next => i < n ∧ ∀ b, (next b).Within n

/-- A script that goes on with another one runs as the one and then the other. -/
theorem run_bind (visible : Nat → Query Bool) (s : Script α) (f : α → Script β) :
    (s.bind f).run visible = s.run visible >>= fun a => (f a).run visible := by
  induction s with
  | done a => simp [bind, run]
  | fail e => rfl
  | ask i next ih => simp [bind, run, ih]

/-- A script stays within the entries if each of its parts does. -/
theorem within_bind {n : Nat} {s : Script α} {f : α → Script β} (hs : s.Within n)
    (hf : ∀ a, (f a).Within n) : (s.bind f).Within n := by
  induction s with
  | done a => exact hf a
  | fail e => trivial
  | ask i next ih => exact ⟨hs.1, fun b => ih b (hs.2 b)⟩

end Script

/-! ## Scripts of conditions -/

section Scripts

variable (r : Resolver) (lookup : String → Script (Option Value))

def allowsScript (value : Option Value) (allowed : Value) : Script Bool :=
  match Allowed.allows value allowed with
  | .ok b => .done b
  | .error e => .fail e

def allMatchScript : Entries Value → Script Bool
  | [] => .done true
  | (key, allowed) :: rest =>
    (lookup key).bind fun value =>
      (allowsScript value allowed).bind fun matched =>
        if matched then allMatchScript rest else .done false

def noneMatchesScript : Entries Value → Script Bool
  | [] => .done true
  | (key, allowed) :: rest =>
    (lookup key).bind fun value =>
      (allowsScript value allowed).bind fun matched =>
        if matched then .done false else noneMatchesScript rest

def anyVisibleScript : List Nat → Script Bool
  | [] => .done false
  | i :: rest => .ask i fun v => if v then .done true else anyVisibleScript rest

def siblingScript (name : String) : Script (Option Value) :=
  if name = versionKey then .done (r.typeVersion.map .num)
  else
    match r.config.get? name with
    | none | some .null => .done none
    | some value =>
      match r.positions name with
      | [] => .done (some value)
      | i :: more =>
        (anyVisibleScript (i :: more)).bind fun v => .done (if v then some value else none)

def conditionScript : Option Condition → Script Bool
  | none => .done true
  | some c =>
    (allMatchScript r.siblingScript c.showWhen).bind fun shown =>
      if shown then noneMatchesScript r.siblingScript c.hideWhen else .done false

end Scripts

section Runs

variable (visible : Nat → Query Bool)

/-- A comparison runs without any question. -/
theorem run_allowsScript (value : Option Value) (allowed : Value) :
    (allowsScript value allowed).run visible =
      ExceptT.mk (pure (Allowed.allows value allowed)) := by
  unfold allowsScript
  cases Allowed.allows value allowed <;> rfl

/-- The script of the conditions for showing runs as these conditions. -/
theorem run_allMatchScript (lookup : String → Script (Option Value)) (es : Entries Value) :
    (allMatchScript lookup es).run visible =
      allMatch (fun key => (lookup key).run visible) es := by
  induction es with
  | nil => rfl
  | cons e rest ih =>
    rcases e with ⟨key, allowed⟩
    simp only [allMatchScript, allMatch, Script.run_bind, run_allowsScript]
    -- The look-ups agree, and so does what is done with every value and verdict.
    congr 1
    funext value
    congr 1
    funext matched
    cases matched with
    | true => exact ih
    | false => rfl

/-- The script of the conditions for hiding runs as these conditions. -/
theorem run_noneMatchesScript (lookup : String → Script (Option Value)) (es : Entries Value) :
    (noneMatchesScript lookup es).run visible =
      noneMatches (fun key => (lookup key).run visible) es := by
  induction es with
  | nil => rfl
  | cons e rest ih =>
    rcases e with ⟨key, allowed⟩
    simp only [noneMatchesScript, noneMatches, Script.run_bind, run_allowsScript]
    congr 1
    funext value
    congr 1
    funext matched
    cases matched with
    | true => rfl
    | false => exact ih

/-- The script runs as the question whether one of the entries is visible. -/
theorem run_anyVisibleScript (is : List Nat) :
    (anyVisibleScript is).run visible = anyVisible visible is := by
  induction is with
  | nil => rfl
  | cons i rest ih =>
    simp only [anyVisibleScript, anyVisible, Script.run]
    congr 1
    funext v
    cases v with
    | true => rfl
    | false => exact ih

/-- The script runs as the question for the value of a name. -/
theorem run_siblingScript (r : Resolver) (name : String) :
    (r.siblingScript name).run visible = r.siblingValue visible name := by
  -- A value that is present is asked for by the entries of its name.
  have hpresent : ∀ value : Value,
      (match r.positions name with
        | [] => Script.done (some value)
        | i :: more =>
          (anyVisibleScript (i :: more)).bind fun v =>
            .done (if v then some value else none)).run visible =
      (match r.positions name with
        | [] => pure (some value)
        | i :: more => do
          let v ← anyVisible visible (i :: more)
          pure (if v then some value else none)) := by
    intro value
    cases r.positions name with
    | nil => rfl
    | cons i more =>
      simp only [Script.run_bind, run_anyVisibleScript]
      rfl
  unfold siblingScript siblingValue
  by_cases hversion : name = versionKey
  · simp only [hversion, if_true]
    rfl
  · simp only [hversion, if_false]
    cases r.config.get? name with
    | none => rfl
    | some value =>
      cases value with
      | null => rfl
      | _ => exact hpresent _

/-- Running the script of a condition is evaluating the condition. -/
theorem run_conditionScript (r : Resolver) (c : Option Condition) :
    (r.conditionScript c).run visible = holds (r.siblingValue visible) c := by
  have hlookup : (fun key => (r.siblingScript key).run visible) = r.siblingValue visible := by
    funext key
    exact run_siblingScript visible r key
  cases c with
  | none => rfl
  | some c =>
    simp only [conditionScript, holds, Script.run_bind, run_allMatchScript, hlookup]
    congr 1
    funext shown
    cases shown with
    | true =>
      simp only [if_true, run_noneMatchesScript, hlookup]
    | false => rfl

end Runs

/-- The positions of a name are those of entries. -/
theorem lt_of_mem_positions {r : Resolver} {name : String} {i : Nat} (h : i ∈ r.positions name) :
    i < r.properties.length := by
  rcases List.mem_map.1 h with ⟨⟨p, j⟩, hmem, rfl⟩
  have hget := List.mk_mem_zipIdx_iff_getElem?.1 (List.mem_filter.1 hmem).1
  exact (List.getElem?_eq_some_iff.1 hget).1

section Bounds

variable (r : Resolver)

theorem within_allowsScript (n : Nat) (value : Option Value) (allowed : Value) :
    (allowsScript value allowed).Within n := by
  unfold allowsScript
  cases Allowed.allows value allowed <;> trivial

/-- The script asks for the entries that it is given. -/
theorem within_anyVisibleScript {n : Nat} {is : List Nat} (h : ∀ i ∈ is, i < n) :
    (anyVisibleScript is).Within n := by
  induction is with
  | nil => trivial
  | cons i rest ih =>
    refine ⟨h i List.mem_cons_self, ?_⟩
    intro v
    cases v with
    | true => trivial
    | false => exact ih fun j hj => h j (List.mem_cons_of_mem i hj)

/-- The script asks for entries of that name. -/
theorem within_siblingScript (name : String) :
    (r.siblingScript name).Within r.properties.length := by
  unfold siblingScript
  split
  · trivial
  · split
    · trivial
    · trivial
    · split
      · trivial
      · rename_i i more heq
        refine Script.within_bind (within_anyVisibleScript ?_) fun _ => trivial
        intro j hj
        exact lt_of_mem_positions (heq ▸ hj)

/-- The script of a condition asks for entries of the resolver. -/
theorem within_conditionScript (c : Option Condition) :
    (r.conditionScript c).Within r.properties.length := by
  have hall : ∀ es, (allMatchScript r.siblingScript es).Within r.properties.length := by
    intro es
    induction es with
    | nil => trivial
    | cons e rest ih =>
      refine Script.within_bind (r.within_siblingScript e.1) ?_
      intro value
      refine Script.within_bind (within_allowsScript _ value e.2) ?_
      intro matched
      cases matched with
      | true => exact ih
      | false => trivial
  have hnone : ∀ es, (noneMatchesScript r.siblingScript es).Within r.properties.length := by
    intro es
    induction es with
    | nil => trivial
    | cons e rest ih =>
      refine Script.within_bind (r.within_siblingScript e.1) ?_
      intro value
      refine Script.within_bind (within_allowsScript _ value e.2) ?_
      intro matched
      cases matched with
      | true => trivial
      | false => exact ih
  cases c with
  | none => trivial
  | some c =>
    refine Script.within_bind (hall c.showWhen) ?_
    intro shown
    cases shown with
    | true => exact hnone c.hideWhen
    | false => trivial

end Bounds

/-! ## Outcomes -/

def outcome {α : Type} (q : Query α) (m : Memory) : Except EvalError α × Memory :=
  q.run.run m

/-- The memory in which all from an entry to the top of the stack are marked. -/
def Memory.mark (m : Memory) (i : Nat) (stack : List Nat) : Memory :=
  { m with cyclic := downTo i stack ++ m.cyclic }

/-- The answer that is remembered for an entry whose condition has been evaluated. -/
def Memory.verdict (m : Memory) (i : Nat) (answer : Bool) : Bool :=
  answer && !m.cyclic.contains i

def Memory.settle (m : Memory) (i : Nat) (answer : Bool) : Memory :=
  { m with answers := (i, m.verdict i answer) :: m.answers }

section Outcomes

variable {α β : Type}

theorem outcome_bind (q : Query α) (f : α → Query β) (m : Memory) :
    outcome (q >>= f) m =
      match outcome q m with
      | (.ok a, m') => outcome (f a) m'
      | (.error e, m') => (.error e, m') := by
  have hstep : outcome (q >>= f) m =
      (ExceptT.bindCont f (outcome q m).1 : StateM Memory (Except EvalError β)) (outcome q m).2 :=
    rfl
  rw [hstep]
  rcases outcome q m with ⟨x, m'⟩
  cases x <;> rfl

theorem outcome_visible (r : Resolver) (fuel : Nat) (stack : List Nat) (i : Nat) (m : Memory) :
    outcome (r.visible (fuel + 1) stack i) m =
      match m.answers.lookup i with
      | some answer => (.ok answer, m)
      | none =>
        if stack.contains i then (.ok false, m.mark i stack)
        else
          match r.properties[i]? with
          | none => (.ok false, m)
          | some p =>
            match outcome ((r.conditionScript p.condition).run (r.visible fuel (i :: stack))) m with
            | (.ok answer, m') => (.ok (m'.verdict i answer), m'.settle i answer)
            | (.error e, m') => (.error e, m') := by
  have hget : outcome (get : Query Memory) m = (.ok m, m) := rfl
  simp only [visible, outcome_bind, hget]
  cases m.answers.lookup i with
  | some answer => rfl
  | none =>
    dsimp only
    cases hmem : stack.contains i with
    | true => rfl
    | false =>
      simp only [Bool.false_eq_true, if_false]
      cases r.properties[i]? with
      | none => rfl
      | some p =>
        dsimp only
        rw [outcome_bind, run_conditionScript]
        rcases outcome (holds (r.siblingValue (r.visible fuel (i :: stack))) p.condition) m with
          ⟨x, m'⟩
        cases x <;> rfl

end Outcomes

/-! ## Evaluations -/

/-- A script that is carried out to the end, under a stack and from one memory to another. -/
inductive Eval (r : Resolver) : List Nat → Script Bool → Memory → Bool → Memory → Prop
  | done {stack : List Nat} {b : Bool} {m : Memory} : Eval r stack (.done b) m b m
  /-- The answer is remembered. -/
  | known {stack : List Nat} {i : Nat} {next : Bool → Script Bool} {a b : Bool} {m m' : Memory}
      (hknown : m.answers.lookup i = some a) (rest : Eval r stack (next a) m b m') :
      Eval r stack (.ask i next) m b m'
  /-- The property is on the stack, so it is on a cycle. -/
  | again {stack : List Nat} {i : Nat} {next : Bool → Script Bool} {b : Bool} {m m' : Memory}
      (hnew : m.answers.lookup i = none) (hstack : i ∈ stack)
      (rest : Eval r stack (next false) (m.mark i stack) b m') :
      Eval r stack (.ask i next) m b m'
  /-- The condition of the property is evaluated, and the answer remembered. -/
  | settled {stack : List Nat} {i : Nat} {p : Property} {next : Bool → Script Bool} {a b : Bool}
      {m m₁ m' : Memory} (hnew : m.answers.lookup i = none) (hstack : i ∉ stack)
      (hp : r.properties[i]? = some p)
      (condition : Eval r (i :: stack) (r.conditionScript p.condition) m a m₁)
      (rest : Eval r stack (next (m₁.verdict i a)) (m₁.settle i a) b m') :
      Eval r stack (.ask i next) m b m'

/-- A stack of positions, none of them twice, with fuel for all positions that are not on it. -/
structure Room (r : Resolver) (fuel : Nat) (stack : List Nat) : Prop where
  nodup : stack.Nodup
  positions : ∀ i ∈ stack, i < r.properties.length
  enough : r.properties.length + 1 ≤ fuel + stack.length

section Evaluations

variable {r : Resolver} {fuel : Nat} {stack : List Nat} {m m' : Memory} {s : Script Bool} {b : Bool}

theorem Room.push (h : r.Room (fuel + 1) stack) {i : Nat} (hnew : i ∉ stack)
    (hi : i < r.properties.length) : r.Room fuel (i :: stack) where
  nodup := List.nodup_cons.2 ⟨hnew, h.nodup⟩
  positions j hj := by
    rcases List.mem_cons.1 hj with rfl | hj
    · exact hi
    · exact h.positions j hj
  enough := by
    have henough := h.enough
    rw [List.length_cons]
    omega

/-- A stack without repetitions has at most as many entries as there are positions. -/
theorem length_le_of_nodup (hnodup : stack.Nodup)
    (hpositions : ∀ i ∈ stack, i < r.properties.length) : stack.length ≤ r.properties.length := by
  have hsub : stack ⊆ List.range r.properties.length := fun i hi =>
    List.mem_range.2 (hpositions i hi)
  simpa using (List.subperm_of_subset hnodup hsub).length_le

theorem Room.exists_fuel (h : r.Room fuel stack) : ∃ rest, fuel = rest + 1 := by
  have hlength := length_le_of_nodup h.nodup h.positions
  have henough := h.enough
  exact ⟨fuel - 1, by omega⟩

theorem room_nil (r : Resolver) : r.Room (r.properties.length + 1) [] where
  nodup := List.nodup_nil
  positions := by simp
  enough := by simp

/-- An evaluation is a run that ends well. -/
theorem Eval.outcome_eq (h : r.Eval stack s m b m') (hroom : r.Room fuel stack) :
    outcome (s.run (r.visible fuel stack)) m = (.ok b, m') := by
  -- With room on the stack each case of the evaluation is what the resolver does at that
  -- question.
  induction h generalizing fuel with
  | done => rfl
  | @known stack i next a b m m' hknown _ ih =>
    rcases hroom.exists_fuel with ⟨rest, rfl⟩
    have hstep : outcome (r.visible (rest + 1) stack i) m = (.ok a, m) := by
      rw [outcome_visible, hknown]
    simp only [Script.run, outcome_bind, hstep]
    exact ih hroom
  | @again stack i next b m m' hnew hstack _ ih =>
    rcases hroom.exists_fuel with ⟨rest, rfl⟩
    have hstep : outcome (r.visible (rest + 1) stack i) m = (.ok false, m.mark i stack) := by
      simp [outcome_visible, hnew, hstack]
    simp only [Script.run, outcome_bind, hstep]
    exact ih hroom
  | @settled stack i p next a b m m₁ m' hnew hstack hp _ _ ihCondition ihRest =>
    rcases hroom.exists_fuel with ⟨rest, rfl⟩
    have hi : i < r.properties.length := (List.getElem?_eq_some_iff.1 hp).1
    have hinner := ihCondition (hroom.push hstack hi)
    have hstep : outcome (r.visible (rest + 1) stack i) m =
        (.ok (m₁.verdict i a), m₁.settle i a) := by
      simp [outcome_visible, hnew, hstack, hp, hinner]
    simp only [Script.run, outcome_bind, hstep]
    exact ihRest hroom

/-- A run that ends well is an evaluation. -/
theorem eval_of_outcome (hroom : r.Room fuel stack) (hs : s.Within r.properties.length)
    (h : outcome (s.run (r.visible fuel stack)) m = (.ok b, m')) : r.Eval stack s m b m' := by
  -- Below, the induction on the script follows the questions under one stack, and the one on the
  -- fuel goes into the conditions.
  induction fuel generalizing stack s m b m' with
  | zero =>
    rcases hroom.exists_fuel with ⟨rest, hrest⟩
    omega
  | succ fuel ihFuel =>
    induction s generalizing m with
    | done a =>
      have hdone : (Except.ok a, m) = ((.ok b, m') : Except EvalError Bool × Memory) := h
      simp only [Prod.mk.injEq, Except.ok.injEq] at hdone
      rcases hdone with ⟨rfl, rfl⟩
      exact .done
    | fail e =>
      have hfail : (Except.error e, m) = ((.ok b, m') : Except EvalError Bool × Memory) := h
      simp at hfail
    | ask i next ihNext =>
      simp only [Script.run, outcome_bind, outcome_visible] at h
      cases hlookup : m.answers.lookup i with
      | some a =>
        simp only [hlookup] at h
        exact .known hlookup (ihNext a (hs.2 a) h)
      | none =>
        by_cases hstack : i ∈ stack
        · simp only [hlookup, List.contains_iff_mem.2 hstack, if_true] at h
          exact .again hlookup hstack (ihNext false (hs.2 false) h)
        · have hi : i < r.properties.length := hs.1
          have hp : r.properties[i]? = some r.properties[i] := List.getElem?_eq_getElem hi
          have hcontains : stack.contains i = false := by simpa using hstack
          simp only [hlookup, hcontains, Bool.false_eq_true, if_false, hp] at h
          rcases hinner : outcome ((r.conditionScript r.properties[i].condition).run
              (r.visible fuel (i :: stack))) m with ⟨x, m₁⟩
          cases x with
          | error e => simp [hinner] at h
          | ok a =>
            simp only [hinner] at h
            have hcondition := ihFuel (hroom.push hstack hi) (r.within_conditionScript _) hinner
            exact .settled hlookup hstack hp hcondition (ihNext _ (hs.2 _) h)

end Evaluations

end Resolver
end Workflows
