import Mathlib.Logic.Relation
import Workflows.Proofs.Visibility.QuestionOrder

/-!
# Nesting — how deep the evaluation of conditions goes

A query is carried out step by step here, with the calls that are under way made explicit. What a
script asks for is remembered, or it is on the stack, or a call begins: the entry is put on the stack,
and its condition is evaluated before the script goes on. When the call ends, the top of the stack is
taken away, whether there is an answer or an error; an error then ends the script further out as well.

There is no fuel in these steps, and the stack is a part of what the resolver holds, so a query finds
the stack that the one before has left. Each step keeps the stack equal to the entries of the calls
under way, none of them twice; so the calls are no more than the entries, and when the last one has
ended, nothing is on the stack. A query comes to an end, and it is the one that the resolver finds,
which has fuel and is given the stack.

Main definitions:

* `Resolver.Inquiry`, `Resolver.Session` — queries, and what is held between them;
* `Resolver.Progress`, `Progress.step` — a query on its way;
* `Progress.Sound` — the stack is that of the calls under way;
* `Resolver.steps_enter` — a question is answered in steps as it is by the resolver;
* `Resolver.nesting_bounded` — queries end, with an empty stack, and nothing is on it twice.
-/

namespace Workflows
namespace Resolver

/-! ## Queries as scripts -/

/-- What a resolver may be asked: about an entry or a parameter, or for all properties that apply, or
that do not. -/
inductive Inquiry : Type → Type
  | question (q : Question) : Inquiry Bool
  | visible : Inquiry (List Property)
  | hidden : Inquiry (List Property)

/-- The questions of a query for the positions at which properties apply. -/
def amongScript : List Nat → Script (List Nat)
  | [] => .done []
  | i :: rest => .ask i fun v =>
    (amongScript rest).bind fun more => .done (if v then i :: more else more)

namespace Inquiry

variable {α : Type}

def answer (r : Resolver) : Inquiry α → Query α
  | question q => r.ask q
  | visible => r.visibleProperties
  | hidden => r.hiddenProperties

/-- The entries that a query asks for, one after the other. -/
def script (r : Resolver) : Inquiry α → Script α
  | question (.entry i) => .ask i .done
  | question (.name name) =>
    match r.positions name with
    | [] => .done true
    | i :: more => anyVisibleScript (i :: more)
  | visible =>
    (amongScript (List.range r.properties.length)).bind fun is =>
      .done (is.filterMap fun i => r.properties[i]?)
  | hidden =>
    (amongScript (List.range r.properties.length)).bind fun is =>
      .done (r.properties.zipIdx.filterMap fun (p, i) => if is.contains i then none else some p)

end Inquiry

section Scripts

variable (r : Resolver)

/-- The script for several entries asks for them one after the other. -/
theorem run_amongScript (is : List Nat) : (amongScript is).run r.isVisible = r.visibleAmong is := by
  induction is with
  | nil => rfl
  | cons i rest ih =>
    simp only [amongScript, visibleAmong, Script.run, Script.run_bind, ih]

/-- A query is the run of its script. -/
theorem Inquiry.run_script {α : Type} (q : Inquiry α) :
    (q.script r).run r.isVisible = q.answer r := by
  cases q with
  | question q =>
    cases q with
    | entry i => simp [script, answer, Script.run, Resolver.ask]
    | name name =>
      simp only [script, answer, Resolver.ask, isNameVisible]
      cases r.positions name with
      | nil => rfl
      | cons i more => exact run_anyVisibleScript r.isVisible (i :: more)
  | visible =>
    simp only [script, answer, visibleProperties, visiblePositions, Script.run_bind, run_amongScript]
    rfl
  | hidden =>
    simp only [script, answer, hiddenProperties, visiblePositions, Script.run_bind, run_amongScript]
    rfl

end Scripts

/-! ## Steps -/

/-- What a resolver holds between queries and during them. -/
structure Session where
  memory : Memory := {}
  /-- The entries whose conditions are being evaluated, innermost first. -/
  stack : List Nat := []

/-- The evaluation of the condition of an entry, with what is left of it. -/
structure Call where
  entry : Nat
  rest : Script Bool

/-- A query on its way, with the calls that have begun and not ended, innermost first. -/
structure Progress (α : Type) extends Session where
  calls : List Call := []
  /-- What is left of the query itself. -/
  query : Script α

/-- What is left of a script after its question: it goes on with an answer, and ends with an error. -/
def Script.receive {α : Type} (x : Except EvalError Bool) : Script α → Script α
  | .ask _ next =>
    match x with
    | .ok b => next b
    | .error e => .fail e
  | s => s

def Script.ended {α : Type} : Except EvalError α → Script α
  | .ok a => .done a
  | .error e => .fail e

namespace Progress

variable {α : Type}

/-- The innermost script gets to know what came of its question. -/
def receive (x : Except EvalError Bool) (s : Progress α) : Progress α :=
  match s.calls with
  | [] => { s with query := s.query.receive x }
  | c :: outer => { s with calls := { c with rest := c.rest.receive x } :: outer }

/-- A call for an entry is under way, with what is left of its condition. -/
def within (i : Nat) (rest : Script Bool) (m : Memory) (s : Progress α) : Progress α :=
  { s with memory := m, stack := i :: s.stack, calls := ⟨i, rest⟩ :: s.calls }

/-- The innermost script asks for an entry. -/
def enter (r : Resolver) (i : Nat) (s : Progress α) : Progress α :=
  match s.memory.answers.lookup i with
  | some answer => s.receive (.ok answer)
  | none =>
    if s.stack.contains i then
      { s with memory := s.memory.mark i s.stack }.receive (.ok false)
    else
      match r.properties[i]? with
      | none => s.receive (.ok false)
      | some p => s.within i (r.conditionScript p.condition) s.memory

/-- The innermost call has ended, and those further out go on. The top of the stack is taken away
before the answer is remembered, and also when there is none. -/
def leave (i : Nat) (x : Except EvalError Bool) (outer : List Call) (s : Progress α) : Progress α :=
  let back := { s with stack := s.stack.tail, calls := outer }
  match x with
  | .ok answer =>
    { back with memory := s.memory.settle i answer }.receive (.ok (s.memory.verdict i answer))
  | .error e => back.receive (.error e)

/-- The next step, unless the query has ended. -/
def step (r : Resolver) (s : Progress α) : Option (Progress α) :=
  match s.calls with
  | [] =>
    match s.query with
    | .ask i _ => some (s.enter r i)
    | _ => none
  | c :: outer =>
    match c.rest with
    | .ask i _ => some (s.enter r i)
    | .done answer => some (s.leave c.entry (.ok answer) outer)
    | .fail e => some (s.leave c.entry (.error e) outer)

end Progress

def Inquiry.start {α : Type} (q : Inquiry α) (r : Resolver) (σ : Session) : Progress α :=
  { σ with query := q.script r }

def Steps {α : Type} (r : Resolver) : Progress α → Progress α → Prop :=
  Relation.ReflTransGen fun s t => s.step r = some t

/-- What a resolver can hold between queries: it is fresh, or the last query has come to an end,
with an answer or with an error. -/
inductive Held (r : Resolver) : Session → Prop
  | fresh : Held r {}
  | asked {α : Type} {σ : Session} {s : Progress α} (q : Inquiry α) (h : Held r σ)
      (hsteps : r.Steps (q.start r σ) s) (hend : s.step r = none) : Held r s.toSession

/-! ## The stack -/

namespace Progress

variable {α : Type} {r : Resolver} {s t : Progress α}

/-- The entries of the calls under way are on the stack, each of them once, and nothing else is. -/
structure Sound (r : Resolver) (s : Progress α) : Prop where
  entries : s.stack = s.calls.map Call.entry
  nodup : s.stack.Nodup
  positions : ∀ i ∈ s.stack, i < r.properties.length

@[simp] theorem stack_receive (x : Except EvalError Bool) (s : Progress α) :
    (s.receive x).stack = s.stack := by
  unfold receive
  split <;> rfl

@[simp] theorem entries_receive (x : Except EvalError Bool) (s : Progress α) :
    (s.receive x).calls.map Call.entry = s.calls.map Call.entry := by
  unfold receive
  split
  · rfl
  · rename_i c outer hcalls
    rw [hcalls]
    rfl

/-- An answer keeps the progress sound. -/
theorem Sound.receive (h : s.Sound r) (x : Except EvalError Bool) : (s.receive x).Sound r where
  entries := by rw [stack_receive, entries_receive, h.entries]
  nodup := by rw [stack_receive]; exact h.nodup
  positions := by rw [stack_receive]; exact h.positions

/-- A call begins only for an entry that is not on the stack. -/
theorem Sound.enter (h : s.Sound r) (i : Nat) : (s.enter r i).Sound r := by
  unfold Progress.enter
  split
  · exact h.receive _
  · split
    · have hmarked : ({ s with memory := s.memory.mark i s.stack } : Progress α).Sound r :=
        ⟨h.entries, h.nodup, h.positions⟩
      exact hmarked.receive _
    · rename_i hstack
      split
      · exact h.receive _
      · rename_i p hp
        have hnew : i ∉ s.stack := by simpa using hstack
        have hi : i < r.properties.length := (List.getElem?_eq_some_iff.1 hp).1
        exact ⟨congrArg (i :: ·) h.entries, List.nodup_cons.2 ⟨hnew, h.nodup⟩,
          List.forall_mem_cons.2 ⟨hi, h.positions⟩⟩

/-- The call that ends is the one whose entry is the top of the stack. -/
theorem Sound.leave (h : s.Sound r) {c : Call} {outer : List Call} (hcalls : s.calls = c :: outer)
    (x : Except EvalError Bool) : (s.leave c.entry x outer).Sound r := by
  have hstack : s.stack = c.entry :: outer.map Call.entry := by rw [h.entries, hcalls]; rfl
  have htail : s.stack.tail = outer.map Call.entry := by rw [hstack]; rfl
  have hback : ∀ m : Memory, ({ s with
      memory := m, stack := s.stack.tail, calls := outer } : Progress α).Sound r := fun m =>
    ⟨htail, h.nodup.tail, fun i hi => h.positions i (List.mem_of_mem_tail hi)⟩
  cases x with
  | ok answer => exact (hback _).receive _
  | error e => exact (hback _).receive _

/-- A step keeps the progress sound. -/
theorem Sound.step (h : s.Sound r) (hstep : s.step r = some t) : t.Sound r := by
  unfold Progress.step at hstep
  split at hstep
  · split at hstep
    · exact Option.some.inj hstep ▸ h.enter _
    · exact absurd hstep (by simp)
  · rename_i c outer hcalls
    split at hstep
    · exact Option.some.inj hstep ▸ h.enter _
    · exact Option.some.inj hstep ▸ h.leave hcalls _
    · exact Option.some.inj hstep ▸ h.leave hcalls _

/-- Any number of steps keep the progress sound. -/
theorem Sound.steps (h : s.Sound r) (hsteps : r.Steps s t) : t.Sound r := by
  induction hsteps with
  | refl => exact h
  | tail _ hstep ih => exact ih.step hstep

/-- Calls are nested no deeper than there are entries. -/
theorem Sound.length_calls_le (h : s.Sound r) : s.calls.length ≤ r.properties.length := by
  calc s.calls.length = s.stack.length := by rw [h.entries, List.length_map]
    _ ≤ r.properties.length := length_le_of_nodup h.nodup h.positions

/-- A query has not ended while a call is under way. -/
theorem calls_of_step_eq_none (h : s.step r = none) : s.calls = [] := by
  unfold Progress.step at h
  split at h
  · assumption
  · split at h <;> exact absurd h (by simp)

/-- At the end of the evaluation nothing is left on the stack. -/
theorem Sound.stack_eq_nil (h : s.Sound r) (hend : s.step r = none) : s.stack = [] := by
  rw [h.entries, calls_of_step_eq_none hend]
  rfl

end Progress

section Stack

variable {r : Resolver} {σ : Session}

/-- An evaluation starts soundly if nothing is on the stack. -/
theorem sound_start {α : Type} (q : Inquiry α) (hstack : σ.stack = []) :
    (q.start r σ).Sound r where
  entries := hstack
  nodup := by simp [Inquiry.start, hstack]
  positions := by simp [Inquiry.start, hstack]

/-- Every query leaves an empty stack for the next one. -/
theorem Held.stack_eq_nil (h : r.Held σ) : σ.stack = [] := by
  induction h with
  | fresh => rfl
  | asked q _ hsteps hend ih => exact ((sound_start q ih).steps hsteps).stack_eq_nil hend

end Stack

/-! ## Ends -/

section Ends

variable {α β : Type} {r : Resolver}

/-- Every question of a script at some place in a query is answered in some steps, in the given
way. -/
def AnswersAt (r : Resolver) (visible : Nat → Query Bool)
    (place : Script β → Memory → Progress α) : Prop :=
  ∀ i next m, r.Steps (place (.ask i next) m)
    (place ((Script.ask i next).receive (outcome (visible i) m).1) (outcome (visible i) m).2)

variable {visible : Nat → Query Bool}

/-- If every question of a script is answered, the script is carried out. -/
theorem steps_script {place : Script β → Memory → Progress α} (h : r.AnswersAt visible place)
    (s : Script β) (m : Memory) :
    r.Steps (place s m)
      (place (.ended (outcome (s.run visible) m).1) (outcome (s.run visible) m).2) := by
  induction s generalizing m with
  | done a => exact .refl
  | fail e => exact .refl
  | ask i next ih =>
    refine (h i next m).trans ?_
    rw [Script.run, outcome_bind]
    rcases outcome (visible i) m with ⟨x, m₁⟩
    cases x with
    | ok b => exact ih b m₁
    | error e => exact .refl

/-- If the questions of a call are answered, it comes to an end, and its entry gets an answer if its
condition does. -/
theorem steps_within {s : Progress α} {i : Nat}
    (h : r.AnswersAt visible fun c m => s.within i c m) (c : Script Bool) :
    r.Steps (s.within i c s.memory)
      (match outcome (c.run visible) s.memory with
        | (.ok a, m) => { s with memory := m.settle i a }.receive (.ok (m.verdict i a))
        | (.error e, m) => { s with memory := m }.receive (.error e)) := by
  have hscript := steps_script h c s.memory
  generalize outcome (c.run visible) s.memory = o at hscript ⊢
  rcases o with ⟨x, m⟩
  -- The step that is left takes the entry off the stack.
  cases x with
  | ok a => exact hscript.tail rfl
  | error e => exact hscript.tail rfl

/-- A question that is asked innermost is answered in some steps, as it is by the resolver. -/
theorem steps_enter {fuel : Nat} {s : Progress α} {i : Nat} (hroom : r.Room fuel s.stack)
    (hs : s.step r = some (s.enter r i)) :
    r.Steps s ({ s with memory := (outcome (r.visible fuel s.stack i) s.memory).2 }.receive
      (outcome (r.visible fuel s.stack i) s.memory).1) := by
  -- The resolver that is followed has fuel; there is some left for every call that can begin.
  induction fuel generalizing s i with
  | zero =>
    rcases hroom.exists_fuel with ⟨rest, hrest⟩
    omega
  | succ fuel ih =>
    have hfirst : r.Steps s (s.enter r i) := .single hs
    rw [outcome_visible]
    unfold Progress.enter at hfirst
    cases hlookup : s.memory.answers.lookup i with
    | some answer => simpa only [hlookup] using hfirst
    | none =>
      simp only [hlookup] at hfirst
      by_cases hstack : i ∈ s.stack
      · simpa only [List.contains_iff_mem.2 hstack, if_true] using hfirst
      · have hcontains : s.stack.contains i = false := by simpa using hstack
        simp only [hcontains, Bool.false_eq_true, if_false] at hfirst ⊢
        cases hp : r.properties[i]? with
        | none => simpa only [hp] using hfirst
        | some p =>
          simp only [hp] at hfirst
          have hi : i < r.properties.length := (List.getElem?_eq_some_iff.1 hp).1
          -- What the condition asks for is answered with the entry on the stack.
          have hinner : r.AnswersAt (r.visible fuel (i :: s.stack)) fun c m => s.within i c m :=
            fun j next m => ih (s := s.within i (.ask j next) m) (hroom.push hstack hi) rfl
          have hcall := hfirst.trans (steps_within hinner (r.conditionScript p.condition))
          dsimp only
          generalize outcome ((r.conditionScript p.condition).run (r.visible fuel (i :: s.stack)))
            s.memory = o at hcall ⊢
          rcases o with ⟨x, m⟩
          cases x with
          | ok a => exact hcall
          | error e => exact hcall

/-- A query from which an end is reached has no endless course, as there is one next step at most. -/
theorem acc_of_steps {s t : Progress α} (h : r.Steps s t) (hend : t.step r = none) :
    Acc (fun after before : Progress α => before.step r = some after) s := by
  induction h using Relation.ReflTransGen.head_induction_on with
  | refl =>
    refine ⟨_, ?_⟩
    intro after hafter
    rw [hend] at hafter
    exact absurd hafter (by simp)
  | head hstep _ ih =>
    refine ⟨_, ?_⟩
    intro after hafter
    exact Option.some.inj (hstep.symm.trans hafter) ▸ ih

/-- What a query that has ended leaves. -/
def Inquiry.last (q : Inquiry α) (r : Resolver) (m : Memory) : Progress α :=
  { memory := (outcome (q.answer r) m).2
    query := .ended (outcome (q.answer r) m).1 }

theorem Inquiry.step_last (q : Inquiry α) (m : Memory) : (q.last r m).step r = none := by
  unfold Progress.step Inquiry.last
  cases (outcome (q.answer r) m).1 <;> rfl

/-- With nothing on the stack, a query ends as the resolver says. -/
theorem steps_start {σ : Session} (q : Inquiry α) (hstack : σ.stack = []) :
    r.Steps (q.start r σ) (q.last r σ.memory) := by
  let place : Script α → Memory → Progress α := fun c m => { memory := m, query := c }
  have hanswers : r.AnswersAt r.isVisible place := fun i next m =>
    steps_enter (s := place (.ask i next) m) (room_nil r) rfl
  have hquery := steps_script hanswers (q.script r) σ.memory
  rw [q.run_script] at hquery
  have hstart : q.start r σ = place (q.script r) σ.memory := by
    simp only [Inquiry.start, place, ← hstack]
  rw [hstart]
  exact hquery

/-- After any course of queries that have ended, with answers or with errors, every query has an end,
which it cannot avoid, and leaves the stack empty; the answer or the error, and what is remembered,
are those of the resolver. On the way there the stack holds the entries of the calls that have not
ended, none of them twice, so that calls are nested no deeper than there are entries. -/
theorem nesting_bounded {r : Resolver} {σ : Session} (hσ : r.Held σ) (q : Inquiry α) :
    Acc (fun after before : Progress α => before.step r = some after) (q.start r σ) ∧
      (∀ s, r.Steps (q.start r σ) s →
        s.stack.Nodup ∧ s.stack = s.calls.map Call.entry ∧
          s.calls.length ≤ r.properties.length ∧ (s.step r = none → s.stack = [])) ∧
      ∃ s, r.Steps (q.start r σ) s ∧ s.step r = none ∧
        s.query = .ended (outcome (q.answer r) σ.memory).1 ∧
        s.memory = (outcome (q.answer r) σ.memory).2 := by
  -- The stack that earlier queries leave is the one that the resolver begins with.
  have hempty := hσ.stack_eq_nil
  have hsteps := steps_start (r := r) q hempty
  have hend := q.step_last (r := r) σ.memory
  refine ⟨acc_of_steps hsteps hend, ?_, _, hsteps, hend, rfl, rfl⟩
  intro s hs
  have hsound := (sound_start q hempty).steps hs
  exact ⟨hsound.nodup, hsound.entries, hsound.length_calls_le, hsound.stack_eq_nil⟩

/-- Conditions that lead back to themselves, two properties of one name, and one condition that puts
a number in order with a text. -/
def snarled : Resolver where
  properties := [
    { name := "a", type := "string", condition := some { hideWhen := [("b", .str "1")] } },
    { name := "b", type := "string",
      condition := some { hideWhen := [("a", .str "1"), ("c", .str "1")] } },
    { name := "c", type := "string",
      condition := some
        { showWhen := [("n", .obj [("_cnd", .obj [("gt", .str "x")])])] } },
    { name := "a", type := "string", condition := some { showWhen := [("a", .str "1")] } }]
  config := [("a", .str "1"), ("b", .str "1"), ("c", .str "1"), ("n", .int 5)]

/-- The first query is left without an answer three calls deep, and the next one goes by the same
conditions. -/
theorem snarled_bounded :
    (outcome (snarled.isNameVisible "a") {}).1 = .error .unorderedOperand ∧
      ∃ σ, snarled.Held σ ∧ σ.memory = (outcome (snarled.isNameVisible "a") {}).2 ∧
        Acc (fun after before : Progress (List Property) => before.step snarled = some after)
          (Inquiry.visible.start snarled σ) ∧
        ∀ s, snarled.Steps (Inquiry.visible.start snarled σ) s →
          s.stack.Nodup ∧ s.calls.length ≤ 4 ∧ (s.step snarled = none → s.stack = []) := by
  let first : Inquiry Bool := .question (.name "a")
  have hheld : snarled.Held (first.last snarled {}).toSession :=
    .asked first .fresh (steps_start first rfl) (first.step_last {})
  have hbounded := nesting_bounded hheld .visible
  refine ⟨by decide +kernel, _, hheld, rfl, hbounded.1, ?_⟩
  intro s hs
  have hon := hbounded.2.1 s hs
  exact ⟨hon.1, hon.2.2⟩

end Ends

end Resolver
end Workflows
