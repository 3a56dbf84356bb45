import Workflows.Proofs.Visibility.Lasting

/-!
# Absent — what conditions say of parameters that are absent

A parameter that is absent is no value, so no entry of an allow-list should match it. The entries
that are values do not, and of the operators of a condition none holds of it. But a condition
without operators holds of anything, since there is none that fails. So an allow-list matches an
absent parameter just if one of its entries is such a condition.

A property that is shown for an allow-list of an absent parameter, or of a hidden one, is therefore
hidden, unless the list has such an entry. This is so after any course of questions, with or without
answers, and whether or not conditions lead back to themselves.

In the other direction, all operators have to hold of one of the items of a list, so that the empty
list has not even the property to exist.

Main definitions:

* `Allowed.hasEmptyCondition` — an entry of the allow-list is a condition without operators;
* `Resolver.Lacks` — a condition finds nothing under a name;
* `Resolver.hidden_of_lacks`, `Resolver.absence_hides_iff`.
-/

namespace Workflows
namespace Allowed

/-- The condition that asks whether a parameter exists. -/
def existing : Value :=
  .obj [("_cnd", .obj [("exists", .bool true)])]

/-- Whether an entry of the allow-list is a condition without operators: an object without entries,
or what counts as absent in its place. -/
def hasEmptyCondition (allowed : Value) : Bool :=
  (entries allowed).any fun entry => (condition? entry).any fun c => !c.isPresent

/-! ## Nothing -/

/-- No operator holds of what is absent. -/
theorem compare_none (operator : String) (operand : Value) :
    compare none operator operand = .ok false := by
  unfold compare
  split <;> rfl

theorem allHold_none (operators : Entries Value) :
    allHold none operators = .ok operators.isEmpty := by
  cases operators with
  | nil => rfl
  | cons e rest =>
    rcases e with ⟨operator, operand⟩
    simp only [allHold, compare_none, List.isEmpty_cons]

/-- What is no object has to count as absent, or there is no answer. -/
theorem holdsForSome_of_not_obj {c : Value} (hc : c.obj? = none) (value : Option Value) :
    holdsForSome c [value] = if c.isPresent then .error .conditionsNotObject else .ok true := by
  cases c with
  | obj operators => cases hc
  | _ =>
    simp only [holdsForSome]
    split <;> simp_all

theorem holdsForSome_none {c : Value} {b : Bool} (h : holdsForSome c [none] = .ok b) :
    b = !c.isPresent := by
  cases hobj : c.obj? with
  | some operators =>
    cases c with
    | obj operators =>
      simp only [holdsForSome, allHold_none] at h
      cases operators <;> exact (Except.ok.inj h).symm
    | _ => cases hobj
  | none =>
    rw [holdsForSome_of_not_obj hobj] at h
    cases hpresent : c.isPresent with
    | true => simp [hpresent] at h
    | false => simpa [hpresent] using h.symm

theorem entryAllows_none {entry : Value} {b : Bool} (h : entryAllows none entry = .ok b) :
    b = (condition? entry).any fun c => !c.isPresent := by
  unfold entryAllows at h
  cases hcondition : condition? entry with
  | none =>
    rw [hcondition] at h
    exact (Except.ok.inj h).symm
  | some c =>
    rw [hcondition] at h
    exact holdsForSome_none h

theorem someAllows_none {es : List Value} {b : Bool} (h : someAllows none es = .ok b) :
    b = es.any fun entry => (condition? entry).any fun c => !c.isPresent := by
  induction es with
  | nil => exact (Except.ok.inj h).symm
  | cons entry rest ih =>
    simp only [someAllows] at h
    cases hentry : entryAllows none entry with
    | error e => simp [hentry] at h
    | ok first =>
      rw [List.any_cons, ← entryAllows_none hentry]
      rw [hentry] at h
      cases first with
      | true => exact (Except.ok.inj h).symm
      | false => simpa using ih h

/-- An allow-list matches an absent parameter just if one of its conditions has no operators. -/
theorem allows_none {allowed : Value} {b : Bool} (h : allows none allowed = .ok b) :
    b = hasEmptyCondition allowed :=
  someAllows_none h

/-! ## The empty list -/

theorem holdsForSome_existing (items : List Value) :
    holdsForSome (.obj [("exists", .bool true)]) (items.map some) = .ok !items.isEmpty := by
  cases items with
  | nil => rfl
  | cons v rest => rfl

/-- Every value exists but the empty list, none of whose items does. -/
theorem allows_existing_iff {v : Value} : allows (some v) existing = .ok true ↔ v ≠ .arr [] := by
  cases v with
  | arr items =>
    have hentry : entryAllows (some (.arr items)) existing = .ok !items.isEmpty :=
      holdsForSome_existing items
    have hallows : allows (some (.arr items)) existing =
        someAllows (some (.arr items)) [existing] := rfl
    rw [hallows, someAllows, hentry]
    cases items <;> simp [someAllows]
  | _ => exact iff_of_true rfl (by simp)

end Allowed

namespace Resolver

variable {r : Resolver} {m m' : Memory} {i : Nat} {p : Property} {c : Condition} {b : Bool}

/-! ## Hidden properties -/

/-- A condition finds nothing under a name: there is no version, or the parameter is not set, or it
is one of the type's and none of its properties applies. -/
inductive Lacks (r : Resolver) (m : Memory) (name : String) : Prop
  | version (hname : name = versionKey) (h : r.typeVersion = none)
  | unset (hname : name ≠ versionKey) (h : r.config.get? name = none)
  | null (hname : name ≠ versionKey) (h : r.config.get? name = some .null)
  | hidden (hname : name ≠ versionKey) (h : (outcome (r.isNameVisible name) m).1 = .ok false)

/-- What is not found in the end was not found before. -/
theorem Lacks.plainValue_eq {earlier : Memory} {name : String} (h : r.Lacks m name)
    (hm : m.Grounded r []) (hearlier : earlier.Extends m) :
    r.plainValue earlier.positive name = none := by
  unfold plainValue
  cases h with
  | version hname h => rw [if_pos hname, h, Option.map_none]
  | unset hname h => rw [if_neg hname, h]
  | null hname h => rw [if_neg hname, h]
  | hidden hname h =>
    rw [if_neg hname]
    -- No property of the name has a positive answer after the question, so none had one before.
    have hlasts := r.lasting_isNameVisible name m hm
    have hvalue := hlasts.result false h _ hlasts.grounded (.refl _)
    have hnone : r.positions name ≠ [] ∧
        ∀ j ∈ r.positions name, (outcome (r.isNameVisible name) m).2.positive j = false := by
      simpa using hvalue
    have hbefore : ∀ j ∈ r.positions name, earlier.positive j = false := by
      intro j hj
      refine Bool.eq_false_iff.2 ?_
      intro hpositive
      have hafter := (hearlier.trans hlasts.kept).positive hpositive
      rw [hnone.2 j hj] at hafter
      cases hafter
    split
    · rfl
    · rfl
    · exact if_pos ⟨hnone.1, hbefore⟩

/-- A property that is shown for an allow-list under a name where nothing is found is hidden, unless
a condition in the list has no operators. -/
theorem hidden_of_lacks (hm : r.Reached m) (hp : r.properties[i]? = some p)
    (hc : p.condition = some c) {e : String × Value} (he : e ∈ c.showWhen)
    (hanswer : outcome (r.isVisible i) m = (.ok b, m')) (hlacks : r.Lacks m' e.1)
    (hempty : Allowed.hasEmptyCondition e.2 = false) : b = false := by
  have hlasts := r.lasting_isVisible i m hm.grounded
  rw [hanswer] at hlasts
  cases b with
  | false => rfl
  | true =>
    have hpositive : m'.positive i = true :=
      Except.ok.inj (hlasts.result true rfl m' hlasts.grounded (.refl m'))
    rcases hlasts.grounded.grounds i p (Memory.positive_iff.1 hpositive) hp with
      ⟨earlier, hearlier, happlies⟩
    -- When the answer was given, the list matched what was found, which was nothing.
    have hmatched := (happlies c hc).1 e he
    rw [hlacks.plainValue_eq hlasts.grounded hearlier] at hmatched
    have hcondition := Allowed.allows_none hmatched
    rw [hempty] at hcondition
    cases hcondition

/-- Whatever has been asked of whichever resolver, a property that is shown for the allow-list under
a name where nothing is found is hidden, if it is answered at all. -/
def HidesUnfound (allowed : Value) : Prop :=
  ∀ (r : Resolver) (m m' : Memory) (i : Nat) (p : Property) (c : Condition) (name : String)
    (b : Bool), r.Reached m → r.properties[i]? = some p → p.condition = some c →
    (name, allowed) ∈ c.showWhen → outcome (r.isVisible i) m = (.ok b, m') → r.Lacks m' name →
      b = false

/-- A property that is shown for an allow-list of a parameter that is not set. -/
def gated (allowed : Value) : Resolver where
  properties :=
    [{ name := "body", type := "string", condition := some { showWhen := [("mode", allowed)] } }]
  config := []

theorem conditionScript_gated {allowed : Value} (h : Allowed.allows none allowed = .ok b) :
    (gated allowed).conditionScript (some { showWhen := [("mode", allowed)] }) = .done b := by
  have hsibling : (gated allowed).siblingScript "mode" = .done none := rfl
  have hallows : allowsScript none allowed = .done b := by
    unfold allowsScript
    rw [h]
  simp only [conditionScript, allMatchScript, hsibling, Script.bind, hallows]
  cases b <;> rfl

theorem outcome_gated {allowed : Value} (h : Allowed.allows none allowed = .ok b) :
    ∃ m, outcome ((gated allowed).isVisible 0) {} = (.ok b, m) := by
  have hverdict : ({} : Memory).verdict 0 b = b := by simp [Memory.verdict]
  have hcondition : (gated allowed).Eval [0] (.done b) {} b {} := .done
  rw [← conditionScript_gated h] at hcondition
  have heval : (gated allowed).Eval [] (.ask 0 .done) {} (({} : Memory).verdict 0 b) _ :=
    .settled rfl List.not_mem_nil rfl hcondition .done
  rw [hverdict] at heval
  exact ⟨_, outcome_isVisible_of_eval heval⟩

theorem not_hidesUnfound {allowed : Value} (h : Allowed.allows none allowed = .ok true) :
    ¬ HidesUnfound allowed := by
  intro hhides
  rcases outcome_gated h with ⟨m, hvisible⟩
  have hfalse : true = false :=
    hhides (gated allowed) {} m 0 _ _ "mode" true .fresh rfl rfl List.mem_cons_self hvisible
      (.unset (by decide) rfl)
  cases hfalse

/-- An allow-list that has a verdict on an absent parameter does not match it just if each of its
conditions has operators. Just then, too, it hides every property that is shown for it alone, while
the parameter is not set or hidden, in every course of questions. A present value passes the test
whether it exists just if it is not the empty list. -/
theorem absence_hides_iff {allowed : Value} (h : Allowed.allows none allowed = .ok b) :
    (b = false ↔ Allowed.hasEmptyCondition allowed = false) ∧
      (HidesUnfound allowed ↔ Allowed.hasEmptyCondition allowed = false) ∧
      ∀ v, Allowed.allows (some v) Allowed.existing = .ok true ↔ v ≠ .arr [] := by
  have hverdict : b = Allowed.hasEmptyCondition allowed := Allowed.allows_none h
  have hhidden : HidesUnfound allowed ↔ Allowed.hasEmptyCondition allowed = false := by
    constructor
    · intro hhides
      refine Bool.eq_false_iff.2 ?_
      intro hempty
      rw [hempty] at hverdict
      exact not_hidesUnfound (hverdict ▸ h) hhides
    · intro hempty r m m' i p c name b hm hp hc he hanswer hlacks
      exact hidden_of_lacks hm hp hc he hanswer hlacks hempty
  refine ⟨?_, hhidden, ?_⟩
  · rw [hverdict]
  · intro v
    exact Allowed.allows_existing_iff

/-- A list of a value and a condition hides what is shown for it, as long as nothing is set. -/
theorem absence_hides_json :
    Allowed.allows none (.arr [.str "json", Allowed.existing]) = .ok false ∧
      HidesUnfound (.arr [.str "json", Allowed.existing]) ∧
      (outcome ((gated (.arr [.str "json", Allowed.existing])).isVisible 0) {}).1 = .ok false := by
  have hverdict : Allowed.allows none (.arr [.str "json", Allowed.existing]) = .ok false := by
    decide +kernel
  exact ⟨hverdict, (absence_hides_iff hverdict).2.1.2 (by decide +kernel), by decide +kernel⟩

/-- A condition without operators matches what is absent, and shows a property for a parameter that
is not set; and the empty list does not exist. -/
theorem empty_condition_matches_absent :
    Allowed.allows none (.obj [("_cnd", .obj [])]) = .ok true ∧
      ¬ HidesUnfound (.obj [("_cnd", .obj [])]) ∧
      Allowed.allows (some (.arr [])) Allowed.existing = .ok false := by
  have hverdict : Allowed.allows none (.obj [("_cnd", .obj [])]) = .ok true := by decide +kernel
  exact ⟨hverdict, not_hidesUnfound hverdict, by decide +kernel⟩

end Resolver
end Workflows
