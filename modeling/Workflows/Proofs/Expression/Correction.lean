import Workflows.Proofs.Replacement
import Workflows.Proofs.Validation.Reported

/-!
# Correction — what the corrections of badly written values change

The check of written forms tells four kinds of issues apart. Which one a value has depends on its
place and on few of its traits: of a string on its first character and on whether it holds an
expression, of a resource locator on its value and its mode. A corrected value has no issue itself,
what it holds had the same issue before, and a container that holds it is judged as before. Only a
string that is wrapped in a locator makes a difference: its text gets another key, and it is no
mode any more.

Main definitions:

* `Format.kindAt` — the kind of issue that a value has at a place;
* `Format.Corrects` — the four kinds of corrections, one constructor each;
* `Format.kindAt_corrected`, `Format.kindAt_within`, `Format.kindAt_around` — what is found at, below
  and above a corrected value.
-/

namespace Workflows
namespace Format

/-! ## Strings -/

section Strings

variable {s : String}

/-- A text with the mark in front has the prefix. -/
@[simp] theorem isPrefixed_withMark (s : String) : isPrefixed (withMark s) = true := by
  unfold withMark
  split
  · assumption
  · simp [isPrefixed]

/-- The mark in front makes no difference to whether a text contains expressions. -/
@[simp] theorem marksExpression_withMark (s : String) :
    marksExpression (withMark s) = marksExpression s := by
  unfold withMark
  split
  · rfl
  · simp [marksExpression, Text.occursIn]

/-- The names of modes hold no expressions. -/
theorem not_mem_locatorModes (h : marksExpression s = true) : locatorModes.contains s = false := by
  have hall : ∀ m ∈ locatorModes, marksExpression m = false := by decide
  rw [Bool.eq_false_iff, ne_eq, List.contains_iff_mem]
  intro hmem
  rw [hall s hmem] at h
  cases h

end Strings

/-! ## Kinds of issues -/

variable {locators : List String} {place p q r : Place} {kind : FormatKind} {v w new : Value}

/-- The locator that a string is asked to be at a place, if it is one of the parameters that are
locators. -/
def topLocator? (locators : List String) (place : Place) : Option String :=
  (topKey? ⟨place.fieldPath, place.getLast?, .null⟩).filter locators.contains

def issueOf (locators : List String) (place : Place) (v : Value) :
    Except EvalError (Option FormatIssue) :=
  checkVisit locators ⟨place.fieldPath, place.getLast?, v⟩

def kindAt (locators : List String) (place : Place) (v : Value) :
    Except EvalError (Option FormatKind) :=
  (issueOf locators place v).map (Option.map FormatIssue.kind)

/-- The kind of issue that a locator with a value and a mode has. -/
def locatorKind (value mode : Option Value) : Except EvalError (Option FormatKind) :=
  match value with
  | none => .ok (some .badLocator)
  | some inner =>
    match knownMode (mode.getD .null) with
    | .error e => .error e
    | .ok false => .ok (some .badLocator)
    | .ok true =>
      .ok (if hasExpression inner ∧ mode.bind Value.str? ≠ some "expression" then some .mixedFormat
        else none)

/-- The issue of a text at a place, which depends on whether the place is that of a locator. -/
theorem issueOf_str (locators : List String) (place : Place) (s : String) :
    issueOf locators place (.str s) =
      match topLocator? locators place with
      | some key =>
        .ok (if marksExpression s then some (needsLocator place.fieldPath key s) else none)
      | none => .ok (checkValue place.fieldPath (.str s)) := rfl

/-- The issue of an object, which has one only as a locator. -/
theorem issueOf_obj (locators : List String) (place : Place) (fields : Entries Value) :
    issueOf locators place (.obj fields) =
      if isLocator fields then checkLocator place.fieldPath fields else .ok none := rfl

/-- The kind of the issue of a text. -/
theorem kindAt_str (locators : List String) (place : Place) (s : String) :
    kindAt locators place (.str s) =
      .ok (if marksExpression s then
          if (topLocator? locators place).isSome then some .needsLocator
          else if isPrefixed s then none else some .missingPrefix
        else none) := by
  rw [kindAt, issueOf_str]
  cases topLocator? locators place with
  | some key => cases marksExpression s <;> rfl
  | none => cases hmarks : marksExpression s <;> cases hfront : isPrefixed s <;>
      simp [checkValue, hmarks, hfront, Except.map, missingPrefix]

/-- The known modes are texts. -/
theorem of_knownMode {mode : Option Value} (h : knownMode (mode.getD .null) = .ok true) :
    ∃ m, mode = some (.str m) ∧ locatorModes.contains m = true := by
  cases mode with
  | none => simp [knownMode] at h
  | some value =>
    cases value with
    | str m => exact ⟨m, rfl, Except.ok.inj h⟩
    | _ => simp [knownMode] at h

/-- The kind of the issue of a locator depends on its value and its mode. -/
theorem kind_checkLocator (path : String) (fields : Entries Value) :
    (checkLocator path fields).map (Option.map FormatIssue.kind) =
      locatorKind (fields.get? "value") (fields.get? "mode") := by
  unfold checkLocator locatorKind
  cases fields.get? "value" with
  | none => rfl
  | some inner =>
    dsimp only
    cases hmode : knownMode ((fields.get? "mode").getD .null) with
    | error e => rfl
    | ok known =>
      cases known with
      | false => rfl
      | true =>
        rcases of_knownMode hmode with ⟨m, hm, -⟩
        cases inner with
        | str s =>
          cases hmarks : marksExpression s <;> by_cases hname : m = "expression" <;>
            simp [hm, hmarks, hname, hasExpression, Value.str?, Except.map, mixedLocator]
        | _ => simp [hm, hasExpression, Except.map]

/-- The kind of the issue of an object. -/
theorem kindAt_obj (locators : List String) (place : Place) (fields : Entries Value) :
    kindAt locators place (.obj fields) =
      if isLocator fields then locatorKind (fields.get? "value") (fields.get? "mode")
      else .ok none := by
  rw [kindAt, issueOf_obj]
  split
  · exact kind_checkLocator _ _
  · rfl

/-- A locator of this mode has no issue, whatever its value is. -/
theorem locatorKind_expression (inner : Value) :
    locatorKind (some inner) (some (.str "expression")) = .ok none := by
  have hmode : knownMode (.str "expression") = .ok true := rfl
  simp [locatorKind, hmode, Value.str?]

/-- A locator whose value is no expression has no issue under any known mode. -/
theorem locatorKind_of_not_hasExpression {inner mode : Value} (hinner : hasExpression inner = false)
    (hmode : knownMode mode = .ok true) : locatorKind (some inner) (some mode) = .ok none := by
  simp [locatorKind, hmode, hinner]

/-- A locator has no new issue from a value that is an expression only if the old one was. -/
theorem locatorKind_of_hasExpression {mode : Option Value}
    (h : hasExpression w = true → hasExpression v = true) :
    locatorKind (some w) mode = .ok none ∨ locatorKind (some w) mode = locatorKind (some v) mode := by
  unfold locatorKind
  dsimp only
  cases knownMode (mode.getD .null) with
  | error e => exact .inr rfl
  | ok known =>
    cases known with
    | false => exact .inr rfl
    | true =>
      cases hw : hasExpression w with
      | false => exact .inl (by simp)
      | true => exact .inr (by simp [h hw])

/-- All modes that are not known are alike. -/
theorem locatorKind_of_unknown {inner : Value} (hsame : knownMode w = knownMode v)
    (hunknown : knownMode v ≠ .ok true) :
    locatorKind (some inner) (some w) = locatorKind (some inner) (some v) := by
  unfold locatorKind
  simp only [Option.getD_some, hsame]
  cases hmode : knownMode v with
  | error e => rfl
  | ok known =>
    cases known with
    | false => rfl
    | true => exact absurd hmode hunknown

/-- A string without an expression has no issue. -/
theorem kindAt_of_not_marked {s : String} (h : marksExpression s = false) :
    kindAt locators place (.str s) = .ok none := by
  rw [kindAt_str, h]
  rfl

/-- With the mark in front a string has no issue but the one that it had before. -/
theorem kindAt_withMark (locators : List String) (place : Place) (s : String) :
    kindAt locators place (.str (withMark s)) = .ok none ∨
      kindAt locators place (.str (withMark s)) = kindAt locators place (.str s) := by
  rw [kindAt_str, kindAt_str, marksExpression_withMark, isPrefixed_withMark]
  cases marksExpression s <;> cases (topLocator? locators place).isSome <;> simp

/-! ## Kinds of corrections -/

def keptValue (fields : Entries Value) : Value :=
  let inner := (fields.get? "value").getD .null
  if inner.isNull then .str "" else inner

def keptMode (fields : Entries Value) : String :=
  if hasExpression ((fields.get? "value").getD .null) then "expression" else "id"

/-- How a value with an issue at a place is corrected. -/
inductive Corrects (locators : List String) (place : Place) : Value → FormatKind → Value → Prop
  | marked {s : String} (hmarks : marksExpression s = true)
      (htop : topLocator? locators place = none) :
      Corrects locators place (.str s) .missingPrefix (.str (withMark s))
  | wrapped {s : String} (hmarks : marksExpression s = true)
      (htop : (topLocator? locators place).isSome = true) :
      Corrects locators place (.str s) .needsLocator (locator s)
  | rebuilt {fields : Entries Value} (hlocator : isLocator fields = true) :
      Corrects locators place (.obj fields) .badLocator
        (.obj [("__rl", .bool true), ("value", keptValue fields), ("mode", .str (keptMode fields))])
  | switched {fields : Entries Value} {s : String} (hlocator : isLocator fields = true)
      (hvalue : fields.get? "value" = some (.str s)) :
      Corrects locators place (.obj fields) .mixedFormat
        (.obj ((fields.put "value" (.str (withMark s))).put "mode" (.str "expression")))

/-- What is proposed for a locator corrects it. -/
theorem corrects_of_checkLocator {fields : Entries Value} {path : String} {f : FormatIssue}
    (hlocator : isLocator fields = true) (h : checkLocator path fields = .ok (some f)) :
    Corrects locators place (.obj fields) f.kind f.corrected := by
  have hbad : badLocator path fields = f →
      Corrects locators place (.obj fields) f.kind f.corrected := by
    rintro rfl
    exact .rebuilt hlocator
  unfold checkLocator at h
  split at h
  · exact hbad (by simpa using h)
  · rename_i inner hinner
    dsimp only at h
    split at h
    · cases h
    · exact hbad (by simpa using h)
    · split at h
      · rename_i s m _
        split at h
        · have hf : mixedLocator path s m fields = f := by simpa using h
          rw [← hf]
          exact .switched hlocator hinner
        · simp at h
      · simp at h

/-- What is proposed for a value corrects it. -/
theorem corrects_of_issueOf {f : FormatIssue} (h : issueOf locators place v = .ok (some f)) :
    Corrects locators place v f.kind f.corrected := by
  cases v with
  | str s =>
    rw [issueOf_str] at h
    -- A text is at fault for its mark, and its place tells which correction it gets.
    cases htop : topLocator? locators place with
    | some key =>
      cases hmarks : marksExpression s with
      | false => simp [htop, hmarks] at h
      | true =>
        have hf : needsLocator place.fieldPath key s = f := by simpa [htop, hmarks] using h
        rw [← hf]
        exact .wrapped hmarks (by rw [htop]; rfl)
    | none =>
      cases hmarks : marksExpression s with
      | false => simp [htop, checkValue, hmarks] at h
      | true =>
        cases hfront : isPrefixed s with
        | true => simp [htop, checkValue, hmarks, hfront] at h
        | false =>
          have hf : missingPrefix place.fieldPath s = f := by
            simpa [htop, checkValue, hmarks, hfront] using h
          rw [← hf]
          exact .marked hmarks htop
  | obj fields =>
    rw [issueOf_obj] at h
    cases hlocator : isLocator fields with
    | false => simp [hlocator] at h
    | true =>
      rw [hlocator, if_pos rfl] at h
      exact corrects_of_checkLocator hlocator h
  | _ => cases h

/-- Only strings are wrapped. -/
theorem Corrects.exists_wrapped (h : Corrects locators place v .needsLocator new) :
    ∃ s, v = .str s ∧ new = locator s ∧ marksExpression s = true := by
  cases h with
  | wrapped hmarks _ => exact ⟨_, rfl, rfl, hmarks⟩

/-! ## At the corrected value -/

/-- Other keys make no difference to whether an object is a locator. -/
theorem isLocator_put {fields : Entries Value} {key : String} (u : Value) (hkey : key ≠ "__rl") :
    isLocator (fields.put key u) = isLocator fields := by
  unfold isLocator
  rw [Entries.get?_put_of_ne u fields (Ne.symm hkey)]

/-- A value that has been corrected has no issue. -/
theorem kindAt_corrected (h : Corrects locators place v kind new) :
    kindAt locators place new = .ok none := by
  cases h with
  | @marked s hmarks htop => simp [kindAt_str, htop]
  | @wrapped s hmarks htop =>
    have hlocator : isLocator [("__rl", .bool true), ("value", .str (withMark s)),
        ("mode", .str "expression")] = true := rfl
    rw [locator, kindAt_obj, if_pos hlocator]
    exact locatorKind_expression _
  -- The mode that is kept is chosen by the value, so that the two agree.
  | @rebuilt fields hlocator =>
    have hnew : isLocator [("__rl", .bool true), ("value", keptValue fields),
        ("mode", .str (keptMode fields))] = true := rfl
    rw [kindAt_obj, if_pos hnew]
    change locatorKind (some (keptValue fields)) (some (.str (keptMode fields))) = .ok none
    cases hinner : hasExpression ((fields.get? "value").getD .null) with
    | true =>
      have hmode : keptMode fields = "expression" := if_pos hinner
      rw [hmode]
      exact locatorKind_expression _
    | false =>
      have hmode : keptMode fields = "id" := if_neg (by simp [hinner])
      have hvalue : hasExpression (keptValue fields) = false := by
        unfold keptValue
        dsimp only
        split
        · decide
        · exact hinner
      rw [hmode]
      exact locatorKind_of_not_hasExpression hvalue rfl
  | @switched fields s hlocator hvalue =>
    let switched := (Entries.put "value" (.str (withMark s)) fields).put "mode" (.str "expression")
    have hstill : isLocator switched = true := by
      rw [isLocator_put _ (by decide), isLocator_put _ (by decide), hlocator]
    rw [kindAt_obj, if_pos hstill, Entries.get?_put_self, Entries.get?_put_of_ne _ _ (by decide),
      Entries.get?_put_self]
    exact locatorKind_expression _

/-! ## Below the corrected value -/

/-- What lies within an object lies within one of its entries. -/
theorem at_obj_cons {fields : List (String × Value)} {s : PlaceStep} :
    w.At (s :: p) (.obj fields) ↔ ∃ key u, s = .key key ∧ (key, u) ∈ fields ∧ w.At p u := by
  rw [Value.at_cons]
  constructor
  · intro h
    rcases h with ⟨u, hholds, hw⟩
    rcases Value.holds_obj.1 hholds with ⟨key, rfl, hmem⟩
    exact ⟨key, u, rfl, hmem, hw⟩
  · intro h
    rcases h with ⟨key, u, rfl, hmem, hw⟩
    exact ⟨u, .field hmem, hw⟩

/-- Nothing stands below a string. -/
theorem at_str {s : String} (h : w.At p (.str s)) : p = [] ∧ w = .str s := by
  cases h with
  | here => exact ⟨rfl, rfl⟩
  | within hholds _ => cases hholds

/-- What stands below a corrected value has no issue but the one that it had before, unless a string
that has been wrapped is asked for a locator once more. -/
theorem kindAt_within (h : Corrects locators place v kind new) {s : PlaceStep} (hw : w.At (s :: r) new)
    (hs : s ≠ .key "__rl") :
    kindAt locators (place ++ s :: r) w = .ok none ∨
      (∃ u : Value, u.At (s :: r) v ∧
        kindAt locators (place ++ s :: r) w = kindAt locators (place ++ s :: r) u) ∨
        (kind = .needsLocator ∧ s :: r = [.key "value"] ∧
          (topLocator? locators (place ++ [.key "value"])).isSome = true ∧
          kindAt locators (place ++ s :: r) w = .ok (some .needsLocator)) := by
  -- Nothing is found at a text without a mark, nor can anything lie within it.
  have hplain : ∀ {text : String} {r : Place}, w.At r (.str text) → marksExpression text = false →
      kindAt locators (place ++ s :: r) w = .ok none := by
    intro text r hat hmarks
    rw [(at_str hat).2]
    exact kindAt_of_not_marked hmarks
  cases h with
  | marked => cases (at_str hw).1
  -- The value of the new locator is the text with its mark; it alone may be asked for again.
  | @wrapped text hmarks htop =>
    rcases at_obj_cons.1 hw with ⟨key, u, rfl, hmem, hu⟩
    simp only [List.mem_cons, Prod.mk.injEq, List.not_mem_nil, or_false] at hmem
    rcases hmem with ⟨rfl, rfl⟩ | ⟨rfl, rfl⟩ | ⟨rfl, rfl⟩
    · exact absurd rfl hs
    · obtain ⟨rfl, rfl⟩ := at_str hu
      cases hasked : (topLocator? locators (place ++ [.key "value"])).isSome with
      | true => exact .inr (.inr ⟨rfl, rfl, rfl, by simp [kindAt_str, hasked, hmarks]⟩)
      | false => exact .inl (by simp [kindAt_str, hasked])
    · exact .inl (hplain hu (by decide))
  -- The value is kept as it was, and everything else is made anew.
  | @rebuilt fields hlocator =>
    rcases at_obj_cons.1 hw with ⟨key, u, rfl, hmem, hu⟩
    simp only [List.mem_cons, Prod.mk.injEq, List.not_mem_nil, or_false] at hmem
    rcases hmem with ⟨rfl, rfl⟩ | ⟨rfl, rfl⟩ | ⟨rfl, rfl⟩
    · exact absurd rfl hs
    · unfold keptValue at hu
      dsimp only at hu
      split at hu
      · exact .inl (hplain hu (by decide))
      · rename_i hfilled
        cases hinner : fields.get? "value" with
        | none => simp [hinner, Value.isNull] at hfilled
        | some inner =>
          rw [hinner, Option.getD_some] at hu
          exact .inr (.inl ⟨w, at_obj_cons.2 ⟨"value", inner, rfl, Entries.mem_of_get? hinner, hu⟩,
            rfl⟩)
    · refine .inl (hplain hu ?_)
      unfold keptMode
      split <;> decide
  -- The mode is new, the value has got its mark, and the other fields are those from before.
  | @switched fields text hlocator hvalue =>
    rcases at_obj_cons.1 hw with ⟨key, u, rfl, hmem, hu⟩
    rcases Entries.mem_put hmem with heq | hmem
    · obtain ⟨rfl, rfl⟩ := Prod.mk.inj heq
      exact .inl (hplain hu (by decide))
    · rcases Entries.mem_put hmem with heq | hmem
      · obtain ⟨rfl, rfl⟩ := Prod.mk.inj heq
        obtain ⟨rfl, rfl⟩ := at_str hu
        have hold : (Value.str text).At [.key "value"] (.obj fields) :=
          .within (.field (Entries.mem_of_get? hvalue)) .here
        exact (kindAt_withMark locators _ text).imp_right fun hsame => .inl ⟨_, hold, hsame⟩
      · exact .inr (.inl ⟨w, at_obj_cons.2 ⟨key, u, rfl, hmem, hu⟩, rfl⟩)

/-! ## Above the corrected value -/

/-- A replacement within a value does not change whether the value itself is an expression. -/
theorem hasExpression_replace_cons (v : Value) (s : PlaceStep) (r : Place) (new : Value) :
    hasExpression (v.replace (s :: r) new) = hasExpression v := by
  unfold Value.replace
  split
  · rename_i heq
    cases heq
  · rfl
  · rfl
  · rfl

/-- A replacement within a value does not make it another mode. -/
theorem knownMode_replace_cons (v : Value) (s : PlaceStep) (r : Place) (new : Value) :
    knownMode (v.replace (s :: r) new) = knownMode v := by
  unfold Value.replace
  split
  · rename_i heq
    cases heq
  · rfl
  · rfl
  · rfl

section Around

variable {u x : Value} {s : PlaceStep} (h : Corrects locators place v kind new)

include h

/-- No expression comes about where there has been none. -/
theorem hasExpression_of_replaced (hv : v.At r u) (hnew : hasExpression (u.replace r new) = true) :
    hasExpression u = true := by
  cases r with
  | nil =>
    obtain rfl := Value.at_nil.1 hv
    rw [Value.replace_nil] at hnew
    cases h with
    | marked hmarks _ => exact hmarks
    | wrapped hmarks _ => exact hmarks
    | _ => cases hnew
  | cons s r => rwa [hasExpression_replace_cons] at hnew

/-- What is corrected, or holds what is corrected, is no known mode, before and after. -/
theorem knownMode_of_replaced (hv : v.At r u) (hkind : kind ≠ .needsLocator ∨ r ≠ []) :
    knownMode (u.replace r new) = knownMode u ∧ knownMode u ≠ .ok true := by
  cases r with
  | nil =>
    obtain rfl := Value.at_nil.1 hv
    rw [Value.replace_nil]
    cases h with
    | @marked s hmarks _ =>
      have hold := not_mem_locatorModes hmarks
      have hnew := not_mem_locatorModes ((marksExpression_withMark s).trans hmarks)
      simp only [knownMode, hold, hnew]
      exact ⟨trivial, by simp⟩
    | wrapped _ _ => simp at hkind
    | rebuilt _ => exact ⟨rfl, by simp [knownMode]⟩
    | switched _ _ => exact ⟨rfl, by simp [knownMode]⟩
  | cons s r =>
    refine ⟨knownMode_replace_cons u s r new, ?_⟩
    rcases Value.at_cons.1 hv with ⟨inner, hholds, -⟩
    cases hholds <;> simp [knownMode]

/-- A container around a corrected value has no issue but the one that it had before, unless the
value was the mode of a locator with a value and is wrapped. -/
theorem kindAt_around (hkeys : x.Keyed) (hv : v.At (s :: r) x) (hs : s ≠ .key "__rl")
    (hmode : kind = .needsLocator → s :: r = [.key "mode"] → ∀ fields : Entries Value,
      x = .obj fields → isLocator fields = true → fields.get? "value" = none) :
    kindAt locators p (x.replace (s :: r) new) = .ok none ∨
      kindAt locators p (x.replace (s :: r) new) = kindAt locators p x := by
  rcases Value.at_cons.1 hv with ⟨u, hholds, hu⟩
  cases hholds with
  | item hitem => exact .inl rfl
  | @field fields key hfield =>
    have hget : Entries.get? key fields = some u :=
      Entries.get?_of_mem (hkeys [] fields .here) hfield
    have hnew : (Value.obj fields).replace (.key key :: r) new =
        .obj (Entries.alter key (fun v => v.replace r new) fields) := rfl
    have hlocator : isLocator (Entries.alter key (fun v => v.replace r new) fields) =
        isLocator fields := by
      have hkey : "__rl" ≠ key := fun heq => hs (by rw [heq])
      unfold isLocator
      rw [Entries.get?_alter_of_ne hkey]
    rw [hnew, kindAt_obj, kindAt_obj, hlocator]
    cases hmarked : isLocator fields with
    | false => exact .inl rfl
    | true =>
      rw [if_pos rfl, if_pos rfl]
      by_cases hvalue : key = "value"
      · -- The mode is what it was, and the value matters only if it is an expression.
        subst hvalue
        rw [Entries.get?_alter_self, Entries.get?_alter_of_ne (by decide), hget, Option.map_some]
        exact locatorKind_of_hasExpression (hasExpression_of_replaced h hu)
      · have hvalue' : "value" ≠ key := Ne.symm hvalue
        by_cases hname : key = "mode"
        · subst hname
          rw [Entries.get?_alter_self, Entries.get?_alter_of_ne hvalue', hget, Option.map_some]
          cases hinner : Entries.get? "value" fields with
          | none => exact .inr rfl
          | some inner =>
            have hkind : kind ≠ .needsLocator ∨ r ≠ [] := by
              by_contra hboth
              simp only [ne_eq, not_or, not_not] at hboth
              have hnone := hmode hboth.1 (by rw [hboth.2]) fields rfl hmarked
              rw [hnone] at hinner
              cases hinner
            rcases knownMode_of_replaced h hu hkind with ⟨hsame, hunknown⟩
            exact .inr (locatorKind_of_unknown hsame hunknown)
        · rw [Entries.get?_alter_of_ne hvalue', Entries.get?_alter_of_ne (Ne.symm hname)]
          exact .inr rfl

end Around

/-- The keys of a locator are distinct. -/
theorem distinct_locator (mark inner mode : Value) :
    Entries.Distinct [("__rl", mark), ("value", inner), ("mode", mode)] := by
  simp [Entries.Distinct, Entries.keys]

/-- A corrected value has no key twice if the old one has none. -/
theorem Corrects.keyed (h : Corrects locators place v kind new) (hv : v.Keyed) : new.Keyed := by
  cases h with
  | marked _ _ => exact Value.keyed_str _
  | wrapped _ _ =>
    refine Value.keyed_obj_iff.2 ⟨distinct_locator _ _ _, ?_⟩
    simp [Value.keyed_str, Value.keyed_bool]
  | @rebuilt fields _ =>
    have hinner : (keptValue fields).Keyed := by
      unfold keptValue
      dsimp only
      cases hvalue : fields.get? "value" with
      | none => exact Value.keyed_str ""
      | some inner =>
        rw [Option.getD_some]
        split
        · exact Value.keyed_str ""
        · exact (Value.keyed_obj_iff.1 hv).2 _ (Entries.mem_of_get? hvalue)
    refine Value.keyed_obj_iff.2 ⟨distinct_locator _ _ _, ?_⟩
    simp [Value.keyed_str, Value.keyed_bool, hinner]
  | @switched fields s _ _ =>
    rcases Value.keyed_obj_iff.1 hv with ⟨hkeys, hinner⟩
    refine Value.keyed_obj_iff.2 ⟨(hkeys.put _ _).put _ _, ?_⟩
    intro e he
    rcases Entries.mem_put he with rfl | he
    · exact Value.keyed_str _
    · rcases Entries.mem_put he with rfl | he
      · exact Value.keyed_str _
      · exact hinner e he

end Format
end Workflows
