import Mathlib.Data.Option.Basic
import Workflows.Proofs.Assignment

/-!
# InPlace — assignments in an object that stays

An assignment fails where something on its way is neither an object nor null. Objects are made on
the way only where nothing can be in the way any more, so an assignment that fails has not changed
anything. If it is possible, what has been assigned is read again, and what is read elsewhere stays.
Assignments at the ends of ways that part can be made in either order, but new entries stand in the
order in which they were made.

Main definitions:

* `Value.Blocked` — something on a way is in the way of assignments;
* `Value.Reordered` — values that differ in the order of their entries only;
* `Value.reordered_assignAt` — two assignments in either order;
* `DottedPath.store_eq` — what an assignment leaves of an object that stays;
* `DottedPath.store_lawful` — the laws of assignments by dotted paths.
-/

namespace Workflows
namespace Value

variable {p q rest : List String} {v v' w x y : Value} {key other : String} {es : Entries Value}

/-! ## What is in the way -/

def Blocked (p : List String) (v : Value) : Prop :=
  ∃ u, readAt p v = some u ∧ u.fields? = none

/-- A value has no fields if it is neither null nor an object. -/
theorem fields?_eq_none_iff : v.fields? = none ↔ v ≠ .null ∧ v.obj? = none := by
  cases v <;> simp [fields?, obj?]

/-- At the value itself an assignment below it is blocked if it has no fields. -/
theorem blocked_nil : Blocked [] v ↔ v.fields? = none := by
  simp [Blocked, readAt]

/-- Null is in no one's way. -/
theorem not_blocked_null : ¬ Blocked p .null := by
  intro h
  rcases h with ⟨u, hu, hfields⟩
  cases p with
  | nil =>
    obtain rfl : Value.null = u := Option.some.inj hu
    cases hfields
  | cons key rest => cases hu

/-- What is blocked below the first key is blocked by what is found there. -/
theorem blocked_cons (h : v.fields? = some es) :
    Blocked (key :: rest) v ↔ Blocked rest ((es.get? key).getD .null) := by
  rw [Blocked, readAt_cons_fields h]
  cases es.get? key with
  | none => simpa using not_blocked_null
  | some u => rfl

/-- An assignment is not possible just if something before the end of its way is in the way. -/
theorem assignAt_eq_none_iff : assignAt p x v = none ↔ ∃ n < p.length, Blocked (p.take n) v := by
  induction p generalizing v with
  | nil => simp [assignAt]
  | cons key rest ih =>
    cases hes : v.fields? with
    | none =>
      -- The value itself is in the way, at the end of no key at all.
      have hnone : assignAt (key :: rest) x v = none := by rw [assignAt, hes, Option.bind_none]
      simp only [hnone, true_iff]
      exact ⟨0, Nat.succ_pos _, blocked_nil.2 hes⟩
    | some es =>
      rw [assignAt_cons hes, Option.map_eq_none_iff, ih]
      constructor
      · intro h
        rcases h with ⟨n, hn, hblocked⟩
        exact ⟨n + 1, Nat.succ_lt_succ hn, (blocked_cons hes).2 hblocked⟩
      · intro h
        rcases h with ⟨n, hn, hblocked⟩
        cases n with
        | zero => simp [blocked_nil.1 hblocked] at hes
        | succ n => exact ⟨n, Nat.lt_of_succ_lt_succ hn, (blocked_cons hes).1 hblocked⟩

/-! ## The order of entries -/

/-- The same value, apart from the order of the entries in objects: neighbours with different keys
change places, in the value itself or further in. -/
inductive Reordered : Value → Value → Prop
  | refl (v : Value) : Reordered v v
  | swap {front back : Entries Value} {key other : String} {u w : Value} (hne : key ≠ other) :
      Reordered (.obj (front ++ (key, u) :: (other, w) :: back))
        (.obj (front ++ (other, w) :: (key, u) :: back))
  | entry {es : Entries Value} {key : String} {u w : Value} (h : Reordered u w) :
      Reordered (.obj (es.put key u)) (.obj (es.put key w))
  | trans {u v w : Value} (h : Reordered u v) (h' : Reordered v w) : Reordered u w

/-- Two entries of different keys can change places without any effect on what is found. -/
theorem get?_swap {front back : Entries Value} {u w : Value} (hne : key ≠ other) (name : String) :
    Entries.get? name (front ++ (key, u) :: (other, w) :: back) =
      Entries.get? name (front ++ (other, w) :: (key, u) :: back) := by
  induction front with
  | nil =>
    by_cases hkey : key = name
    · subst hkey
      simp [Entries.get?, Ne.symm hne]
    · simp [Entries.get?, hkey]
  | cons e front ih =>
    rcases e with ⟨k, v⟩
    simp only [List.cons_append, Entries.get?, ih]

theorem rel_refl (o : Option Value) : Option.Rel Reordered o o := by
  cases o with
  | none => exact .none
  | some v => exact .some (.refl v)

theorem rel_trans {a b c : Option Value} (h : Option.Rel Reordered a b)
    (h' : Option.Rel Reordered b c) : Option.Rel Reordered a c := by
  cases h with
  | none => exact h'
  | some hab =>
    cases h' with
    | some hbc => exact .some (hab.trans hbc)

/-- Entries that are put under one key are reordered if the values are. -/
theorem rel_entry {a b : Option Value} (h : Option.Rel Reordered a b) (es : Entries Value)
    (key : String) :
    Option.Rel Reordered (a.map fun u => .obj (es.put key u))
      (b.map fun u => .obj (es.put key u)) := by
  cases h with
  | none => exact .none
  | some hab => exact .some (.entry hab)

/-- In values that differ in the order of entries only the same things are read, apart from the
order of their entries. -/
theorem Reordered.readAt (h : Reordered v w) (p : List String) :
    Option.Rel Reordered (readAt p v) (readAt p w) := by
  induction h generalizing p with
  | refl v => exact rel_refl _
  | swap hne =>
    cases p with
    | nil => exact .some (.swap hne)
    | cons name rest =>
      rw [readAt_cons_fields rfl, readAt_cons_fields rfl, get?_swap hne]
      exact rel_refl _
  | @entry es key u w h ih =>
    cases p with
    | nil => exact .some (.entry h)
    | cons name rest =>
      rw [readAt_cons_fields rfl, readAt_cons_fields rfl]
      by_cases hname : name = key
      · subst hname
        simpa using ih rest
      · rw [Entries.get?_put_of_ne u es hname, Entries.get?_put_of_ne w es hname]
        exact rel_refl _
  | trans _ _ ih ih' => exact rel_trans (ih p) (ih' p)

/-- Two keys can be assigned to in either order. -/
theorem reordered_put (hne : key ≠ other) (u w : Value) (es : Entries Value) :
    Reordered (.obj ((es.put key u).put other w)) (.obj ((es.put other w).put key u)) := by
  cases hkey : es.get? key with
  | some old =>
    rw [Entries.put_comm hkey hne]
    exact .refl _
  | none =>
    cases hother : es.get? other with
    | some old =>
      rw [Entries.put_comm hother (Ne.symm hne)]
      exact .refl _
    | none =>
      -- Both entries are new, so they come last, the second one behind the first.
      have hkey' : (es.put other w).get? key = none := by
        rw [Entries.get?_put_of_ne w es hne, hkey]
      have hother' : (es.put key u).get? other = none := by
        rw [Entries.get?_put_of_ne u es (Ne.symm hne), hother]
      rw [Entries.get?_eq_none_iff] at hkey hother hkey' hother'
      rw [Entries.put_of_not_mem w hother', Entries.put_of_not_mem u hkey,
        Entries.put_of_not_mem u hkey', Entries.put_of_not_mem w hother]
      have hswap : Reordered (.obj (es ++ [(key, u), (other, w)]))
          (.obj (es ++ [(other, w), (key, u)])) := .swap hne
      simpa using hswap

/-- Assignments at the ends of ways that part are possible in both orders or in neither, and differ
in the order of entries only. -/
theorem reordered_assignAt (hpq : Parted p q) (x y v : Value) :
    Option.Rel Reordered ((assignAt p x v).bind (assignAt q y))
      ((assignAt q y v).bind (assignAt p x)) := by
  induction p generalizing q v with
  | nil => exact absurd List.nil_prefix hpq.1
  | cons key rest ih =>
    cases q with
    | nil => exact absurd List.nil_prefix hpq.2
    | cons other rest' =>
      cases hes : v.fields? with
      | none =>
        simp only [assignAt, hes, Option.bind_none]
        exact .none
      | some es =>
        have hobject : ∀ key rest x, assignAt (key :: rest) x v =
            assignAt (key :: rest) x (.obj es) := by
          intro key rest x
          rw [assignAt_cons hes, assignAt_cons rfl]
        rw [hobject, hobject]
        by_cases hkey : key = other
        · -- Both are made within what stands under the key.
          subst hkey
          have hrest : Parted rest rest' := (parted_cons.1 hpq).resolve_left (not_not_intro rfl)
          rw [assignAt_bind_same, assignAt_bind_same]
          exact rel_entry (ih hrest _) es key
        · -- Each is made under a key of its own, and does not see the other one.
          rw [assignAt_bind_other hkey, assignAt_bind_other (Ne.symm hkey)]
          cases assignAt rest x ((es.get? key).getD .null) <;>
            cases assignAt rest' y ((es.get? other).getD .null)
          · exact .none
          · exact .none
          · exact .none
          · exact .some (reordered_put hkey _ _ es)

end Value

/-! ## Objects that stay -/

namespace DottedPath

open Value

variable {path : String} {x y : Value} {key second : String} {ks rest : List String}
  {es es' inner : Entries Value}

/-- How an assignment goes on behind a key that is not the last one. -/
theorem assignKeys_cons :
    assignKeys x (key :: second :: rest) es =
      match ((es.get? key).getD .null).fields? with
      | none => .error 1
      | some inner =>
        match assignKeys x (second :: rest) inner with
        | .ok inner => .ok (es.put key (.obj inner))
        | .error steps => .error (steps + 1) := by
  rcases hu : es.get? key with _ | (_ | _ | _ | _ | _ | _ | _) <;>
    simp only [assignKeys, hu] <;> rfl

/-- An assignment in place leaves the fields that it has made, also when it fails further in. -/
theorem assignInPlace_cons :
    assignInPlace x (key :: second :: rest) es =
      match ((es.get? key).getD .null).fields? with
      | none => (some 1, es)
      | some inner =>
        ((assignInPlace x (second :: rest) inner).1.map (· + 1),
          es.put key (.obj (assignInPlace x (second :: rest) inner).2)) := by
  rcases hu : es.get? key with _ | (_ | _ | _ | _ | _ | _ | _) <;>
    simp only [assignInPlace, hu] <;> rfl

/-- Nothing is in the way in an object without entries. -/
theorem exists_assignKeys_nil (x : Value) (ks : List String) :
    ∃ es', assignKeys x ks [] = .ok es' := by
  induction ks with
  | nil => exact ⟨[], rfl⟩
  | cons key rest ih =>
    cases rest with
    | nil => exact ⟨[(key, x)], rfl⟩
    | cons second rest =>
      rcases ih with ⟨inner, hinner⟩
      exact ⟨[(key, .obj inner)], by simp [assignKeys_cons, fields?, hinner, Entries.put]⟩

/-- An assignment leaves the object that it is to yield, or the one that it began with. -/
theorem assignInPlace_eq (x : Value) (ks : List String) (es : Entries Value) :
    assignInPlace x ks es =
      match assignKeys x ks es with
      | .ok es' => (none, es')
      | .error steps => (some steps, es) := by
  induction ks generalizing es with
  | nil => rfl
  | cons key rest ih =>
    cases rest with
    | nil => rfl
    | cons second rest =>
      rw [assignKeys_cons, assignInPlace_cons]
      cases hfields : ((es.get? key).getD .null).fields? with
      | none => rfl
      | some inner =>
        simp only [ih]
        cases hkeys : assignKeys x (second :: rest) inner with
        | ok inner' => rfl
        | error steps =>
          -- What fails has not been made on the way, so it is put where it stands already.
          have hmade : inner = [] → assignKeys x (second :: rest) inner ≠ .error steps := by
            rintro rfl herror
            rcases exists_assignKeys_nil x (second :: rest) with ⟨es', hes'⟩
            rw [hes'] at herror
            cases herror
          have hthere : es.get? key = some (.obj inner) := by
            cases hu : es.get? key with
            | none => exact absurd hkeys (hmade (by simpa [hu, fields?] using hfields.symm))
            | some u =>
              cases u with
              | null => exact absurd hkeys (hmade (by simpa [hu, fields?] using hfields.symm))
              | obj fields => simpa [hu, fields?] using hfields
              | _ => simp [hu, fields?] at hfields
          simp [Entries.put_get? hthere]

/-- A failing assignment leaves the object as it is. -/
theorem store_eq (path : String) (x : Value) (es : Entries Value) :
    store path x es =
      match assign path x es with
      | .ok es' => (none, es')
      | .error f => (some f, es) := by
  unfold store assign
  cases hempty : (keys path).contains "" with
  | true => simp only [hempty, if_true]
  | false =>
    simp only [hempty, Bool.false_eq_true, if_false, assignInPlace_eq]
    cases assignKeys x (keys path) es <;> rfl

/-- An assignment succeeds if the keys are no empty ones and the value can be assigned there. -/
theorem store_eq_none_iff :
    store path x es = (none, es') ↔
      "" ∉ keys path ∧ assignAt (keys path) x (.obj es) = some (.obj es') := by
  rw [← assign_eq_ok_iff, store_eq]
  cases assign path x es <;> simp

/-- An assignment that does not fail is one at the end of the way. -/
theorem store_fst_eq_none_iff :
    (store path x es).1 = none ↔
      "" ∉ keys path ∧ (assignAt (keys path) x (.obj es)).isSome = true := by
  constructor
  · intro hnone
    have hstore : store path x es = (none, (store path x es).2) := by rw [← hnone]
    obtain ⟨hempty, hassign⟩ := store_eq_none_iff.1 hstore
    exact ⟨hempty, by rw [hassign, Option.isSome_some]⟩
  · intro h
    rcases h with ⟨hempty, hsome⟩
    rcases Option.isSome_iff_exists.1 hsome with ⟨v', hassign⟩
    rcases hkeys : keys path with _ | ⟨key, rest⟩
    · exact absurd hkeys (keys_ne_nil path)
    · rw [hkeys] at hassign
      rcases assignAt_cons_eq_some.1 hassign with ⟨fields, inner, -, -, rfl⟩
      rw [← hkeys] at hassign
      rw [store_eq_none_iff.2 ⟨hempty, hassign⟩]

/-- What is stored is what an assignment by the keys gives. -/
theorem assignAt_of_store (h : (store path x es).1 = none) :
    assignAt (keys path) x (.obj es) = some (.obj (store path x es).2) := by
  have hstore : store path x es = (none, (store path x es).2) := by rw [← h]
  exact (store_eq_none_iff.1 hstore).2

/-- The laws of assignments by a dotted path within an object that stays. -/
structure Lawful (path : String) (x : Value) (es : Entries Value) : Prop where
  /-- An assignment fails where a key is empty, or before the end of the way there is something that
  is neither an object nor null. -/
  fails : (store path x es).1.isSome = true ↔
    "" ∈ keys path ∨ ∃ front u, front <+: keys path ∧ front ≠ keys path ∧
      read? front es = some u ∧ u ≠ .null ∧ u.obj? = none
  unchanged : (store path x es).1.isSome = true → (store path x es).2 = es
  reads : (store path x es).1 = none → read? (keys path) (store path x es).2 = some x
  elsewhere : (store path x es).1 = none →
    ∀ way, Parted way (keys path) → read? way (store path x es).2 = read? way es
  /-- Whether another assignment is possible does not depend on this one. -/
  independent : (store path x es).1 = none → ∀ (other : String) (y : Value),
    Parted (keys path) (keys other) →
      ((store other y (store path x es).2).1 = none ↔ (store other y es).1 = none)
  either : (store path x es).1 = none → ∀ (other : String) (y : Value),
    Parted (keys path) (keys other) → (store other y es).1 = none →
      Reordered (.obj (store other y (store path x es).2).2)
        (.obj (store path x (store other y es).2).2)

/-- An assignment fails at an empty key, or at a value on the way that has no fields. -/
theorem store_fails_iff :
    (store path x es).1.isSome = true ↔
      "" ∈ keys path ∨ ∃ front u, front <+: keys path ∧ front ≠ keys path ∧
        read? front es = some u ∧ u ≠ .null ∧ u.obj? = none := by
  have hfails : (store path x es).1.isSome = true ↔
      "" ∈ keys path ∨ assignAt (keys path) x (.obj es) = none := by
    rw [← Option.ne_none_iff_isSome, Ne, store_fst_eq_none_iff, not_and_or, not_not,
      Bool.not_eq_true, Option.isSome_eq_false_iff, Option.isNone_iff_eq_none]
  have hblocked : assignAt (keys path) x (.obj es) = none ↔
      ∃ front u, front <+: keys path ∧ front ≠ keys path ∧
        read? front es = some u ∧ u ≠ .null ∧ u.obj? = none := by
    rw [assignAt_eq_none_iff]
    constructor
    · intro h
      rcases h with ⟨n, hn, u, hu, hfields⟩
      have hne : (keys path).take n ≠ keys path := by
        intro heq
        have hlength := congrArg List.length heq
        rw [List.length_take] at hlength
        omega
      have hread : read? ((keys path).take n) es = some u := (read?_eq _ _).trans hu
      exact ⟨(keys path).take n, u, List.take_prefix _ _, hne, hread, fields?_eq_none_iff.1 hfields⟩
    · intro h
      rcases h with ⟨front, u, hfront, hne, hread, hblocked⟩
      have hshorter : front.length < (keys path).length := by
        refine Nat.lt_of_le_of_ne hfront.length_le ?_
        intro hlength
        exact hne (hfront.eq_of_length hlength)
      refine ⟨front.length, hshorter, u, ?_, fields?_eq_none_iff.2 hblocked⟩
      rw [← List.prefix_iff_eq_take.1 hfront, ← read?_eq]
      exact hread
  rw [hfails, hblocked]

/-- An assignment elsewhere does not change whether one can be made. -/
theorem store_parted_iff {other : String} (hparted : Parted (keys path) (keys other))
    (h : (store path x es).1 = none) :
    (store other y (store path x es).2).1 = none ↔ (store other y es).1 = none := by
  rw [store_fst_eq_none_iff, store_fst_eq_none_iff,
    isSome_assignAt_parted hparted (assignAt_of_store h)]

/-- Assignments by dotted paths keep to their laws, whatever they are made in. -/
theorem store_lawful (path : String) (x : Value) (es : Entries Value) : Lawful path x es where
  fails := store_fails_iff
  unchanged hfails := by
    rw [store_eq] at hfails ⊢
    cases hassign : assign path x es with
    | ok es' => simp [hassign] at hfails
    | error f => rfl
  reads hnone := by
    rw [read?_eq]
    exact readAt_assignAt_self (assignAt_of_store hnone)
  elsewhere hnone way hparted := by
    rw [read?_eq, read?_eq]
    exact readAt_assignAt_parted hparted (assignAt_of_store hnone)
  independent _ _ _ hparted := store_parted_iff hparted ‹_›
  either hnone other y hparted hother := by
    -- The second assignment is possible in both orders, as neither depends on the other one.
    have hsecond := (store_parted_iff hparted hnone).2 hother
    have hsecond' := (store_parted_iff ⟨hparted.2, hparted.1⟩ hother).2 hnone
    have hswapped := reordered_assignAt hparted x y (.obj es)
    rw [assignAt_of_store hnone, assignAt_of_store hother, Option.bind_some, Option.bind_some,
      assignAt_of_store hsecond, assignAt_of_store hsecond'] at hswapped
    cases hswapped with
    | some hreordered => exact hreordered

-- Two new entries stand in the order in which they are made.
example :
    (store "a.c" .null (store "a.b" .null [("a", .null)]).2).2 =
        [("a", .obj [("b", .null), ("c", .null)])] ∧
      (store "a.b" .null (store "a.c" .null [("a", .null)]).2).2 =
        [("a", .obj [("c", .null), ("b", .null)])] :=
  ⟨rfl, rfl⟩

example :
    store "a.b.c" .null [("a", .obj [("b", .bool true)])] =
      (some (.blocked "a.b.c" "a.b"), [("a", .obj [("b", .bool true)])]) := rfl

end DottedPath
end Workflows
