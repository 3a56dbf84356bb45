import Workflows.Edit.DottedPath
import Workflows.Proofs.Entries

/-!
# Assignment — writing and reading at the ends of ways

A way of keys leads from a value to a value within it. What is assigned at its end is read there
again, and the second of two assignments wins. Of two different ways one leads on from the end of
the other, or they part. If they part, an assignment at the end of one leaves what is read at the
end of the other.

Main statements:

* `Value.assignAt`, `Value.readAt` — assignments and look-ups on values;
* `Value.readAt_assignAt_self`, `Value.assignAt_covered`, `Value.assignAt_append`,
  `Value.readAt_assignAt_parted`, `Value.assignAt_comm` — their laws;
* `DottedPath.assign_eq_ok_iff`, `DottedPath.read?_eq` — dotted paths are such ways.
-/

namespace Workflows
namespace Value

/-- The entries of a value in which something can be assigned: nothing is an object without any. -/
def fields? : Value → Option (Entries Value)
  | .null => some []
  | .obj es => some es
  | _ => none

/-- The value after an assignment at the end of a way, if no value on the way is in the way. -/
def assignAt : List String → Value → Value → Option Value
  | [], x, _ => some x
  | key :: rest, x, v =>
    v.fields?.bind fun es =>
      (assignAt rest x ((es.get? key).getD .null)).map fun inner => .obj (es.put key inner)

def readAt : List String → Value → Option Value
  | [], v => some v
  | key :: rest, v => v.obj?.bind fun es => (es.get? key).bind (readAt rest)

variable {p q w : List String} {v v' x y z : Value} {key : String} {rest : List String}

/-- An assignment under several keys is one under the rest of them within the first one. -/
theorem assignAt_cons {es : Entries Value} (h : v.fields? = some es) :
    assignAt (key :: rest) x v =
      (assignAt rest x ((es.get? key).getD .null)).map fun inner => .obj (es.put key inner) := by
  rw [assignAt, h, Option.bind_some]

/-- An assignment under several keys succeeds if the value has fields and the rest of it
succeeds. -/
theorem assignAt_cons_eq_some :
    assignAt (key :: rest) x v = some v' ↔
      ∃ es inner, v.fields? = some es ∧
        assignAt rest x ((es.get? key).getD .null) = some inner ∧
        v' = .obj (es.put key inner) := by
  simp only [assignAt, Option.bind_eq_some_iff, Option.map_eq_some_iff]
  constructor
  · intro h
    rcases h with ⟨es, hes, inner, hinner, rfl⟩
    exact ⟨es, inner, hes, hinner, rfl⟩
  · intro h
    rcases h with ⟨es, inner, hes, hinner, rfl⟩
    exact ⟨es, hes, inner, hinner, rfl⟩

/-- What is found under several keys is found under the rest of them within the first one. -/
theorem readAt_cons_eq_some :
    readAt (key :: rest) v = some z ↔
      ∃ (es : Entries Value) (u : Value),
        v = .obj es ∧ es.get? key = some u ∧ readAt rest u = some z := by
  simp only [readAt, Option.bind_eq_some_iff]
  cases v <;> simp [obj?]

/-- To read at a long place is to read there step by step. -/
theorem readAt_append (p w : List String) (v : Value) :
    readAt (p ++ w) v = (readAt p v).bind (readAt w) := by
  induction p generalizing v with
  | nil => rfl
  | cons key rest ih =>
    simp only [List.cons_append, readAt, Option.bind_assoc]
    congr 1
    funext es
    congr 1
    funext u
    exact ih u

/-- What has been assigned is read again. -/
theorem readAt_assignAt_self (h : assignAt p x v = some v') : readAt p v' = some x := by
  induction p generalizing v v' with
  | nil => exact h.symm
  | cons key rest ih =>
    rcases assignAt_cons_eq_some.1 h with ⟨es, inner, -, hinner, rfl⟩
    exact readAt_cons_eq_some.2 ⟨_, inner, rfl, Entries.get?_put_self key inner es, ih hinner⟩

/-- To assign what is read changes nothing. -/
theorem assignAt_readAt (h : readAt p v = some x) : assignAt p x v = some v := by
  induction p generalizing v with
  | nil => exact h.symm
  | cons key rest ih =>
    rcases readAt_cons_eq_some.1 h with ⟨es, u, rfl, hu, hx⟩
    refine assignAt_cons_eq_some.2 ⟨es, u, rfl, ?_, ?_⟩
    · simpa [hu] using ih hx
    · rw [Entries.put_get? hu]

/-- An assignment at the end of a longer way is one within what stands at the end of the way. -/
theorem assignAt_append (h : readAt p v = some z) (w : List String) (x : Value) :
    assignAt (p ++ w) x v = (assignAt w x z).bind fun z' => assignAt p z' v := by
  induction p generalizing v with
  | nil =>
    obtain rfl : v = z := Option.some.inj h
    simp [assignAt]
  | cons key rest ih =>
    rcases readAt_cons_eq_some.1 h with ⟨es, u, rfl, hu, hz⟩
    have hstep : ∀ q y, assignAt (key :: q) y (.obj es) =
        (assignAt q y u).map fun inner => .obj (es.put key inner) := by
      intro q y
      rw [assignAt_cons rfl, hu, Option.getD_some]
    rw [List.cons_append, hstep, ih hz, Option.map_bind]
    congr 1
    funext z'
    exact (hstep rest z').symm

/-- Whether something can be assigned does not depend on what it is. -/
theorem isSome_assignAt (x y : Value) : (assignAt p x v).isSome = (assignAt p y v).isSome := by
  induction p generalizing v with
  | nil => rfl
  | cons key rest ih =>
    simp only [assignAt]
    cases v.fields? with
    | none => rfl
    | some es => simpa using ih

/-- Where something stands, something else can be assigned. -/
theorem exists_assignAt (h : readAt p v = some z) (x : Value) : ∃ v', assignAt p x v = some v' :=
  Option.isSome_iff_exists.1 (by rw [isSome_assignAt x z, assignAt_readAt h, Option.isSome_some])

/-- An assignment makes up for those that have been made within its place before. -/
theorem assignAt_covered (h : assignAt (p ++ w) y v = some v') (x : Value) :
    assignAt p x v' = assignAt p x v := by
  induction p generalizing v v' with
  | nil => rfl
  | cons key rest ih =>
    rcases assignAt_cons_eq_some.1 h with ⟨es, inner, hes, hinner, rfl⟩
    -- The later assignment overwrites what the earlier one has put under the key.
    have hlater : assignAt rest x inner = assignAt rest x ((es.get? key).getD .null) := ih hinner
    rw [assignAt_cons rfl, assignAt_cons hes, Entries.get?_put_self, Option.getD_some, hlater]
    simp only [Entries.put_put]

/-- The last of two assignments to a place is the one that counts. -/
theorem assignAt_assignAt (h : assignAt p y v = some v') (x : Value) :
    assignAt p x v' = assignAt p x v :=
  assignAt_covered (w := []) (by rwa [List.append_nil]) x

/-! ## Ways that part -/

/-- Neither way leads on from the end of the other. -/
def Parted (p q : List String) : Prop :=
  ¬ p <+: q ∧ ¬ q <+: p

/-- Places part at their first keys or behind them. -/
theorem parted_cons {key other : String} {p q : List String} :
    Parted (key :: p) (other :: q) ↔ key ≠ other ∨ Parted p q := by
  simp only [Parted, List.cons_prefix_cons]
  by_cases h : key = other
  · simp [h]
  · simp [h, Ne.symm h]

/-- Nothing is found within null. -/
theorem readAt_null (h : p ≠ []) : readAt p .null = none := by
  cases p with
  | nil => exact absurd rfl h
  | cons key rest => rfl

/-- What is read in a value is read in its entries. -/
theorem readAt_cons_fields {es : Entries Value} (h : v.fields? = some es) :
    readAt (key :: rest) v = (es.get? key).bind (readAt rest) := by
  cases v with
  | null =>
    obtain rfl : [] = es := Option.some.inj h
    rfl
  | obj fields =>
    obtain rfl : fields = es := Option.some.inj h
    rfl
  | _ => cases h

/-- An assignment at the end of one way makes no difference to what is read at the end of the
other. -/
theorem readAt_assignAt_parted (hpq : Parted p q) (h : assignAt q x v = some v') :
    readAt p v' = readAt p v := by
  induction p generalizing q v v' with
  | nil => exact absurd List.nil_prefix hpq.1
  | cons key rest ih =>
    cases q with
    | nil => exact absurd List.nil_prefix hpq.2
    | cons other rest' =>
      rcases assignAt_cons_eq_some.1 h with ⟨es, inner, hes, hinner, rfl⟩
      rw [readAt_cons_fields hes, readAt_cons_fields (v := .obj (es.put other inner)) rfl]
      by_cases hkey : key = other
      · subst hkey
        have hrest : Parted rest rest' := (parted_cons.1 hpq).resolve_left (not_not_intro rfl)
        have hne : rest ≠ [] := fun hnil => hrest.1 (hnil ▸ List.nil_prefix)
        rw [Entries.get?_put_self, Option.bind_some, ih hrest hinner]
        cases es.get? key with
        | none => exact readAt_null hne
        | some u => rfl
      · rw [Entries.get?_put_of_ne inner es hkey]

/-- An assignment at the end of one way leaves what stands at the end of the other. -/
theorem readAt_assignAt_apart (hpq : Parted p q) (h : assignAt q x v = some v')
    (hread : readAt p v = some z) : readAt p v' = some z :=
  (readAt_assignAt_parted hpq h).trans hread

/-- Whether something can be assigned at the end of one way does not depend on an assignment at the
end of the other. -/
theorem isSome_assignAt_parted (hpq : Parted p q) (h : assignAt p x v = some v') (y : Value) :
    (assignAt q y v').isSome = (assignAt q y v).isSome := by
  induction p generalizing q v v' with
  | nil => exact absurd List.nil_prefix hpq.1
  | cons key rest ih =>
    cases q with
    | nil => exact absurd List.nil_prefix hpq.2
    | cons other rest' =>
      rcases assignAt_cons_eq_some.1 h with ⟨es, inner, hes, hinner, rfl⟩
      rw [assignAt_cons hes, assignAt_cons (v := .obj (es.put key inner)) rfl,
        Option.isSome_map, Option.isSome_map]
      by_cases hkey : key = other
      · subst hkey
        have hrest : Parted rest rest' := (parted_cons.1 hpq).resolve_left (not_not_intro rfl)
        rw [Entries.get?_put_self, Option.getD_some, ih hrest hinner]
      · rw [Entries.get?_put_of_ne inner es (Ne.symm hkey)]

/-- Two assignments that begin with one key are made within what stands under it. -/
theorem assignAt_bind_same {es : Entries Value} (x y : Value) (p q : List String) :
    (assignAt (key :: p) x (.obj es)).bind (assignAt (key :: q) y) =
      ((assignAt p x ((es.get? key).getD .null)).bind (assignAt q y)).map
        fun inner => .obj (es.put key inner) := by
  rw [assignAt_cons (v := .obj es) rfl]
  cases assignAt p x ((es.get? key).getD .null) with
  | none => rfl
  | some inner =>
    simp only [Option.map_some, Option.bind_some]
    rw [assignAt_cons rfl, Entries.get?_put_self, Option.getD_some]
    simp only [Entries.put_put]

/-- Two assignments that begin with different keys are made under each of them. -/
theorem assignAt_bind_other {es : Entries Value} {other : String} (hne : key ≠ other)
    (x y : Value) (p q : List String) :
    (assignAt (key :: p) x (.obj es)).bind (assignAt (other :: q) y) =
      (assignAt p x ((es.get? key).getD .null)).bind fun inner =>
        (assignAt q y ((es.get? other).getD .null)).map fun inner' =>
          .obj ((es.put key inner).put other inner') := by
  rw [assignAt_cons (v := .obj es) rfl]
  cases assignAt p x ((es.get? key).getD .null) with
  | none => rfl
  | some inner =>
    simp only [Option.map_some, Option.bind_some]
    rw [assignAt_cons rfl, Entries.get?_put_of_ne inner es hne.symm]

/-- Assignments at the ends of two ways can be made in either order if something stands at the end
of the first one. Else it would make a difference which of two new entries comes first. -/
theorem assignAt_comm (hpq : Parted p q) (hread : readAt p v = some z) (x y : Value) :
    (assignAt p x v).bind (assignAt q y) = (assignAt q y v).bind (assignAt p x) := by
  induction p generalizing q v with
  | nil => exact absurd List.nil_prefix hpq.1
  | cons key rest ih =>
    cases q with
    | nil => exact absurd List.nil_prefix hpq.2
    | cons other rest' =>
      rcases readAt_cons_eq_some.1 hread with ⟨es, u, rfl, hu, hz⟩
      by_cases hkey : key = other
      · subst hkey
        have hrest : Parted rest rest' := (parted_cons.1 hpq).resolve_left (not_not_intro rfl)
        have hinner : (assignAt rest x u).bind (assignAt rest' y) =
            (assignAt rest' y u).bind (assignAt rest x) := ih hrest hz
        rw [assignAt_bind_same, assignAt_bind_same, hu, Option.getD_some, hinner]
      · rw [assignAt_bind_other hkey, assignAt_bind_other (Ne.symm hkey)]
        cases assignAt rest x ((es.get? key).getD .null) with
        | none => cases assignAt rest' y ((es.get? other).getD .null) <;> rfl
        | some inner =>
          cases assignAt rest' y ((es.get? other).getD .null) with
          | none => rfl
          | some inner' => simp [Entries.put_comm hu hkey]

end Value

/-! ## Dotted paths -/

namespace DottedPath

open Value

variable {x v : Value} {key path : String} {keys : List String} {es es' : Entries Value}

/-- A path has at least one key. -/
theorem keys_ne_nil (path : String) : DottedPath.keys path ≠ [] := by
  simp [DottedPath.keys, Text.pieces, Text.splitChars_ne_nil]

/-- What stands at the end of a way of keys. -/
theorem read?_eq (keys : List String) (es : Entries Value) :
    read? keys es = readAt keys (.obj es) := by
  match keys with
  | [] => rfl
  | [key] =>
    simp only [read?, readAt, obj?, Option.bind_some]
    cases es.get? key <;> rfl
  | key :: second :: rest =>
    simp only [read?, readAt, obj?, Option.bind_some]
    cases hu : es.get? key with
    | none => rfl
    | some u =>
      cases u with
      | obj inner => exact read?_eq (second :: rest) inner
      | _ => rfl

/-- An assignment under a key, given what is assigned within what stands there. -/
theorem assign_within_iff {u : Value} {inner : Entries Value} {second : String}
    {rest : List String} (hu : u.fields? = some inner)
    (hwithin : ∀ es', assignKeys x (second :: rest) inner = .ok es' ↔
      assignAt (second :: rest) x (.obj inner) = some (.obj es')) :
    (match assignKeys x (second :: rest) inner with
      | .ok inner => .ok (es.put key (.obj inner))
      | .error steps => .error (steps + 1) : Except Nat (Entries Value)) = .ok es' ↔
      ((assignAt (second :: rest) x u).map fun inner => Value.obj (es.put key inner)) =
        some (.obj es') := by
  have hsame : assignAt (second :: rest) x u = assignAt (second :: rest) x (.obj inner) := by
    rw [assignAt_cons hu, assignAt_cons rfl]
  rw [hsame]
  cases h : assignKeys x (second :: rest) inner with
  | ok after => simp [(hwithin after).1 h]
  | error steps =>
    have hnone : assignAt (second :: rest) x (.obj inner) = none := by
      refine Option.eq_none_iff_forall_ne_some.2 ?_
      intro v' hv'
      rcases assignAt_cons_eq_some.1 hv' with ⟨es₀, inner', -, -, rfl⟩
      simp [(hwithin _).2 hv'] at h
    simp [hnone]

/-- The assignment to an object by keys is that to the value. -/
theorem assignKeys_eq_ok_iff :
    assignKeys x (key :: keys) es = .ok es' ↔
      assignAt (key :: keys) x (.obj es) = some (.obj es') := by
  induction keys generalizing key es es' with
  | nil => simp [assignKeys, assignAt, fields?]
  | cons second rest ih =>
    rw [assignAt_cons rfl]
    -- Where there is nothing or null, an object is made.
    cases hu : es.get? key with
    | none =>
      simp only [assignKeys, hu]
      exact assign_within_iff rfl fun _ => ih
    | some u =>
      cases u with
      | null =>
        simp only [assignKeys, hu]
        exact assign_within_iff rfl fun _ => ih
      | obj inner =>
        simp only [assignKeys, hu]
        exact assign_within_iff rfl fun _ => ih
      | _ => simp [assignKeys, hu, assignAt, fields?]

/-- A path can be assigned to if none of its keys is empty and the assignment by its keys succeeds. -/
theorem assign_eq_ok_iff :
    assign path x es = .ok es' ↔
      "" ∉ DottedPath.keys path ∧
        assignAt (DottedPath.keys path) x (.obj es) = some (.obj es') := by
  rcases hkeys : DottedPath.keys path with _ | ⟨key, rest⟩
  · exact absurd hkeys (keys_ne_nil path)
  · rw [← assignKeys_eq_ok_iff]
    unfold assign
    rw [hkeys]
    by_cases hempty : "" ∈ key :: rest
    · simp [hempty]
    · cases h : assignKeys x (key :: rest) es <;> simp [hempty, h]

end DottedPath
end Workflows
