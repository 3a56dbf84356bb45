import Mathlib.Data.Set.Finite.Lattice
import Workflows.Proofs.Entries
import Workflows.Proofs.Walk

/-!
# Replacement — another value at one place of a tree

A value replaces what stands at a place. Below the place stands what stands in the new value; above
it, the containers are what they were except for the one entry or item on the way; everything else
stands where it stood.

Main definitions:

* `Value.replace` — the tree with the new value;
* `Value.at_replace_cases` — what stands at the places of that tree;
* `Value.Keyed` — trees in which no object has a key twice;
* `Value.finite_places` — a tree has finitely many places.
-/

namespace Workflows

/-! ## One entry -/

namespace Entries

variable {α : Type} {key other : String} {f : α → α} {v : α} {es : Entries α}

/-- The entries with another value under one key, made from the one that is there. -/
def alter (key : String) (f : α → α) (es : Entries α) : Entries α :=
  es.map fun e => (e.1, if e.1 = key then f e.2 else e.2)

/-- An alteration keeps the keys. -/
theorem keys_alter : (es.alter key f).keys = es.keys := by
  simp [alter, keys, Function.comp_def]

/-- The value of the altered key is the altered value. -/
theorem get?_alter_self : (es.alter key f).get? key = (es.get? key).map f := by
  induction es with
  | nil => rfl
  | cons e rest ih =>
    rcases e with ⟨k, v⟩
    by_cases hk : k = key
    · simp [alter, get?, hk]
    · simpa [alter, get?, hk] using ih

/-- The values of other keys stay. -/
theorem get?_alter_of_ne (h : other ≠ key) : (es.alter key f).get? other = es.get? other := by
  induction es with
  | nil => rfl
  | cons e rest ih =>
    rcases e with ⟨k, v⟩
    by_cases hk : k = other
    · have hne : k ≠ key := fun heq => h (hk.symm.trans heq)
      simp [alter, get?, hk, h]
    · simpa [alter, get?, hk] using ih

/-- Without an entry there is nothing to alter. -/
theorem alter_of_not_mem (h : ∀ v, (key, v) ∉ es) : es.alter key f = es := by
  have hsame : ∀ e ∈ es, (e.1, if e.1 = key then f e.2 else e.2) = e := by
    intro hexists hmem
    rcases hexists with ⟨k, v⟩
    have hk : k ≠ key := fun heq => h v (heq ▸ hmem)
    rw [if_neg hk]
  rw [alter, List.map_congr_left hsame, List.map_id']

/-- After an alteration an entry is an altered one, or one of another key. -/
theorem mem_alter_iff :
    (other, v) ∈ es.alter key f ↔
      (other = key ∧ ∃ u, (key, u) ∈ es ∧ v = f u) ∨ (other ≠ key ∧ (other, v) ∈ es) := by
  rw [alter, List.mem_map]
  constructor
  · intro h
    rcases h with ⟨⟨k, u⟩, hmem, heq⟩
    obtain ⟨rfl, rfl⟩ := Prod.mk.inj heq
    by_cases hk : k = key
    · exact .inl ⟨hk, u, hk ▸ hmem, if_pos hk⟩
    · exact .inr ⟨hk, by rwa [if_neg hk]⟩
  · intro h
    rcases h with ⟨rfl, u, hmem, rfl⟩ | ⟨hne, hmem⟩
    · exact ⟨(other, u), hmem, by simp⟩
    · exact ⟨(other, v), hmem, by simp [hne]⟩

end Entries

namespace Value

variable {tree new v w : Value} {s t : PlaceStep} {p q r : Place}

/-! ## Places -/

/-- What stands at a place within what stands at another one. -/
theorem at_append : w.At (p ++ r) tree ↔ ∃ v : Value, v.At p tree ∧ w.At r v := by
  induction p generalizing tree with
  | nil => simp [at_nil]
  | cons s p ih =>
    simp only [List.cons_append, at_cons, ih]
    constructor
    · intro h
      rcases h with ⟨inner, hholds, v, hv, hw⟩
      exact ⟨v, ⟨inner, hholds, hv⟩, hw⟩
    · intro h
      rcases h with ⟨v, ⟨inner, hholds, hv⟩, hw⟩
      exact ⟨inner, hholds, v, hv, hw⟩

def parts : Value → List (PlaceStep × Value)
  | .arr items => items.zipIdx.map fun item => (.index item.2, item.1)
  | .obj fields => fields.map fun field => (.key field.1, field.2)
  | _ => []

/-- The parts of a value are listed with their steps. -/
theorem holds_iff_mem_parts : v.Holds s tree ↔ (s, v) ∈ tree.parts := by
  constructor
  · intro h
    cases h with
    | @item items i hitem =>
      exact List.mem_map.2 ⟨(v, i), List.mem_zipIdx_iff_getElem?.2 hitem, rfl⟩
    | @field fields key hfield => exact List.mem_map.2 ⟨(key, v), hfield, rfl⟩
  · intro h
    cases tree with
    | arr items =>
      rcases List.mem_map.1 h with ⟨item, hitem, heq⟩
      obtain ⟨rfl, rfl⟩ := Prod.mk.inj heq
      exact .item (List.mem_zipIdx_iff_getElem?.1 hitem)
    | obj fields =>
      rcases List.mem_map.1 h with ⟨field, hfield, heq⟩
      obtain ⟨rfl, rfl⟩ := Prod.mk.inj heq
      exact .field hfield
    | _ => simp [parts] at h

/-- A tree has finitely many places. -/
theorem finite_places (tree : Value) : {place | ∃ v : Value, v.At place tree}.Finite := by
  induction tree using holds_induction with
  | within tree ih =>
    have hparts : {e | e ∈ tree.parts}.Finite := List.finite_toSet tree.parts
    have hinner : ∀ e ∈ {e | e ∈ tree.parts},
        ((e.1 :: ·) '' {place | ∃ v : Value, v.At place e.2}).Finite :=
      fun e he => (ih e.1 e.2 (holds_iff_mem_parts.2 he)).image _
    refine ((Set.finite_singleton []).union (hparts.biUnion hinner)).subset ?_
    intro place h
    rcases h with ⟨v, hv⟩
    cases hv with
    | here => exact .inl rfl
    | @within s place inner _ hholds hrest =>
      refine .inr (Set.mem_biUnion (x := (s, inner)) (holds_iff_mem_parts.1 hholds) ?_)
      exact ⟨place, ⟨v, hrest⟩, rfl⟩

/-! ## Replacing -/

/-- The tree with the new value in the place of what stands at a place; the same tree if nothing
stands there. What refers back to a container refers to the one that stands at its place then. -/
def replace : Value → Place → Value → Value
  | _, [], new => new
  | .arr items, .index (.ofNat i) :: place, new =>
    .arr (items.modify i fun v => replace v place new)
  | .obj fields, .key key :: place, new =>
    .obj (Entries.alter key (fun v => replace v place new) fields)
  | tree, _ :: _, _ => tree

@[simp] theorem replace_nil : tree.replace [] new = new := by
  unfold replace
  rfl

/-- A list holds its items at their indices. -/
theorem holds_arr {items : List Value} :
    w.Holds t (.arr items) ↔ ∃ i : Nat, t = .index i ∧ items[i]? = some w := by
  constructor
  · intro hboth
    rcases hboth with ⟨h⟩
    exact ⟨_, rfl, h⟩
  · intro hexists
    rcases hexists with ⟨i, rfl, h⟩
    exact .item h

/-- An object holds the values of its entries at their keys. -/
theorem holds_obj {fields : List (String × Value)} :
    w.Holds t (.obj fields) ↔ ∃ key, t = .key key ∧ (key, w) ∈ fields := by
  constructor
  · intro h
    cases h with
    | field hmem => exact ⟨_, rfl, hmem⟩
  · intro hexists
    rcases hexists with ⟨key, rfl, hmem⟩
    exact .field hmem

/-- Nothing changes where there is nothing to replace. -/
theorem replace_of_not_holds (h : ∀ v : Value, ¬v.Holds s tree) : tree.replace (s :: p) new = tree := by
  unfold replace
  split
  · rename_i heq
    cases heq
  · rename_i items i place heq
    obtain ⟨rfl, rfl⟩ := List.cons.inj heq
    have hnone : items[i]? = none := by
      by_contra hsome
      rcases Option.ne_none_iff_exists'.1 hsome with ⟨v, hv⟩
      exact h v (.item hv)
    rw [List.modify_eq_self (by simpa using hnone)]
  · rename_i fields key place heq
    obtain ⟨rfl, rfl⟩ := List.cons.inj heq
    exact congrArg Value.obj (Entries.alter_of_not_mem fun v hv => h v (.field hv))
  · rfl

/-- The parts of the new tree are those of the old one, except for the one on the way. -/
theorem holds_replace :
    w.Holds t (tree.replace (s :: p) new) ↔
      (t = s ∧ ∃ v : Value, v.Holds s tree ∧ w = v.replace p new) ∨ (t ≠ s ∧ w.Holds t tree) := by
  -- A replacement behind a step that leads nowhere does nothing.
  by_cases hsome : ∃ v : Value, v.Holds s tree
  · rcases hsome with ⟨v, hv⟩
    cases hv with
    | @item items i hitem =>
      have hreplace : (Value.arr items).replace (.index i :: p) new =
          .arr (items.modify i fun v => v.replace p new) := rfl
      simp only [hreplace, holds_arr, List.getElem?_modify]
      constructor
      · intro hexists
        rcases hexists with ⟨j, rfl, hj⟩
        by_cases heq : i = j
        · obtain rfl := heq
          rw [hitem] at hj
          exact .inl ⟨rfl, v, ⟨i, rfl, hitem⟩, (Option.some.inj (by simpa using hj)).symm⟩
        · have hne : PlaceStep.index j ≠ .index i := by
            rw [ne_eq, PlaceStep.index.injEq, Int.natCast_inj]
            exact Ne.symm heq
          exact .inr ⟨hne, j, rfl, by simpa [heq] using hj⟩
      · intro hcases
        rcases hcases with ⟨rfl, u, ⟨j, hj, hu⟩, rfl⟩ | ⟨hne, j, rfl, hj⟩
        · obtain rfl : i = j := Int.natCast_inj.1 (PlaceStep.index.inj hj)
          exact ⟨i, rfl, by simp [hu]⟩
        · have heq : i ≠ j := fun heq => hne (by rw [heq])
          exact ⟨j, rfl, by simpa [heq] using hj⟩
    | @field fields key hfield =>
      have hreplace : (Value.obj fields).replace (.key key :: p) new =
          .obj (Entries.alter key (fun v => v.replace p new) fields) := rfl
      simp only [hreplace, holds_obj, Entries.mem_alter_iff]
      constructor
      · intro hexists
        rcases hexists with ⟨other, rfl, ⟨rfl, u, hu, rfl⟩ | ⟨hne, hmem⟩⟩
        · exact .inl ⟨rfl, u, ⟨other, rfl, hu⟩, rfl⟩
        · exact .inr ⟨by simpa using hne, other, rfl, hmem⟩
      · intro hcases
        rcases hcases with ⟨rfl, u, ⟨other, hother, hu⟩, rfl⟩ | ⟨hne, other, rfl, hmem⟩
        · obtain rfl : key = other := PlaceStep.key.inj hother
          exact ⟨key, rfl, .inl ⟨rfl, u, hu, rfl⟩⟩
        · exact ⟨other, rfl, .inr ⟨by simpa using hne, hmem⟩⟩
  · have hnone : ∀ v : Value, ¬v.Holds s tree := fun v hv => hsome ⟨v, hv⟩
    rw [replace_of_not_holds hnone]
    constructor
    · intro h
      exact .inr ⟨fun heq => hnone w (heq ▸ h), h⟩
    · intro hcases
      rcases hcases with ⟨-, v, hv, -⟩ | ⟨-, h⟩
      · exact absurd hv (hnone v)
      · exact h

/-- What stands below the place stands in the new value. -/
theorem at_replace_append :
    w.At (q ++ r) (tree.replace q new) ↔ (∃ v : Value, v.At q tree) ∧ w.At r new := by
  induction q generalizing tree with
  | nil =>
    rw [List.nil_append, replace_nil]
    exact (and_iff_right ⟨tree, .here⟩).symm
  | cons s q ih =>
    simp only [List.cons_append, at_cons, holds_replace]
    constructor
    · intro h
      rcases h with ⟨inner, ⟨-, v, hv, rfl⟩ | ⟨hne, -⟩, hw⟩
      · rcases ih.1 hw with ⟨⟨u, hu⟩, hnew⟩
        exact ⟨⟨u, v, hv, hu⟩, hnew⟩
      · exact absurd rfl hne
    · intro h
      rcases h with ⟨⟨u, v, hv, hu⟩, hnew⟩
      exact ⟨v.replace q new, .inl ⟨trivial, v, hv, rfl⟩, ih.2 ⟨⟨u, hu⟩, hnew⟩⟩

/-- What stands above the place, or at it, has the new value in the place. -/
theorem at_replace_of_prefix :
    w.At p (tree.replace (p ++ r) new) ↔ ∃ v : Value, v.At p tree ∧ w = v.replace r new := by
  induction p generalizing tree with
  | nil => simp [at_nil]
  | cons s p ih =>
    simp only [List.cons_append, at_cons, holds_replace]
    constructor
    · intro h
      rcases h with ⟨inner, ⟨-, v, hv, rfl⟩ | ⟨hne, -⟩, hw⟩
      · rcases ih.1 hw with ⟨u, hu, rfl⟩
        exact ⟨u, ⟨v, hv, hu⟩, rfl⟩
      · exact absurd rfl hne
    · intro h
      rcases h with ⟨u, ⟨v, hv, hu⟩, rfl⟩
      exact ⟨v.replace (p ++ r) new, .inl ⟨trivial, v, hv, rfl⟩, ih.2 ⟨u, hu, rfl⟩⟩

/-- What stands in the new tree stands at the place or below it, above it, or has stood elsewhere
before. -/
theorem at_replace_cases (h : w.At p (tree.replace q new)) :
    (∃ r, p = q ++ r ∧ w.At r new) ∨
      (∃ s r v, q = p ++ s :: r ∧ Value.At v p tree ∧ w = v.replace (s :: r) new) ∨
        (p ≠ q ∧ w.At p tree) := by
  induction q generalizing p tree with
  | nil =>
    rw [replace_nil] at h
    exact .inl ⟨p, rfl, h⟩
  | cons s q ih =>
    cases p with
    | nil => exact .inr (.inl ⟨s, q, tree, rfl, .here, at_nil.1 h⟩)
    | cons t p =>
      rcases at_cons.1 h with ⟨inner, hholds, hw⟩
      rcases holds_replace.1 hholds with ⟨rfl, v, hv, rfl⟩ | ⟨hstep, hholds⟩
      · rcases ih hw with ⟨r, rfl, hnew⟩ | ⟨u, r, x, rfl, hx, rfl⟩ | ⟨hne, hw⟩
        · exact .inl ⟨r, rfl, hnew⟩
        · exact .inr (.inl ⟨u, r, x, rfl, .within hv hx, rfl⟩)
        · exact .inr (.inr ⟨fun heq => hne (List.cons.inj heq).2, .within hv hw⟩)
      · exact .inr (.inr ⟨fun heq => hstep (List.cons.inj heq).1, .within hholds hw⟩)

/-! ## Trees with distinct keys -/

/-- No object in the tree has a key twice. -/
def Keyed (tree : Value) : Prop :=
  ∀ place fields, (Value.obj fields).At place tree → Entries.Distinct fields

/-- What lies within a value with distinct keys has distinct keys. -/
theorem Keyed.of_at (h : tree.Keyed) (hv : v.At p tree) : v.Keyed :=
  fun place fields hfields => h (p ++ place) fields (at_append.2 ⟨v, hv, hfields⟩)

/-- In a value with distinct keys a step leads to one part only. -/
theorem Keyed.holds_unique (h : tree.Keyed) (hv : v.Holds s tree) (hw : w.Holds s tree) : v = w := by
  cases hv with
  | item hitem =>
    cases hw with
    | item hitem' => exact Option.some.inj (hitem.symm.trans hitem')
  | @field fields key hfield =>
    cases hw with
    | field hfield' =>
      have hkeys : Entries.Distinct fields := h [] fields .here
      have hv := Entries.get?_of_mem hkeys hfield
      have hw := Entries.get?_of_mem hkeys hfield'
      exact Option.some.inj (hv.symm.trans hw)

/-- One value stands at a place. -/
theorem Keyed.at_unique (h : tree.Keyed) (hv : v.At p tree) (hw : w.At p tree) : v = w := by
  induction p generalizing tree with
  | nil => rw [at_nil.1 hv, at_nil.1 hw]
  | cons s p ih =>
    rcases at_cons.1 hv with ⟨inner, hholds, hv⟩
    rcases at_cons.1 hw with ⟨inner', hholds', hw⟩
    obtain rfl := h.holds_unique hholds hholds'
    exact ih (h.of_at (.within hholds .here)) hv hw

/-- An object above the place has the keys that it had. -/
theorem of_replace_cons_eq_obj {fields : List (String × Value)}
    (h : v.replace (s :: r) new = .obj fields) :
    ∃ old : List (String × Value), v = .obj old ∧ Entries.keys fields = Entries.keys old := by
  unfold replace at h
  split at h
  · rename_i heq
    cases heq
  · cases h
  · rename_i old key place heq
    obtain rfl := Value.obj.inj h
    exact ⟨old, rfl, Entries.keys_alter⟩
  · exact ⟨fields, h, rfl⟩

/-- An object has distinct keys if its own are distinct and those within its entries are. -/
theorem keyed_obj_iff {fields : List (String × Value)} :
    (Value.obj fields).Keyed ↔ Entries.Distinct fields ∧ ∀ e ∈ fields, e.2.Keyed := by
  constructor
  · intro h
    exact ⟨h [] fields .here, fun e he => h.of_at (.within (.field he) .here)⟩
  · intro hboth place inner hat
    rcases hboth with ⟨hfields, hinner⟩
    cases hat with
    | here => exact hfields
    | within hholds hrest =>
      rcases holds_obj.1 hholds with ⟨key, rfl, hmem⟩
      exact hinner _ hmem _ inner hrest

/-- The keys within a list are those within its items. -/
theorem keyed_arr_iff {items : List Value} : (Value.arr items).Keyed ↔ ∀ v ∈ items, v.Keyed := by
  constructor
  · intro h v hv
    rcases List.getElem?_of_mem hv with ⟨i, hi⟩
    exact h.of_at (.within (.item hi) .here)
  · intro h place inner hat
    cases hat with
    | within hholds hrest =>
      rcases holds_arr.1 hholds with ⟨i, rfl, hi⟩
      exact h _ (List.mem_of_getElem? hi) _ inner hrest

theorem keyed_str (text : String) : (Value.str text).Keyed := by
  intro place fields hat
  cases hat with
  | within hholds _ => cases hholds

theorem keyed_bool (b : Bool) : (Value.bool b).Keyed := by
  intro place fields hat
  cases hat with
  | within hholds _ => cases hholds

theorem keyed_num (n : Number) : (Value.num n).Keyed := by
  intro place fields hat
  cases hat with
  | within hholds _ => cases hholds

/-- Distinct keys stay distinct when a part is replaced by a value with distinct keys. -/
theorem Keyed.replace (h : tree.Keyed) (hnew : new.Keyed) : (tree.replace q new).Keyed := by
  intro place fields hfields
  rcases at_replace_cases hfields with ⟨r, rfl, hr⟩ | ⟨s, r, v, rfl, hv, hreplaced⟩ | ⟨-, hold⟩
  · exact hnew r fields hr
  · rcases of_replace_cons_eq_obj hreplaced.symm with ⟨old, rfl, hkeys⟩
    rw [Entries.Distinct, hkeys]
    exact h place old hv
  · exact h place fields hold

end Value
end Workflows
