import Mathlib.Algebra.Field.Rat
import Mathlib.Algebra.GroupWithZero.Basic
import Mathlib.Data.List.Perm.Subperm
import Mathlib.Data.Rat.Cast.Defs
import Mathlib.Order.Compare
import Workflows.Proofs.Replacement
import Workflows.Visibility.Allowed

/-!
# Content — what values stand for

The content of a value is what is left of it when spelling does not matter: a number is the rational
number that it is exactly, a list is the list of the contents of its items, and an object is a map
from keys to contents. Truth values can be read in two ways, as contents of their own kind or as the
numbers 0 and 1.

Main definitions:

* `Number.exact` — the value of a number, as a rational number;
* `Value.content` — the content of a value, by how truth values are read;
* `Value.sameAs_iff` — values are equal if their contents are, truth values being numbers;
* `Value.Mixed` — at a place, one value holds a truth value and the other one a number;
* `Allowed.equal_exact_iff` — when the equality of allow-lists is equality of contents.
-/

namespace Workflows

/-! ## Numbers -/

namespace Number

/-- The exact value of a number. -/
def exact (n : Number) : ℚ :=
  n.scaled.1 * 2 ^ n.scaled.2

/-- A whole number is its own exact value. -/
@[simp] theorem exact_int (i : Int) : (Number.int i).exact = i := by
  simp [exact, scaled]

/-- A number as a whole number times a power of two that is not greater than its own. -/
theorem exact_eq (n : Number) {base : Int} (h : base ≤ n.scaled.2) :
    n.exact =
      (n.scaled.1 * (Binary64.twoTo (n.scaled.2 - base).toNat : Nat) : Int) * 2 ^ base := by
  have hpower : ((Binary64.twoTo (n.scaled.2 - base).toNat : Nat) : ℚ) =
      2 ^ (n.scaled.2 - base) := by
    have hcast : (((n.scaled.2 - base).toNat : Nat) : Int) = n.scaled.2 - base :=
      Int.toNat_of_nonneg (Int.sub_nonneg.2 h)
    rw [← hcast, zpow_natCast]
    exact Nat.cast_pow 2 _
  have hsplit : (2 : ℚ) ^ n.scaled.2 = 2 ^ (n.scaled.2 - base) * 2 ^ base := by
    rw [← zpow_add₀ (by decide), Int.sub_add_cancel]
  calc
    n.exact
        = n.scaled.1 * 2 ^ n.scaled.2 := rfl
    _ = n.scaled.1 * (2 ^ (n.scaled.2 - base) * 2 ^ base) := by rw [hsplit]
    _ = n.scaled.1 * 2 ^ (n.scaled.2 - base) * 2 ^ base := by rw [mul_assoc]
    _ = (n.scaled.1 * (Binary64.twoTo (n.scaled.2 - base).toNat : Nat) : Int) * 2 ^ base := by
      rw [Int.cast_mul, Int.cast_natCast, hpower]

/-- Numbers are the same if their exact values are equal. -/
theorem sameValue_iff {a b : Number} : a.sameValue b = true ↔ a.exact = b.exact := by
  let base := min a.scaled.2 b.scaled.2
  have hbase : (2 : ℚ) ^ base ≠ 0 := zpow_ne_zero _ (by decide)
  -- Over a common power of two the numbers are compared by what they are multiples of.
  have ha := a.exact_eq (min_le_left a.scaled.2 b.scaled.2)
  have hb := b.exact_eq (min_le_right a.scaled.2 b.scaled.2)
  have hexact : a.exact = b.exact ↔
      a.scaled.1 * (Binary64.twoTo (a.scaled.2 - base).toNat : Nat) =
        b.scaled.1 * (Binary64.twoTo (b.scaled.2 - base).toNat : Nat) := by
    rw [ha, hb, mul_left_inj' hbase, Rat.intCast_inj]
  have hsame : a.sameValue b = true ↔ a.order b = .eq := by
    simp [sameValue]
  rw [hexact, hsame]
  exact compare_eq_iff_eq

end Number

/-! ## Objects as maps -/

/-- Objects with distinct keys that are equally long have related values under the same keys as soon
as every entry of the first has a related one in the second. -/
theorem Entries.rel_get?_iff {α β : Type} {rel : α → β → Prop} {es : Entries α} {fs : Entries β}
    (hes : es.Distinct) (hfs : fs.Distinct) :
    (es.length = fs.length ∧ ∀ e ∈ es, ∃ w, fs.get? e.1 = some w ∧ rel e.2 w) ↔
      ∀ key, Option.Rel rel (es.get? key) (fs.get? key) := by
  have hlength : ∀ {γ : Type} (gs : Entries γ), gs.keys.length = gs.length := by
    intro γ gs
    exact List.length_map _
  constructor
  · intro h key
    rcases h with ⟨hsame, hall⟩
    have hsubset : es.keys ⊆ fs.keys := by
      intro k hk
      rcases List.mem_map.1 hk with ⟨e, he, rfl⟩
      rcases hall e he with ⟨w, hw, -⟩
      exact key_mem_keys (mem_of_get? hw)
    -- As many distinct keys that are all among the others are all of them.
    have hperm : es.keys.Perm fs.keys := by
      have hle : fs.keys.length ≤ es.keys.length := by
        rw [hlength, hlength, hsame]
      exact (List.subperm_of_subset hes hsubset).perm_of_length_le hle
    cases hv : es.get? key with
    | none =>
      have hnone : fs.get? key = none := by
        have hkey : key ∉ es.keys := get?_eq_none_iff.1 hv
        rw [hperm.mem_iff] at hkey
        exact get?_eq_none_iff.2 hkey
      rw [hnone]
      exact .none
    | some v =>
      rcases hall _ (mem_of_get? hv) with ⟨w, hw, hrel⟩
      rw [hw]
      exact .some hrel
  · intro h
    have hkeys : ∀ key, key ∈ es.keys ↔ key ∈ fs.keys := by
      intro key
      have hnone : es.get? key = none ↔ fs.get? key = none := by
        have hkey := h key
        generalize es.get? key = o at hkey
        generalize fs.get? key = o' at hkey
        cases hkey with
        | some hrel => simp
        | none => simp
      rw [get?_eq_none_iff, get?_eq_none_iff] at hnone
      exact not_iff_not.1 hnone
    constructor
    · have hperm : es.keys.Perm fs.keys := (List.perm_ext_iff_of_nodup hes hfs).2 hkeys
      calc
        es.length
            = es.keys.length := (hlength es).symm
        _ = fs.keys.length := hperm.length_eq
        _ = fs.length := hlength fs
    · intro e he
      have hkey := h e.1
      rw [get?_of_mem hes he] at hkey
      generalize fs.get? e.1 = o' at hkey
      cases hkey with
      | some hrel => exact ⟨_, rfl, hrel⟩

/-! ## Contents -/

inductive Content
  | null
  | truth (b : Bool)
  | number (q : ℚ)
  | text (s : String)
  | list (items : List Content)
  | map (fields : String → Option Content)
  | back (levels : Nat)

/-- How truth values are read: apart from all other values, or as the numbers 0 and 1. -/
inductive TruthReading
  | apart
  | numeric

def TruthReading.content : TruthReading → Bool → Content
  | apart, b => .truth b
  | numeric, b => .number (if b then 1 else 0)

namespace Value

section Contents

variable (reading : TruthReading)

mutual

/-- What a value stands for, by how truth values are read. -/
def content : Value → Content
  | .null => .null
  | .bool b => reading.content b
  | .num n => .number n.exact
  | .str s => .text s
  | .arr items => .list (contents items)
  | .obj fields => .map (fieldContents fields)
  | .up levels => .back levels

def contents : List Value → List Content
  | [] => []
  | v :: rest => content v :: contents rest

def fieldContents : List (String × Value) → String → Option Content
  | [], _ => none
  | (k, v) :: rest, key => if k = key then some (content v) else fieldContents rest key

end

end Contents

variable {reading : TruthReading} {x y v w : Value} {s : PlaceStep} {place : Place}

/-- The contents of the items are collected item by item. -/
theorem contents_eq (items : List Value) :
    contents reading items = items.map (content reading) := by
  induction items with
  | nil => rfl
  | cons v rest ih => rw [contents, List.map_cons, ih]

/-- The content of a field is that of its value. -/
theorem fieldContents_eq (fields : Entries Value) (key : String) :
    fieldContents reading fields key = (fields.get? key).map (content reading) := by
  induction fields with
  | nil => rfl
  | cons e rest ih =>
    rcases e with ⟨k, v⟩
    rw [fieldContents, Entries.get?]
    split
    · rfl
    · exact ih

/-! ## One level of a value -/

def part? (s : PlaceStep) : Value → Option Value
  | .arr items =>
    match s with
    | .index (.ofNat i) => items[i]?
    | _ => none
  | .obj fields =>
    match s with
    | .key k => Entries.get? k fields
    | _ => none
  | _ => none

/-- A part is looked up where it is held. -/
theorem part?_eq_some_iff (hx : x.Keyed) : x.part? s = some v ↔ v.Holds s x := by
  cases x with
  | arr items =>
    rw [holds_arr]
    rcases s with k | ⟨i⟩ | ⟨i⟩ <;> simp [part?]
  | obj fields =>
    have hkeys : Entries.Distinct fields := hx [] fields .here
    rw [holds_obj]
    rcases s with k | i
    · simp only [part?, PlaceStep.key.injEq, exists_eq_left']
      exact ⟨Entries.mem_of_get?, Entries.get?_of_mem hkeys⟩
    · simp [part?]
  | _ =>
    simp only [part?, reduceCtorEq, false_iff]
    intro h
    cases h

section Parts

variable {rel : Value → Value → Prop} {items items' : List Value} {fields fields' : Entries Value}

/-- The parts of two values are related one to one. -/
def PartsRelated (rel : Value → Value → Prop) (x y : Value) : Prop :=
  ∀ s, Option.Rel rel (x.part? s) (y.part? s)

/-- Parts are related alike if the relations agree on them. -/
theorem partsRelated_congr {rel' : Value → Value → Prop}
    (h : ∀ s v w, x.part? s = some v → y.part? s = some w → (rel v w ↔ rel' v w)) :
    PartsRelated rel x y ↔ PartsRelated rel' x y := by
  have hpart : ∀ s, Option.Rel rel (x.part? s) (y.part? s) ↔
      Option.Rel rel' (x.part? s) (y.part? s) := by
    intro s
    cases hv : x.part? s with
    | none =>
      cases y.part? s with
      | none => simp
      | some w => simp
    | some v =>
      cases hw : y.part? s with
      | none => simp
      | some w => simpa using h s v w hv hw
  exact forall_congr' hpart

/-- Parts are related in two ways if they are related in one and all of them pass in the other. -/
theorem partsRelated_and_iff {test : Value → Value → Prop} :
    PartsRelated (fun v w => rel v w ∧ test v w) x y ↔
      PartsRelated rel x y ∧ ∀ s v w, x.part? s = some v → y.part? s = some w → test v w := by
  have hpart : ∀ s, Option.Rel (fun v w => rel v w ∧ test v w) (x.part? s) (y.part? s) ↔
      Option.Rel rel (x.part? s) (y.part? s) ∧
        ∀ v w, x.part? s = some v → y.part? s = some w → test v w := by
    intro s
    cases x.part? s with
    | none =>
      cases y.part? s with
      | none => simp
      | some w => simp
    | some v =>
      cases y.part? s with
      | none => simp
      | some w => simp
  calc
    PartsRelated (fun v w => rel v w ∧ test v w) x y
        ↔ ∀ s, Option.Rel rel (x.part? s) (y.part? s) ∧
            ∀ v w, x.part? s = some v → y.part? s = some w → test v w := forall_congr' hpart
    _ ↔ PartsRelated rel x y ∧
          ∀ s v w, x.part? s = some v → y.part? s = some w → test v w := forall_and

/-- The parts of two lists are related if the items are, one by one. -/
theorem partsRelated_arr_iff :
    PartsRelated rel (.arr items) (.arr items') ↔ List.Forall₂ rel items items' := by
  -- Steps that are keys or negative indices lead nowhere in a list.
  have hindex : PartsRelated rel (.arr items) (.arr items') ↔
      ∀ i : Nat, Option.Rel rel items[i]? items'[i]? := by
    constructor
    · intro h i
      exact h (.index (.ofNat i))
    · intro h s
      rcases s with k | ⟨i⟩ | ⟨i⟩
      · exact .none
      · exact h i
      · exact .none
  rw [hindex]
  clear hindex
  induction items generalizing items' with
  | nil =>
    cases items' with
    | nil => simp
    | cons w rest' => simpa using ⟨0, by simp⟩
  | cons v rest ih =>
    cases items' with
    | nil => simpa using ⟨0, by simp⟩
    | cons w rest' =>
      constructor
      · intro h
        have hfirst : rel v w := by simpa using h 0
        have hrest : ∀ i : Nat, Option.Rel rel rest[i]? rest'[i]? := by
          intro i
          simpa using h (i + 1)
        exact .cons hfirst (ih.1 hrest)
      · intro h i
        cases h with
        | cons hfirst hrest =>
          cases i with
          | zero => simpa using hfirst
          | succ i => simpa using ih.2 hrest i

/-- The parts of two objects are related if the entries are, key by key. -/
theorem partsRelated_obj_iff :
    PartsRelated rel (.obj fields) (.obj fields') ↔
      ∀ key, Option.Rel rel (fields.get? key) (fields'.get? key) := by
  constructor
  · intro h key
    exact h (.key key)
  · intro h s
    cases s with
    | key k => exact h k
    | index i => exact .none

end Parts

/-- The content of a value, without what it holds. -/
def surface (reading : TruthReading) : Value → Content
  | .arr _ => .list []
  | .obj _ => .map fun _ => none
  | v => v.content reading

/-- Contents are the same if they are the same outside and part by part. -/
theorem content_eq_iff :
    x.content reading = y.content reading ↔
      x.surface reading = y.surface reading ∧
        PartsRelated (fun v w => v.content reading = w.content reading) x y := by
  by_cases harr : ∃ items items', x = .arr items ∧ y = .arr items'
  · rcases harr with ⟨items, items', rfl, rfl⟩
    have hsurface : (Value.arr items).surface reading = (Value.arr items').surface reading := rfl
    have hitems : items.map (content reading) = items'.map (content reading) ↔
        List.Forall₂ (fun v w => v.content reading = w.content reading) items items' := by
      rw [← List.forall₂_eq_eq_eq, List.forall₂_map_left_iff, List.forall₂_map_right_iff]
    calc
      (Value.arr items).content reading = (Value.arr items').content reading
          ↔ items.map (content reading) = items'.map (content reading) := by
            rw [content, content, Content.list.injEq, contents_eq, contents_eq]
      _ ↔ PartsRelated (fun v w => v.content reading = w.content reading)
            (.arr items) (.arr items') := by rw [hitems, partsRelated_arr_iff]
      _ ↔ _ := (and_iff_right hsurface).symm
  by_cases hobj : ∃ fields fields', x = .obj fields ∧ y = .obj fields'
  · rcases hobj with ⟨fields, fields', rfl, rfl⟩
    have hsurface : (Value.obj fields).surface reading = (Value.obj fields').surface reading := rfl
    have hkey : ∀ key, fieldContents reading fields key = fieldContents reading fields' key ↔
        Option.Rel (fun v w => v.content reading = w.content reading)
          (Entries.get? key fields) (Entries.get? key fields') := by
      intro key
      rw [fieldContents_eq, fieldContents_eq]
      cases Entries.get? key fields with
      | none => cases Entries.get? key fields' <;> simp
      | some v => cases Entries.get? key fields' <;> simp
    calc
      (Value.obj fields).content reading = (Value.obj fields').content reading
          ↔ ∀ key, fieldContents reading fields key = fieldContents reading fields' key := by
            rw [content, content, Content.map.injEq, funext_iff]
      _ ↔ PartsRelated (fun v w => v.content reading = w.content reading)
            (.obj fields) (.obj fields') := (forall_congr' hkey).trans partsRelated_obj_iff.symm
      _ ↔ _ := (and_iff_right hsurface).symm
  · -- Values of all other kinds have no parts, nor have values of different kinds in common.
    cases reading <;> cases x <;> cases y <;>
      simp_all [content, surface, part?, TruthReading.content, PartsRelated]

/-! ## Equality of contents -/

/-- Lists are the same if their items are, one by one. -/
theorem sameItems_iff {items items' : List Value} :
    sameItems items items' = true ↔ List.Forall₂ (fun v w => v.sameAs w = true) items items' := by
  induction items generalizing items' with
  | nil => cases items' <;> simp [sameItems]
  | cons v rest ih => cases items' <;> simp [sameItems, ih]

/-- Fields are found again if each of them has a counterpart that is the same. -/
theorem sameFields_iff {fields : List (String × Value)} {fields' : Entries Value} :
    sameFields fields fields' = true ↔
      ∀ e ∈ fields, ∃ w, fields'.get? e.1 = some w ∧ e.2.sameAs w = true := by
  induction fields with
  | nil => simp [sameFields]
  | cons e rest ih =>
    rcases e with ⟨k, v⟩
    rw [sameFields, Bool.and_eq_true, ih, List.forall_mem_cons]
    cases fields'.get? k with
    | none => simp
    | some w => simp

/-- Values are the same if they are the same outside and part by part. -/
theorem sameAs_iff_parts (hx : x.Keyed) (hy : y.Keyed) :
    x.sameAs y = true ↔
      x.surface .numeric = y.surface .numeric ∧
        PartsRelated (fun v w => v.sameAs w = true) x y := by
  by_cases harr : ∃ items items', x = .arr items ∧ y = .arr items'
  · rcases harr with ⟨items, items', rfl, rfl⟩
    have hparts : sameItems items items' = true ↔
        PartsRelated (fun v w => v.sameAs w = true) (.arr items) (.arr items') := by
      rw [sameItems_iff, partsRelated_arr_iff]
    simpa [sameAs, surface] using hparts
  by_cases hobj : ∃ fields fields', x = .obj fields ∧ y = .obj fields'
  · rcases hobj with ⟨fields, fields', rfl, rfl⟩
    have hkeys : Entries.Distinct fields := hx [] fields .here
    have hkeys' : Entries.Distinct fields' := hy [] fields' .here
    have hparts : (fields.length = fields'.length ∧ sameFields fields fields' = true) ↔
        PartsRelated (fun v w => v.sameAs w = true) (.obj fields) (.obj fields') := by
      rw [sameFields_iff, partsRelated_obj_iff]
      rw [← Entries.rel_get?_iff hkeys hkeys']
    simpa [sameAs, surface] using hparts
  · -- Values of all other kinds have no parts, nor have values of different kinds in common.
    cases x <;> cases y <;>
      simp_all [sameAs, sameNumber, content, surface, part?, TruthReading.content, PartsRelated,
        Number.sameValue_iff]

/-- Values are equal if their contents are the same, truth values being read as numbers. -/
theorem sameAs_iff (hx : x.Keyed) (hy : y.Keyed) :
    x.sameAs y = true ↔ x.content .numeric = y.content .numeric := by
  induction x using holds_induction generalizing y with
  | within x ih =>
    have hparts : PartsRelated (fun v w => v.sameAs w = true) x y ↔
        PartsRelated (fun v w => v.content .numeric = w.content .numeric) x y := by
      refine partsRelated_congr ?_
      intro s v w hv hw
      have hholds : v.Holds s x := (part?_eq_some_iff hx).1 hv
      have hholds' : w.Holds s y := (part?_eq_some_iff hy).1 hw
      exact ih s v hholds (hx.of_at (.within hholds .here)) (hy.of_at (.within hholds' .here))
    rw [sameAs_iff_parts hx hy, content_eq_iff, hparts]

/-! ## Truth values and numbers -/

/-- At a place, one value holds a truth value and the other one a number. -/
def Mixed (place : Place) (x y : Value) : Prop :=
  ∃ b n, (Value.bool b).At place x ∧ (Value.num n).At place y ∨
    (Value.num n).At place x ∧ (Value.bool b).At place y

/-- A truth value is mixed with a number within parts that both values have. -/
theorem mixed_cons_iff (hx : x.Keyed) (hy : y.Keyed) :
    Mixed (s :: place) x y ↔
      ∃ v w, x.part? s = some v ∧ y.part? s = some w ∧ Mixed place v w := by
  simp only [Mixed, at_cons, part?_eq_some_iff hx, part?_eq_some_iff hy]
  constructor
  · intro h
    rcases h with ⟨b, n, hmixed | hmixed⟩
    · rcases hmixed with ⟨⟨v, hv, hb⟩, w, hw, hn⟩
      exact ⟨v, w, hv, hw, b, n, .inl ⟨hb, hn⟩⟩
    · rcases hmixed with ⟨⟨v, hv, hn⟩, w, hw, hb⟩
      exact ⟨v, w, hv, hw, b, n, .inr ⟨hn, hb⟩⟩
  · intro h
    rcases h with ⟨v, w, hv, hw, b, n, hmixed | hmixed⟩
    · rcases hmixed with ⟨hb, hn⟩
      exact ⟨b, n, .inl ⟨⟨v, hv, hb⟩, w, hw, hn⟩⟩
    · rcases hmixed with ⟨hn, hb⟩
      exact ⟨b, n, .inr ⟨⟨v, hv, hn⟩, w, hw, hb⟩⟩

/-- The surfaces that tell truth values from numbers agree if the others do and neither is mixed
with the other. -/
theorem surface_apart_iff :
    x.surface .apart = y.surface .apart ↔
      x.surface .numeric = y.surface .numeric ∧ ¬ Mixed [] x y := by
  unfold Mixed
  simp only [at_nil]
  cases x with
  | bool b => cases y <;> cases b <;> simp [surface, content, TruthReading.content]
  | _ => cases y <;> simp [surface, content, TruthReading.content]

/-- Truth values and numbers hold nothing. -/
theorem not_mixed_cons (h : Mixed [] x y) : ¬ Mixed (s :: place) x y := by
  have hnothing : ∀ {u : Value}, ¬ u.At (s :: place) x := by
    intro u hu
    rcases at_cons.1 hu with ⟨v, hv, -⟩
    rcases h with ⟨b, n, ⟨hx, -⟩ | ⟨hx, -⟩⟩
    · rw [← at_nil.1 hx] at hv
      cases hv
    · rw [← at_nil.1 hx] at hv
      cases hv
  intro hexists
  rcases hexists with ⟨b, n, ⟨hb, -⟩ | ⟨hn, -⟩⟩
  · exact hnothing hb
  · exact hnothing hn

/-- Contents are the same if they are the same with truth values read as numbers, and truth values
stand where truth values stand. -/
theorem content_apart_iff (hx : x.Keyed) (hy : y.Keyed) :
    x.content .apart = y.content .apart ↔
      x.content .numeric = y.content .numeric ∧ ∀ place, ¬ Mixed place x y := by
  induction x using holds_induction generalizing y with
  | within x ih =>
    have hbelow : (∀ s place, ¬ Mixed (s :: place) x y) ↔
        ∀ s v w, x.part? s = some v → y.part? s = some w → ∀ place, ¬ Mixed place v w := by
      simp only [mixed_cons_iff hx hy]
      grind
    have hparts : PartsRelated (fun v w => v.content .apart = w.content .apart) x y ↔
        PartsRelated (fun v w => v.content .numeric = w.content .numeric) x y ∧
          ∀ s place, ¬ Mixed (s :: place) x y := by
      rw [hbelow, ← partsRelated_and_iff]
      refine partsRelated_congr ?_
      intro s v w hv hw
      have hholds : v.Holds s x := (part?_eq_some_iff hx).1 hv
      have hholds' : w.Holds s y := (part?_eq_some_iff hy).1 hw
      exact ih s v hholds (hx.of_at (.within hholds .here)) (hy.of_at (.within hholds' .here))
    have hplaces : (∀ place, ¬ Mixed place x y) ↔
        ¬ Mixed [] x y ∧ ∀ s place, ¬ Mixed (s :: place) x y := by
      constructor
      · intro h
        exact ⟨h [], fun s place => h (s :: place)⟩
      · intro h place
        rcases h with ⟨hhere, hbelow⟩
        cases place with
        | nil => exact hhere
        | cons s place => exact hbelow s place
    rw [content_eq_iff, content_eq_iff, surface_apart_iff, hparts, hplaces]
    exact and_and_and_comm

end Value

namespace Allowed

open Value

variable {x y : Value}

/-- Only at the outermost place truth values are kept apart from numbers. -/
theorem equal_iff_sameAs : equal x y = true ↔ x.sameAs y = true ∧ ¬ Mixed [] x y := by
  unfold Mixed
  simp only [at_nil]
  cases x with
  | bool b =>
    cases y with
    | bool b' => cases b <;> cases b' <;> simp [equal, sameAs, sameNumber, Number.sameValue_iff]
    | _ => simp [equal, sameAs, sameNumber]
  | _ => cases y <;> simp [equal, sameAs, sameNumber]

/-- Equality is equality of the contents in which truth values are numbers, but for the outermost
values. -/
theorem equal_iff (hx : x.Keyed) (hy : y.Keyed) :
    equal x y = true ↔
      x.content .numeric = y.content .numeric ∧ x.surface .apart = y.surface .apart := by
  calc
    equal x y = true
        ↔ x.sameAs y = true ∧ ¬ Mixed [] x y := equal_iff_sameAs
    _ ↔ x.content .numeric = y.content .numeric ∧ ¬ Mixed [] x y := by rw [sameAs_iff hx hy]
    _ ↔ x.content .numeric = y.content .numeric ∧ x.surface .apart = y.surface .apart := by
      refine and_congr_right ?_
      intro hcontent
      -- Equal contents have the same surface but for the truth values.
      have hsurface : x.surface .numeric = y.surface .numeric := (content_eq_iff.1 hcontent).1
      rw [surface_apart_iff]
      exact (and_iff_right hsurface).symm

/-- Equality is an equivalence of values in which no object has a key twice. -/
theorem equivalence_equal :
    Equivalence fun x y : { v : Value // v.Keyed } => equal x y = true := by
  constructor
  case refl =>
    intro x
    exact (equal_iff x.2 x.2).2 ⟨rfl, rfl⟩
  case symm =>
    intro x y h
    rcases (equal_iff x.2 y.2).1 h with ⟨hcontent, hsurface⟩
    exact (equal_iff y.2 x.2).2 ⟨hcontent.symm, hsurface.symm⟩
  case trans =>
    intro x y z h h'
    rcases (equal_iff x.2 y.2).1 h with ⟨hcontent, hsurface⟩
    rcases (equal_iff y.2 z.2).1 h' with ⟨hcontent', hsurface'⟩
    exact (equal_iff x.2 z.2).2 ⟨hcontent.trans hcontent', hsurface.trans hsurface'⟩

/-- On values in which no object has a key twice, the equality of allow-lists is equality of
contents, with truth values apart from numbers, except for two containers that would have the same
content if the truth values were numbers, and of which one holds a truth value where the other one
holds a number. With these exceptions, too, it is an equivalence. -/
theorem equal_exact_iff (x y : { v : Value // v.Keyed }) :
    ((equal x y = true ↔ x.1.content .apart = y.1.content .apart) ↔
        ¬ (x.1.content .numeric = y.1.content .numeric ∧ ∃ place ≠ [], Mixed place x.1 y.1)) ∧
      Equivalence fun v w : { v : Value // v.Keyed } => equal v w = true := by
  refine ⟨?_, equivalence_equal⟩
  obtain ⟨x, hx⟩ := x
  obtain ⟨y, hy⟩ := y
  rw [equal_iff_sameAs, sameAs_iff hx hy, content_apart_iff hx hy]
  by_cases hhere : Mixed [] x y
  · -- At the outermost place the two are told apart.
    have hbelow : ¬ ∃ place ≠ [], Mixed place x y := by
      intro hexists
      rcases hexists with ⟨place, hplace, hmixed⟩
      cases place with
      | nil => exact hplace rfl
      | cons s place => exact not_mixed_cons hhere hmixed
    have hnone : ¬ ∀ place, ¬ Mixed place x y := fun h => h [] hhere
    simp [hhere, hbelow, hnone]
  · have hplaces : (∀ place, ¬ Mixed place x y) ↔ ¬ ∃ place ≠ [], Mixed place x y := by
      constructor
      · intro h hexists
        rcases hexists with ⟨place, -, hmixed⟩
        exact h place hmixed
      · intro h place hmixed
        by_cases hplace : place = []
        · exact hhere (hplace ▸ hmixed)
        · exact h ⟨place, hplace, hmixed⟩
    simp only [hplaces, hhere, not_false_eq_true, and_true, not_and, not_exists]
    tauto

/-- A list of a truth value equals the list of the number that it is taken for. -/
theorem truth_in_list_equals_number :
    (Value.arr [.bool true]).Keyed ∧ (Value.arr [.int 1]).Keyed ∧
      equal (.arr [.bool true]) (.arr [.int 1]) = true ∧
      (Value.arr [.bool true]).content .apart ≠ (Value.arr [.int 1]).content .apart := by
  refine ⟨keyed_arr_iff.2 ?_, keyed_arr_iff.2 ?_, by decide +kernel, ?_⟩
  · simpa using keyed_bool true
  · simpa [Value.int] using keyed_num (.int 1)
  · simp [content, contents, TruthReading.content, Value.int]

end Allowed
end Workflows
