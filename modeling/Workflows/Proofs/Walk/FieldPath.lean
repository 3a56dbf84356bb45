import Mathlib.Data.List.Infix
import Workflows.Proofs.Catalog.Coherence
import Workflows.Proofs.Walk.Exact

/-!
# FieldPath — places read back from their paths

A field path puts a point before each key and a bracket before each index, except that no point
stands before a key that comes first. If no key holds one of these two marks, the path can be cut
before each mark into the steps again. So the places of a walk have different paths, and a path
names one value of the tree.

Main definitions:

* `Place.ofFieldPath` — the place that a path is read as;
* `Value.WellNamed` — the trees whose keys have no marks in them;
* `Place.ofFieldPath_fieldPath` — what is read from the path of a place is the place;
* `Walk.fieldPath_identifies` — the visits of a walk and their paths.
-/

namespace Workflows

/-! ## Reading a path -/

/-- The number at the beginning of a text. -/
def Place.number (text : List Char) : Nat :=
  Nat.ofDigitChars 10 (text.takeWhile Char.isDigit) 0

/-- Cuts a text before each mark: what stands before the first mark, and the steps behind it. -/
def Place.cut : List Char → List Char × Place
  | [] => ([], [])
  | c :: rest =>
    let (front, steps) := cut rest
    if c = '.' then ([], .key (String.ofList front) :: steps)
    else if c = '[' then ([], .index (number front) :: steps)
    else (c :: front, steps)

/-- The place that a path is read as. What stands before the first mark is a key. -/
def Place.ofFieldPath (path : String) : Place :=
  let (front, steps) := cut path.toList
  if front = [] then steps else .key (String.ofList front) :: steps

/-- No mark of a path stands in the text. -/
def Place.Unmarked (text : List Char) : Prop :=
  '.' ∉ text ∧ '[' ∉ text

instance (text : List Char) : Decidable (Place.Unmarked text) :=
  inferInstanceAs (Decidable (_ ∧ _))

/-- The steps that can be told apart in a path: an index, or a key that is not empty and holds no
mark. -/
inductive PlaceStep.Legible : PlaceStep → Prop
  | index (i : Nat) : Legible (.index i)
  | key {name : String} (hname : name ≠ "") (hmarks : Place.Unmarked name.toList) :
      Legible (.key name)

namespace PlaceStep

def marked : PlaceStep → List Char
  | .index i => '[' :: (toString i).toList ++ [']']
  | .key name => '.' :: name.toList

/-- A path grows by the written form of the step. -/
theorem toList_extend {text : String} (h : text ≠ "") (s : PlaceStep) :
    (Place.extend text s).toList = text.toList ++ s.marked := by
  cases s with
  | index i => simp [Place.extend, marked]
  | key name => simp [Place.extend, marked, h]

/-- A path that is not empty stays so. -/
theorem extend_ne_empty {text : String} (h : text ≠ "") (s : PlaceStep) :
    Place.extend text s ≠ "" := by
  intro heq
  have hchars := congrArg String.toList heq
  rw [toList_extend h, String.toList_empty, List.append_eq_nil_iff] at hchars
  exact h (String.toList_eq_nil_iff.1 hchars.1)

end PlaceStep

namespace Place

open PlaceStep

variable {place : Place}

/-- The path of a place: its steps with their marks, behind the text that stands there already. -/
theorem toList_foldl_extend {text : String} (h : text ≠ "") (place : Place) :
    (place.foldl extend text).toList = text.toList ++ place.flatMap marked := by
  induction place generalizing text with
  | nil => simp
  | cons s rest ih =>
    calc ((s :: rest).foldl extend text).toList
        = (extend text s).toList ++ rest.flatMap marked := by
          rw [List.foldl_cons, ih (extend_ne_empty h s)]
      _ = text.toList ++ (s :: rest).flatMap marked := by
          rw [toList_extend h, List.flatMap_cons, List.append_assoc]

/-- What stands before the first mark of a path is its first name. -/
theorem cut_append {front : List Char} (h : Unmarked front) (rest : List Char) :
    cut (front ++ rest) = (front ++ (cut rest).1, (cut rest).2) := by
  induction front with
  | nil => rfl
  | cons c front ih =>
    obtain ⟨hpoint, hbracket⟩ := h
    rw [List.mem_cons, not_or] at hpoint hbracket
    rw [List.cons_append, cut, ih ⟨hpoint.2, hbracket.2⟩]
    simp [Ne.symm hpoint.1, Ne.symm hbracket.1]

/-- The digits of a number are followed by the bracket that closes an index. -/
theorem number_digits (n : Nat) : number (Nat.toDigits 10 n ++ [']']) = n := by
  have hdigits : ∀ c ∈ Nat.toDigits 10 n, Char.isDigit c = true := fun c hc =>
    Nat.isDigit_of_mem_toDigits (by decide) (by decide) hc
  have hfront : (Nat.toDigits 10 n ++ [']']).takeWhile Char.isDigit = Nat.toDigits 10 n := by
    rw [List.takeWhile_append_of_pos hdigits]
    simp
  rw [number, hfront, Nat.ofDigitChars_ten_toDigits]

/-- The digits of an index contain no marks. -/
theorem unmarked_digits (n : Nat) : Unmarked (Nat.toDigits 10 n ++ [']']) := by
  have hdigits : ∀ c ∈ Nat.toDigits 10 n, Char.isDigit c = true := fun c hc =>
    Nat.isDigit_of_mem_toDigits (by decide) (by decide) hc
  constructor <;> intro hmem <;> rcases List.mem_append.1 hmem with hdigit | hclose
  · exact absurd (hdigits _ hdigit) (by decide)
  · exact absurd hclose (by decide)
  · exact absurd (hdigits _ hdigit) (by decide)
  · exact absurd hclose (by decide)

/-- A step is cut off as it was written, if what follows it begins with a mark. -/
theorem cut_marked {s : PlaceStep} (h : s.Legible) {rest : List Char} {steps : Place}
    (hrest : cut rest = ([], steps)) : cut (s.marked ++ rest) = ([], s :: steps) := by
  cases h with
  | index i =>
    have hchars : marked (.index i) = '[' :: (Nat.toDigits 10 i ++ [']']) := by
      have htext : toString (i : Int) = toString i := rfl
      rw [marked, htext, Nat.toString_eq_repr, Nat.toList_repr]
      rfl
    rw [hchars, List.cons_append, cut, cut_append (unmarked_digits i), hrest]
    simp [number_digits]
  | @key name hname hmarks =>
    rw [marked, List.cons_append, cut, cut_append hmarks, hrest]
    simp

/-- A written place is cut at the marks into the steps that it was written from. -/
theorem cut_flatMap_marked (h : ∀ s ∈ place, s.Legible) :
    cut (place.flatMap marked) = ([], place) := by
  induction place with
  | nil => rfl
  | cons s rest ih =>
    rcases List.forall_mem_cons.1 h with ⟨hs, hrest⟩
    rw [List.flatMap_cons, cut_marked hs (ih hrest)]

/-- What is read from the path of a place is the place. -/
theorem ofFieldPath_fieldPath (h : ∀ s ∈ place, s.Legible) :
    ofFieldPath place.fieldPath = place := by
  -- The first step is written in its own way; behind it, each step has its mark.
  cases place with
  | nil => rfl
  | cons s rest =>
    rcases List.forall_mem_cons.1 h with ⟨hs, hrest⟩
    cases hs with
    | index i =>
      -- An index is written in the same way at the beginning.
      have hchars : (fieldPath (.index i :: rest)).toList =
          (.index i :: rest : Place).flatMap marked := by
        have hne : extend "" (.index i) ≠ "" := by simp [extend]
        rw [fieldPath, List.foldl_cons, toList_foldl_extend hne, List.flatMap_cons]
        simp [extend, marked]
      rw [ofFieldPath, hchars, cut_flatMap_marked h]
      rfl
    | @key name hname hmarks =>
      have hchars : (fieldPath (.key name :: rest)).toList =
          name.toList ++ rest.flatMap marked := by
        have hfirst : extend "" (.key name) = name := by simp [extend]
        rw [fieldPath, List.foldl_cons, hfirst, toList_foldl_extend hname]
      rw [ofFieldPath, hchars, cut_append hmarks, cut_flatMap_marked hrest]
      simp [hname]

end Place

/-! ## Paths of a tree -/

namespace Value

/-- No key of the tree is empty or holds a mark of paths. -/
def WellNamed (tree : Value) : Prop :=
  ∀ place fields, (Value.obj fields).At place tree →
    ∀ key ∈ Entries.keys fields, key ≠ "" ∧ Place.Unmarked key.toList

variable {tree v : Value} {place : Place}

/-- The parts of a well-named value are well-named. -/
theorem WellNamed.part {s : PlaceStep} {inner : Value} (h : tree.WellNamed)
    (hholds : inner.Holds s tree) : inner.WellNamed :=
  fun place fields hat => h (s :: place) fields (.within hholds hat)

/-- Every step to a place within a well-named value is legible. -/
theorem WellNamed.legible (h : tree.WellNamed) (hat : v.At place tree) :
    ∀ s ∈ place, s.Legible := by
  induction hat with
  | here => exact List.forall_mem_nil _
  | @within s place inner tree hholds _ ih =>
    refine List.forall_mem_cons.2 ⟨?_, ih (h.part hholds)⟩
    cases hholds with
    | @item items i hitem => exact .index i
    | @field fields key hfield =>
      obtain ⟨hname, hmarks⟩ := h [] fields .here key (List.mem_map.2 ⟨_, hfield, rfl⟩)
      exact .key hname hmarks

/-- The place of a value can be read from its path. -/
theorem WellNamed.ofFieldPath (h : tree.WellNamed) (hat : v.At place tree) :
    Place.ofFieldPath place.fieldPath = place :=
  Place.ofFieldPath_fieldPath (h.legible hat)

end Value

namespace Walk

/-- The path of a visit can be read as its place. So the paths of a walk are different, and each of
them is the path of one value of the tree. -/
theorem fieldPath_identifies (limits : WalkLimits) {tree : Value} (hkeys : tree.Keyed)
    (hnames : tree.WellNamed) :
    ((visits limits "" tree).map fun v => Place.ofFieldPath v.path) =
        (tree.positions.filter (isVisited limits)).map Prod.fst ∧
      ((visits limits "" tree).map Visit.path).Nodup ∧
      ∀ v ∈ visits limits "" tree, v.value.At (Place.ofFieldPath v.path) tree ∧
        ∀ place u, u.At place tree → place.fieldPath = v.path →
          place = Place.ofFieldPath v.path ∧ u = v.value := by
  have hread : ((visits limits "" tree).map fun v => Place.ofFieldPath v.path) =
      (tree.positions.filter (isVisited limits)).map Prod.fst := by
    rw [visits_eq, List.map_map]
    refine List.map_congr_left ?_
    intro e he
    exact hnames.ofFieldPath (Value.mem_positions_iff.1 (List.mem_filter.1 he).1)
  refine ⟨hread, ?_, ?_⟩
  · -- Two visits with one path would be at one place.
    have honce : ((tree.positions.filter (isVisited limits)).map Prod.fst).Nodup :=
      (Value.enumerates_positions hkeys).once.sublist (List.filter_sublist.map _)
    rw [← hread] at honce
    refine List.Nodup.of_map Place.ofFieldPath ?_
    rw [List.map_map]
    exact honce
  · intro v hv
    rw [visits_eq] at hv
    rcases List.mem_map.1 hv with ⟨⟨place, w⟩, hmem, rfl⟩
    have hw := Value.mem_positions_iff.1 (List.mem_filter.1 hmem).1
    have hplace : Place.ofFieldPath (visitOf "" (place, w)).path = place := hnames.ofFieldPath hw
    rw [hplace]
    refine ⟨hw, ?_⟩
    intro p u hu hpath
    have hp : p = place := by
      calc
        p = Place.ofFieldPath p.fieldPath := (hnames.ofFieldPath hu).symm
        _ = Place.ofFieldPath (visitOf "" (place, w)).path := by rw [hpath]
        _ = place := hplace
    subst hp
    exact ⟨rfl, hkeys.at_unique hu hw⟩

/-- A tree with a digit, a closing bracket and a blank in its keys. -/
def oddlyNamed : Value :=
  .obj [("0]", .arr [.null, .obj [("b c", .bool true)]]), ("0", .null)]

theorem fieldPath_identifies_oddlyNamed :
    oddlyNamed.Keyed ∧ oddlyNamed.WellNamed ∧
      (visits {} "" oddlyNamed).map Visit.path =
        ["", "0]", "0][0]", "0][1]", "0][1].b c", "0"] ∧
      ((visits {} "" oddlyNamed).map fun v => Place.ofFieldPath v.path) =
        [[], [.key "0]"], [.key "0]", .index 0], [.key "0]", .index 1],
          [.key "0]", .index 1, .key "b c"], [.key "0"]] ∧
      ∀ u : Value, u.At [.key "0]", .index 1, .key "b c"] oddlyNamed → u = .bool true := by
  have hobjects : ∀ place fields, (Value.obj fields).At place oddlyNamed →
      Entries.keys fields = ["0]", "0"] ∨ Entries.keys fields = ["b c"] := by
    intro place fields hat
    have hmem := Value.mem_positions_iff.2 hat
    simp [oddlyNamed, Value.positions, Value.fieldPositions, Value.itemPositions,
      Place.behind] at hmem
    rcases hmem with ⟨-, rfl⟩ | ⟨-, rfl⟩
    · exact .inl rfl
    · exact .inr rfl
  have hkeys : oddlyNamed.Keyed := by
    intro place fields hat
    rw [Entries.Distinct]
    rcases hobjects place fields hat with h | h <;> rw [h] <;> decide
  have hnames : oddlyNamed.WellNamed := by
    intro place fields hat
    rcases hobjects place fields hat with h | h <;> rw [h] <;> decide
  obtain ⟨hread, -, hone⟩ := fieldPath_identifies {} hkeys hnames
  refine ⟨hkeys, hnames, rfl, hread.trans rfl, fun u hu => ?_⟩
  have hvisit : (visits {} "" oddlyNamed)[4]? =
      some ⟨"0][1].b c", some (.key "b c"), .bool true⟩ := rfl
  exact ((hone _ (List.mem_of_getElem? hvisit)).2 _ u hu (by decide)).2

end Walk
end Workflows
