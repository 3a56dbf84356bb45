import Mathlib.Data.List.Infix
import Workflows.TypeName

/-!
# TypeName — the two forms of the name of a type

The short form of a name differs from the full one in the package alone. It is not shortened any
further, and the part of the name behind the package is the same in both.

Main definitions:

* `TypeName.normalize_cases` — what is shortened, and to what;
* `TypeName.normalize_normalize`, `TypeName.short_normalize` — short names are stable;
* `TypeName.normalize_denormalize_eq`, `TypeName.denormalize_normalize` — neither form is lost by
  going over to the other;
* `TypeName.formFault?_of_isShortForm` — documents may not use short names.
-/

namespace Workflows

namespace Text

/-- What follows the last separator is behind everything that ends with one. -/
theorem afterLast_append {sep : Char} {front : String} (h : front.toList.getLast? = some sep)
    (rest : String) : afterLast sep (front ++ rest) = afterLast sep rest := by
  rcases List.getLast?_eq_some_iff.1 h with ⟨before, hfront⟩
  have htake : (rest.toList.reverse ++ sep :: before.reverse).takeWhile (· != sep) =
      rest.toList.reverse.takeWhile (· != sep) := by
    rw [List.takeWhile_append]
    split
    · rename_i hall
      have hwhole := (List.takeWhile_prefix (· != sep)).eq_of_length hall
      simp [hwhole]
    · rfl
  have hreverse : (front ++ rest).toList.reverse = rest.toList.reverse ++ sep :: before.reverse := by
    rw [String.toList_append, hfront]
    simp
  unfold afterLast
  rw [hreverse, htake]

theorem eq_append_of_dropFront? {front s rest : String} (h : dropFront? front s = some rest) :
    s = front ++ rest := by
  rcases Option.map_eq_some_iff.1 h with ⟨cs, hcs, rfl⟩
  have hbehind : ∀ xs ys : List Char, xs.isPrefixOf? ys = some cs → ys = xs ++ cs := by
    intro xs
    induction xs with
    | nil => simp [List.isPrefixOf?]
    | cons x xs ih =>
      intro ys hys
      cases ys with
      | nil => simp [List.isPrefixOf?] at hys
      | cons y ys =>
        by_cases hxy : x = y
        · subst hxy
          rw [ih ys (by simpa [List.isPrefixOf?] using hys)]
          rfl
        · simp [List.isPrefixOf?, hxy] at hys
  refine String.toList_injective ?_
  rw [hbehind _ _ hcs, String.toList_append, String.toList_ofList]

theorem startsWith_of_dropFront? {front s : String} (h : dropFront? front s = none) :
    startsWith front s = false := by
  have hfront : ∀ xs ys : List Char, xs.isPrefixOf? ys = none → xs.isPrefixOf ys = false := by
    intro xs
    induction xs with
    | nil => simp [List.isPrefixOf?]
    | cons x xs ih =>
      intro ys hys
      cases ys with
      | nil => rfl
      | cons y ys =>
        by_cases hxy : x = y
        · subst hxy
          simpa [List.isPrefixOf] using ih ys (by simpa [List.isPrefixOf?] using hys)
        · simp [List.isPrefixOf, hxy]
  exact hfront _ _ (Option.map_eq_none_iff.1 h)

end Text

namespace TypeName

theorem normalize_cases (type : String) :
    normalize type = type ∨
      ∃ p ∈ packages, ∃ rest, type = p.1 ++ rest ∧ normalize type = p.2 ++ rest := by
  have hnormalize : normalize type = (packages.findSome? fun p =>
      (Text.dropFront? p.1 type).map (p.2 ++ ·)).getD type := rfl
  rw [hnormalize]
  cases h : packages.findSome? fun p => (Text.dropFront? p.1 type).map (p.2 ++ ·) with
  | none => exact Or.inl rfl
  | some name =>
    rcases List.exists_of_findSome?_eq_some h with ⟨p, hp, hname⟩
    rcases Option.map_eq_some_iff.1 hname with ⟨rest, hrest, rfl⟩
    exact Or.inr ⟨p, hp, rest, Text.eq_append_of_dropFront? hrest, rfl⟩

/-- The name within the package is the same in both forms. -/
@[simp] theorem short_normalize (type : String) : short (normalize type) = short type := by
  rcases normalize_cases type with h | ⟨p, hp, rest, htype, hnormalize⟩
  · rw [h]
  · have hpoints : ∀ p ∈ packages, p.1.toList.getLast? = some '.' ∧
        p.2.toList.getLast? = some '.' := by decide
    rcases hpoints p hp with ⟨hfull, hshort⟩
    -- Both names of the package end in a point, and what comes behind it is the same.
    calc short (normalize type)
        = Text.afterLast '.' rest := by
          rw [hnormalize, short, Text.afterLast_append hshort]
      _ = short type := by
          rw [htype, short, Text.afterLast_append hfull]

/-- A short name does not begin like a full one. -/
theorem normalize_short {p : String × String} (hp : p ∈ packages) (rest : String) :
    normalize (p.2 ++ rest) = p.2 ++ rest := by
  simp only [packages, List.mem_cons, List.not_mem_nil, or_false] at hp
  rcases hp with rfl | rfl <;>
    simp [normalize, packages, Text.dropFront?, List.isPrefixOf?, String.toList_append]

@[simp] theorem normalize_normalize (type : String) :
    normalize (normalize type) = normalize type := by
  rcases normalize_cases type with h | ⟨p, hp, rest, -, h⟩
  · rw [h, h]
  · rw [h, normalize_short hp]

/-- A name is prolonged if it has the form that only catalogs use. -/
theorem denormalize_cases (type : String) :
    denormalize type = type ∧ isShortForm type = false ∨
      ∃ p ∈ packages, ∃ rest, type = p.2 ++ rest ∧ denormalize type = p.1 ++ rest := by
  have hdenormalize : denormalize type = (packages.findSome? fun p =>
      (Text.dropFront? p.2 type).map (p.1 ++ ·)).getD type := rfl
  rw [hdenormalize]
  cases h : packages.findSome? fun p => (Text.dropFront? p.2 type).map (p.1 ++ ·) with
  | none =>
    refine Or.inl ⟨rfl, List.any_eq_false.2 ?_⟩
    intro p hp
    have hdrop := List.findSome?_eq_none_iff.1 h p hp
    simp [Text.startsWith_of_dropFront? (Option.map_eq_none_iff.1 hdrop)]
  | some name =>
    rcases List.exists_of_findSome?_eq_some h with ⟨p, hp, hname⟩
    rcases Option.map_eq_some_iff.1 hname with ⟨rest, hrest, rfl⟩
    exact Or.inr ⟨p, hp, rest, Text.eq_append_of_dropFront? hrest, rfl⟩

/-- A full name begins with no other package than its own. -/
theorem normalize_full {p : String × String} (hp : p ∈ packages) (rest : String) :
    normalize (p.1 ++ rest) = p.2 ++ rest := by
  simp only [packages, List.mem_cons, List.not_mem_nil, or_false] at hp
  rcases hp with rfl | rfl <;>
    simp [normalize, packages, Text.dropFront?, List.isPrefixOf?, String.toList_append]

/-- A full name does not begin like a short one. -/
theorem isShortForm_full {p : String × String} (hp : p ∈ packages) (rest : String) :
    isShortForm (p.1 ++ rest) = false := by
  simp only [packages, List.mem_cons, List.not_mem_nil, or_false] at hp
  rcases hp with rfl | rfl <;>
    simp [isShortForm, packages, Text.startsWith, List.isPrefixOf, String.toList_append]

/-- A name is prolonged to one of the same short form. -/
@[simp] theorem normalize_denormalize_eq (type : String) :
    normalize (denormalize type) = normalize type := by
  rcases denormalize_cases type with ⟨hsame, -⟩ | ⟨p, hp, rest, htype, hfull⟩
  · rw [hsame]
  · rw [hfull, normalize_full hp, htype, normalize_short hp]

/-- A short name is what its full form is shortened to. -/
theorem normalize_denormalize {type : String} (h : normalize type = type) :
    normalize (denormalize type) = type := by
  rw [normalize_denormalize_eq, h]

@[simp] theorem isShortForm_denormalize (type : String) :
    isShortForm (denormalize type) = false := by
  rcases denormalize_cases type with ⟨hsame, hform⟩ | ⟨p, hp, rest, -, hfull⟩
  · rw [hsame, hform]
  · rw [hfull, isShortForm_full hp]

theorem denormalize_of_isShortForm_eq_false {type : String} (h : isShortForm type = false) :
    denormalize type = type := by
  rcases denormalize_cases type with ⟨hsame, -⟩ | ⟨p, hp, rest, htype, -⟩
  · exact hsame
  · have hbegins : Text.startsWith p.2 (p.2 ++ rest) = true := by
      simp [Text.startsWith]
    rw [isShortForm, htype] at h
    exact absurd hbegins (by simpa using List.any_eq_false.1 h p hp)

@[simp] theorem denormalize_denormalize (type : String) :
    denormalize (denormalize type) = denormalize type :=
  denormalize_of_isShortForm_eq_false (isShortForm_denormalize type)

/-- A short name begins with no other package than its own. -/
theorem denormalize_short {p : String × String} (hp : p ∈ packages) (rest : String) :
    denormalize (p.2 ++ rest) = p.1 ++ rest := by
  simp only [packages, List.mem_cons, List.not_mem_nil, or_false] at hp
  rcases hp with rfl | rfl <;>
    simp [denormalize, packages, Text.dropFront?, List.isPrefixOf?, String.toList_append]

/-- A name is shortened to one of the same full form. -/
@[simp] theorem denormalize_normalize (type : String) :
    denormalize (normalize type) = denormalize type := by
  rcases normalize_cases type with hsame | ⟨p, hp, rest, htype, hshort⟩
  · rw [hsame]
  · rw [hshort, denormalize_short hp, htype,
      denormalize_of_isShortForm_eq_false (isShortForm_full hp rest)]

/-! ## Names that documents may use -/

/-- A name without a fault is a full one, or that of an unknown package. -/
theorem isShortForm_of_formFault? {type : String} (h : formFault? type = none) :
    isShortForm type = false := by
  unfold formFault? at h
  split at h
  · exact absurd h (by simp)
  · split at h
    · exact absurd h (by simp)
    · rename_i hshort
      simpa using hshort

/-- All short names have a package, so they are refused for what they are. -/
theorem formFault?_of_isShortForm {type : String} (h : isShortForm type = true) :
    formFault? type = some (.shortForm type) := by
  rcases denormalize_cases type with ⟨-, hfull⟩ | ⟨p, hp, rest, htype, -⟩
  · rw [h] at hfull
    exact absurd hfull (by simp)
  · have hpoint : ∀ p ∈ packages, '.' ∈ p.2.toList := by decide
    have hpackage : '.' ∈ type.toList := by
      rw [htype, String.toList_append]
      exact List.mem_append_left _ (hpoint p hp)
    simp [formFault?, hpackage, h]

end TypeName
end Workflows
