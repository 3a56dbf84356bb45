import Mathlib.Data.List.Infix
import Workflows.Text.Pieces

/-!
# Pieces — what searches in texts find

A text is put together of parts with a mark between them. What is searched for in the whole lies in
one of the parts if it does not hold the first character of the mark, and the part before the first
mark is the first part if that part holds no mark itself.

Main definitions:

* `Text.occursIn_iff`, `Text.contains_iff` — searches, and parts of a text;
* `Text.part_of_append_cons` — what lies on one side of a character;
* `Text.beforeMark_eq_iff` — when the first part is recovered.
-/

namespace Workflows
namespace Text

variable {c : Char} {needle cs l r : List Char} {n s t : String}

theorem head?_append (h : s.toList.head? = some c) : (s ++ t).toList.head? = some c := by
  rw [String.toList_append, List.head?_append, h]
  rfl

theorem occursIn_iff : occursIn needle cs = true ↔ needle <:+: cs := by
  induction cs with
  | nil => simp [occursIn]
  | cons c rest ih => simp [occursIn, List.infix_cons_iff, ih]

theorem contains_iff : contains n s = true ↔ n.toList <:+: s.toList := occursIn_iff

/-- What is found in a text is found in a longer one. -/
theorem contains_append_left (h : contains n s = true) : contains n (s ++ t) = true := by
  rw [contains_iff] at h ⊢
  rw [String.toList_append]
  exact h.trans (List.prefix_append _ _).isInfix

/-- What does not hold a character ends before it. -/
theorem front_of_append_cons (hc : c ∉ needle) : needle <+: l ++ c :: r ↔ needle <+: l := by
  induction l generalizing needle with
  | nil =>
    cases needle with
    | nil => simp
    | cons d ds =>
      have hd : d ≠ c := fun h => hc (h ▸ List.mem_cons_self)
      simp [List.cons_prefix_cons, hd]
  | cons e es ih =>
    cases needle with
    | nil => simp
    | cons d ds =>
      have hds : c ∉ ds := fun h => hc (List.mem_cons_of_mem _ h)
      rw [List.cons_append, List.cons_prefix_cons, List.cons_prefix_cons, ih hds]

/-- What does not hold a character lies on one side of it. -/
theorem part_of_append_cons (hc : c ∉ needle) :
    needle <:+: l ++ c :: r ↔ needle <:+: l ∨ needle <:+: r := by
  induction l with
  | nil =>
    have hfront : needle <+: c :: r ↔ needle <:+: [] := by
      simpa using front_of_append_cons (l := []) (r := r) hc
    rw [List.nil_append, List.infix_cons_iff, hfront]
  | cons d ds ih =>
    have hfront : needle <+: d :: (ds ++ c :: r) ↔ needle <+: d :: ds :=
      front_of_append_cons (l := d :: ds) hc
    rw [List.cons_append, List.infix_cons_iff, hfront, ih, ← or_assoc, ← List.infix_cons_iff]

/-- What begins with a character lies behind a text that does not hold it. -/
theorem part_of_append (hc : c ∉ l) : c :: needle <:+: l ++ r ↔ c :: needle <:+: r := by
  induction l with
  | nil => rfl
  | cons d ds ih =>
    simp only [List.mem_cons, not_or] at hc
    rw [List.cons_append, List.infix_cons_iff, ih hc.2, List.cons_prefix_cons]
    simp [hc.1]

/-- A text is searched for behind one in which its first character does not occur. -/
theorem contains_append {front : String} (hhead : n.toList.head? = some c)
    (hc : c ∉ front.toList) : contains n (front ++ s) = contains n s := by
  rcases List.head?_eq_some_iff.1 hhead with ⟨rest, hn⟩
  have hpart : n.toList <:+: (front ++ s).toList ↔ n.toList <:+: s.toList := by
    rw [String.toList_append, hn]
    exact part_of_append hc
  rw [Bool.eq_iff_iff, contains_iff, contains_iff]
  exact hpart

/-- A text is searched for on either side of a colon and a blank that are not part of it. -/
theorem contains_located {path message : String} (hcolon : ':' ∉ n.toList)
    (hhead : n.toList.head? = some c) (hc : c ≠ ' ') :
    contains n (path ++ ": " ++ message) = true ↔
      contains n path = true ∨ contains n message = true := by
  have hwhole : (path ++ ": " ++ message).toList =
      path.toList ++ ':' :: (" " ++ message).toList := by
    simp
  have hblank : contains n (" " ++ message) = contains n message :=
    contains_append hhead (by simpa using hc)
  calc contains n (path ++ ": " ++ message) = true
      ↔ n.toList <:+: path.toList ∨ n.toList <:+: (" " ++ message).toList := by
        rw [contains_iff, hwhole, part_of_append_cons hcolon]
    _ ↔ contains n path = true ∨ contains n message = true := by
        rw [← contains_iff, ← contains_iff, hblank]

/-- The part before the first mark is the part that was put there, if no mark stands in that. -/
theorem beforeMark_eq_iff :
    beforeMark [':', ' '] (l ++ ':' :: ' ' :: r) = l ↔ ¬ [':', ' '] <:+: l := by
  induction l with
  | nil => simp [beforeMark]
  | cons d ds ih =>
    have hfront : [':', ' '] <+: d :: (ds ++ ':' :: ' ' :: r) ↔ [':', ' '] <+: d :: ds := by
      cases ds <;> simp [List.cons_prefix_cons]
    simp only [List.cons_append, beforeMark, List.infix_cons_iff, List.isPrefixOf_iff_prefix, hfront]
    by_cases hmark : [':', ' '] <+: d :: ds
    · simp [hmark]
    · simp [hmark, ih]

end Text
end Workflows
