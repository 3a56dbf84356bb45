/-!
# Similarity — how much two texts have in common

Two texts are compared by the runs of characters they share: the longest common run counts, and
then, in the same way, what lies before it and what lies behind it in both texts. Of several
longest runs the first one counts. The score of two texts is the share of their characters that
lie in common runs.

In long texts a frequent character starts no run; it only prolongs runs that others have started.

Main definitions:

* `Similarity.longest` — the longest common run;
* `Similarity.matched`, `Similarity.score` — the characters in common runs, and the score;
* `Similarity.closest` — the candidates that are most similar to a text.
-/

namespace Workflows
namespace Text
namespace Similarity

/-- A common run: where it starts in either text, and its length. -/
structure Run where
  left : Nat
  right : Nat
  size : Nat
  deriving DecidableEq, Repr

/-! ## The longest common run -/

/-- The lengths of the common runs that end at a character of the first text and at each of the
second, from those that end one character earlier. -/
def nextRow (counts : Char → Bool) (c : Char) (before : Nat) : List Char → List Nat → List Nat
  | d :: ds, n :: ns =>
    (if c = d ∧ counts d then before + 1 else 0) :: nextRow counts c n ds ns
  | _, _ => []

/-- The longer of a run and those that end at position `i` of the first text and from position `j`
on in the second. The earlier one stays when they are equal. -/
def longerIn (i : Nat) : Nat → List Nat → Run → Run
  | _, [], best => best
  | j, n :: ns, best =>
    longerIn i (j + 1) ns (if best.size < n then ⟨i + 1 - n, j + 1 - n, n⟩ else best)

/-- The longest run among the given one and those that end from position `i` on. -/
def longestFrom (counts : Char → Bool) (right : List Char) :
    Nat → List Char → List Nat → Run → Run
  | _, [], _, best => best
  | i, c :: cs, row, best =>
    let next := nextRow counts c 0 right row
    longestFrom counts right (i + 1) cs next (longerIn i 0 next best)

def commonFront : List Char → List Char → Nat
  | a :: as, b :: bs => if a = b then commonFront as bs + 1 else 0
  | _, _ => 0

/-- A run prolonged to both sides as far as the texts agree. -/
def prolong (left right : List Char) (r : Run) : Run :=
  let front := commonFront (left.take r.left).reverse (right.take r.right).reverse
  let back := commonFront (left.drop (r.left + r.size)) (right.drop (r.right + r.size))
  ⟨r.left - front, r.right - front, front + r.size + back⟩

/-- The longest common run of two texts, of which characters that do not count start none. -/
def longest (counts : Char → Bool) (left right : List Char) : Run :=
  prolong left right
    (longestFrom counts right 0 left (right.map fun _ => 0) ⟨0, 0, 0⟩)

/-! ## Scores -/

/-- The number of characters in the longest common run and in those on both sides of it. -/
def matched (counts : Char → Bool) (left right : List Char) : Nat :=
  match longest counts left right with
  | ⟨i, j, n⟩ =>
    -- The second part always holds; it lets the parts be seen to be shorter.
    if 0 < n ∧ i + n ≤ left.length then
      matched counts (left.take i) (right.take j) + n
        + matched counts (left.drop (i + n)) (right.drop (j + n))
    else 0
termination_by left.length
decreasing_by
  all_goals simp only [List.length_take, List.length_drop]; omega

/-- Whether a character of a text is frequent: the text has at least two hundred characters, and
more than one in a hundred is this one. -/
def isFrequent (text : List Char) (c : Char) : Bool :=
  decide (200 ≤ text.length) && decide (text.length / 100 + 1 < text.count c)

/-- The number of characters in common runs and the number of all characters of both texts. The
score is twice the first divided by the second. -/
structure Score where
  shared : Nat
  total : Nat
  deriving DecidableEq, Repr

/-- The score of a candidate for a text. Two empty texts are alike. -/
def score (candidate text : String) : Score :=
  let left := candidate.toList
  let right := text.toList
  -- Any score of which twice the first part is the second would do.
  if left.length + right.length = 0 then ⟨1, 2⟩
  else ⟨matched (fun c => !isFrequent right c) left right, left.length + right.length⟩

namespace Score

/-- Whether at least three fifths of the characters are shared. -/
def isClose (s : Score) : Bool :=
  decide (3 * s.total ≤ 5 * (2 * s.shared))

def less (s t : Score) : Bool :=
  decide (s.shared * t.total < t.shared * s.total)

end Score

/-- Whether the first of two scored candidates is the better one; the later text is, when the
scores are equal. -/
def better (a b : Score × String) : Bool :=
  b.1.less a.1 || (!a.1.less b.1 && !decide (a.2 < b.2))

/-- The candidates close to a text, the closest ones first, at most `limit` of them. -/
def closest (limit : Nat) (text : String) (candidates : List String) : List String :=
  let scored := (candidates.map fun c => (score c text, c)).filter fun s => s.1.isClose
  ((scored.mergeSort better).take limit).map Prod.snd

end Similarity
end Text
end Workflows
