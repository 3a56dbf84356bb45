/-!
# Pieces — looking into texts and cutting them

Main definitions:

* `occursIn`, `startsWith`, `endsWith` — one text inside, before or behind another;
* `pieces` — the parts of a text between the occurrences of a separator;
* `afterLast` — the part behind the last occurrence of a separator;
* `beforeMark` — the part before the first occurrence of a longer mark.
-/

namespace Workflows
namespace Text

/-! ## On characters -/

/-- Whether `needle` is a contiguous part of the second text. -/
def occursIn (needle : List Char) : List Char → Bool
  | [] => needle.isEmpty
  | c :: rest => needle.isPrefixOf (c :: rest) || occursIn needle rest

/-- The parts of a text between the occurrences of `sep`; one more than there are separators. -/
def splitChars (sep : Char) : List Char → List (List Char)
  | [] => [[]]
  | c :: rest =>
    match splitChars sep rest with
    | [] => [[c]]
    | head :: tail => if c = sep then [] :: head :: tail else (c :: head) :: tail

theorem splitChars_ne_nil (sep : Char) (cs : List Char) : splitChars sep cs ≠ [] := by
  cases cs with
  | nil => simp [splitChars]
  | cons c rest =>
    simp only [splitChars]
    split
    · simp
    · split <;> simp

/-- The part before the first occurrence of `mark`, or the whole text when there is none. -/
def beforeMark (mark : List Char) : List Char → List Char
  | [] => []
  | c :: rest => if mark.isPrefixOf (c :: rest) then [] else c :: beforeMark mark rest

/-- How often `needle` occurs, counted from the left without overlap. The fuel bounds the number of
characters looked at. -/
def countFrom (needle : List Char) : Nat → List Char → Nat
  | 0, _ => 0
  | fuel + 1, cs =>
    match cs with
    | [] => 0
    | _ :: rest =>
      match needle.isPrefixOf? cs with
      | some behind => countFrom needle fuel behind + 1
      | none => countFrom needle fuel rest

/-- How often `needle` occurs, counted from the left without overlap. -/
def occurrences (needle cs : List Char) : Nat :=
  countFrom needle cs.length cs

/-! ## On strings -/

def startsWith (front s : String) : Bool :=
  front.toList.isPrefixOf s.toList

def endsWith (back s : String) : Bool :=
  back.toList.isSuffixOf s.toList

def contains (needle s : String) : Bool :=
  occursIn needle.toList s.toList

/-- What follows `front` in a text that begins with it. -/
def dropFront? (front s : String) : Option String :=
  (front.toList.isPrefixOf? s.toList).map String.ofList

/-- The parts of a text between the occurrences of a separator. -/
def pieces (sep : Char) (s : String) : List String :=
  (splitChars sep s.toList).map String.ofList

/-- The part behind the last occurrence of a separator, or the whole text when there is none. -/
def afterLast (sep : Char) (s : String) : String :=
  String.ofList (s.toList.reverse.takeWhile (· != sep)).reverse

def join (sep : String) (parts : List String) : String :=
  String.intercalate sep parts

end Text
end Workflows
