import Workflows.Text.Blank
import Workflows.Text.Pieces

/-!
# Numeral — whole numbers in writing

A numeral is a minus sign or none, and decimal digits. People write numbers in more ways: with white
space around them, a plus sign, zeros even in front of the minus sign, a point with zeros behind, or
single underscores between digits. The function `tidy?` takes all that away, and `strict` reads what
is left.

Main definitions:

* `Numeral.strict` — the number of a numeral;
* `Numeral.tidy?` — the numeral that a text stands for;
* `Numeral.read` — the number of a text.
-/

namespace Workflows

inductive NumeralFault
  | malformed
  | tooLong
  deriving DecidableEq, Repr

namespace Numeral

def maxLength : Nat := 4300

def digitsValue (ds : List Char) : Nat :=
  ds.foldl (fun n c => n * 10 + (c.toNat - '0'.toNat)) 0

def strict (cs : List Char) : Except NumeralFault Int :=
  let (negative, digits) :=
    match cs with
    | '-' :: rest => (true, rest)
    | _ => (false, cs)
  if digits.isEmpty || !digits.all Char.isDigit then .error .malformed
  else if maxLength < cs.length then .error .tooLong
  else
    let n : Int := digitsValue digits
    .ok (if negative then -n else n)

/-! ## Other ways of writing -/

def trim (cs : List Char) : List Char :=
  ((cs.dropWhile Text.isSpace).reverse.dropWhile Text.isSpace).reverse

/-- What is left without a plus sign, which no other sign may follow. -/
def withoutPlus? : List Char → Option (List Char)
  | '+' :: '-' :: _ => none
  | '+' :: rest => some rest
  | cs => some cs

/-- What is left behind a zero and the zeros and underscores that follow it. The last of them stays
unless another digit or a minus sign comes next. -/
def behindZeros? (last : Char) : List Char → Option (List Char)
  | [] => some [last]
  | c :: rest =>
    if c == '0' || c == '_' then behindZeros? c rest
    else if c.isDigit || c == '-' then some (c :: rest)
    else if c == '.' then some (last :: c :: rest)
    else none

/-- What is left without the zeros in front. Those behind a minus sign stay, since they make no
difference to the number. -/
def withoutZeros? : List Char → Option (List Char)
  | [] => none
  | c :: rest =>
    if c == '0' then behindZeros? c rest
    else if c.isDigit || c == '-' then some (c :: rest)
    else none

/-- What is left without a point that has nothing but zeros behind it. -/
def withoutFraction (cs : List Char) : List Char :=
  match cs.dropWhile (· != '.') with
  | '.' :: zeros => if zeros.all (· == '0') then cs.takeWhile (· != '.') else cs
  | _ => cs

/-- What is left without underscores, if they stand alone and neither first nor last. -/
def withoutUnderscores (cs : List Char) : List Char :=
  if cs.head? == some '_' || cs.getLast? == some '_' || Text.occursIn ['_', '_'] cs then cs
  else cs.filter (· != '_')

/-- The numeral that a text stands for, as far as its beginning can be that of one. -/
def tidy? (cs : List Char) : Option (List Char) :=
  ((withoutPlus? (trim cs)).bind withoutZeros?).map fun cs =>
    withoutUnderscores (withoutFraction cs)

def read (s : String) : Except NumeralFault Int :=
  match tidy? s.toList with
  | some cs => strict cs
  | none => .error .malformed

end Numeral
end Workflows
