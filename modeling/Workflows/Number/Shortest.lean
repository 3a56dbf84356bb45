import Workflows.Number.Binary64

/-!
# Shortest — the decimal text of a binary64 number

The text has the fewest significant digits that still read back as the number, and of the decimals
with that many digits it shows the one nearest to the number. Numbers from `10 ^ -4` up to but not
including `10 ^ 16` are written positionally with at least one digit behind the point, all others
with a power of ten.

Main definitions:

* `Binary64.shortest` — the chosen decimal;
* `Binary64.text` — its layout.
-/

namespace Workflows
namespace Binary64

/-! ## The chosen decimal -/

/-- The reals that are rounded to a positive number, and the number itself, as numerators over one
denominator. The ends belong to the interval exactly when the place of the number is even. -/
structure Basin where
  low : Nat
  middle : Nat
  high : Nat
  den : Nat
  closed : Bool

/-- The basin of a number, in quarters of the unit of its last place. Below a power of two the
neighbouring numbers are only half as far away. -/
def basin (x : Binary64) : Basin :=
  let m := x.mantissa
  let lower := if m = leastNormal ∧ 2 * leastNormal ≤ x.place then 1 else 2
  let scale := fun (n : Nat) => (scaleTwo n 1 (x.exponent - 2)).1
  { low := scale (4 * m - lower)
    middle := scale (4 * m)
    high := scale (4 * m + 2)
    den := (scaleTwo 1 1 (x.exponent - 2)).2
    closed := m % 2 == 0 }

def belowPowerTen (num den : Nat) (k : Int) : Bool :=
  if k < 0 then num * tenTo (-k).toNat < den else num < den * tenTo k.toNat

/-- The least `p` with `num / den < 10 ^ p`, found among the three neighbours of an estimate from the
binary logarithm. -/
def decimalPoint (num den : Nat) : Int :=
  let guess := floorLog2 num den * 30103 / 100000
  if belowPowerTen num den guess then guess
  else if belowPowerTen num den (guess + 1) then guess + 1
  else guess + 2

/-- The multiple of `10 ^ grid` that lies in the basin and is nearest to its middle, if there is
one: one of the two neighbours of the middle. -/
def onGrid? (b : Basin) (grid : Int) : Option Nat :=
  let (up, den) := if grid < 0 then (tenTo (-grid).toNat, b.den) else (1, b.den * tenTo grid.toNat)
  let inside := fun (c : Nat) =>
    if b.closed then b.low * up ≤ c * den && c * den ≤ b.high * up
    else b.low * up < c * den && c * den < b.high * up
  let floor := b.middle * up / den
  let nearer := roundHalfEven (b.middle * up) den
  let farther := if nearer = floor then floor + 1 else floor
  if inside nearer then some nearer
  else if inside farther then some farther
  else none

/-- The first grid that has a point in the basin, from `digits` digits on; `fuel` grids are tried. -/
def shortestFrom (b : Basin) (point : Int) : Nat → Nat → Nat × Int
  | 0, digits => (b.middle / b.den, point - digits)
  | fuel + 1, digits =>
    match onGrid? b (point - digits) with
    | some c => (c, point - digits)
    | none => shortestFrom b point fuel (digits + 1)

/-- A decimal `c * 10 ^ k`, as the pair of `c` and `k`, with the fewest digits among those that are
rounded to the absolute value of the number. Seventeen digits always suffice. -/
def shortest (x : Binary64) : Nat × Int :=
  if x.mantissa = 0 then (0, 0)
  else
    let b := x.basin
    shortestFrom b (decimalPoint b.middle b.den) 17 1

/-! ## Layout -/

/-- The digits of a decimal without zeros at the end, and the power of ten of the first digit. -/
def digitsAndPower (c : Nat) (k : Int) : List Char × Int :=
  let all := Nat.toDigits 10 c
  let digits := (all.reverse.dropWhile (· == '0')).reverse
  (if digits.isEmpty then ['0'] else digits, k + all.length - 1)

/-- The positional text of the digits, the first of which stands for `10 ^ power`. -/
def positional (digits : List Char) (power : Int) : List Char :=
  if power < 0 then
    '0' :: '.' :: List.replicate (-power - 1).toNat '0' ++ digits
  else
    let whole := power.toNat + 1
    let front := digits.take whole ++ List.replicate (whole - digits.length) '0'
    let back := digits.drop whole
    front ++ '.' :: (if back.isEmpty then ['0'] else back)

/-- The text with a power of ten, whose exponent has a sign and at least two digits. -/
def scientific (digits : List Char) (power : Int) : List Char :=
  let exponent := Nat.toDigits 10 power.natAbs
  let padded := if exponent.length < 2 then '0' :: exponent else exponent
  digits.take 1 ++ (if digits.length ≤ 1 then [] else '.' :: digits.drop 1)
    ++ 'e' :: (if power < 0 then '-' else '+') :: padded

def text (x : Binary64) : String :=
  let (c, k) := x.shortest
  let (digits, power) := digitsAndPower c k
  let body :=
    if c = 0 then ['0', '.', '0']
    else if -4 ≤ power ∧ power < 16 then positional digits power
    else scientific digits power
  String.ofList (if x.negative then '-' :: body else body)

end Binary64
end Workflows
