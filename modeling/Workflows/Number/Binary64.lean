/-!
# Binary64 — finite binary floating-point numbers

A finite binary64 number is given by its sign and by the place of its absolute value in the
increasing sequence of all non-negative finite ones: place 0 is zero, place 1 the least positive
number, place `2 ^ 52` the least normal one. Neighbouring places are neighbouring numbers, so the
places order the absolute values and every place is one number. There are no infinities and there
is no number that is none: what is too great for the format gives the greatest finite number.

Main definitions:

* `Binary64.mantissa`, `Binary64.exponent` — the absolute value is `mantissa * 2 ^ exponent`;
* `Binary64.nearest` — the number nearest to a fraction, ties going to the even place.
-/

namespace Workflows

/-- A finite binary64 number: its sign, and the place of its absolute value among the non-negative
finite ones, of which there are `2047 * 2 ^ 52`. Both zeros exist. -/
structure Binary64 where
  negative : Bool
  place : Nat
  place_lt : place < 0x7ff0000000000000
  deriving DecidableEq, Repr

namespace Binary64

/-! ## Powers -/

def twoTo (k : Nat) : Nat := Nat.pow 2 k

def tenTo (k : Nat) : Nat := Nat.pow 10 k

/-- The place of the least normal number, `2 ^ 52`; as many numbers lie between two powers of
two. -/
def leastNormal : Nat := 0x10000000000000

/-! ## The value of a number -/

def mantissa (x : Binary64) : Nat :=
  if x.place < leastNormal then x.place else leastNormal + x.place % leastNormal

def exponent (x : Binary64) : Int :=
  if x.place < leastNormal then -1074 else (x.place / leastNormal : Nat) - 1075

/-- The mantissa with the sign of the number. -/
def signedMantissa (x : Binary64) : Int :=
  if x.negative then -(x.mantissa : Int) else x.mantissa

/-- Whether the number is a whole number: no bit of its mantissa lies behind the binary point. -/
def isWhole (x : Binary64) : Bool :=
  if x.exponent < 0 then x.mantissa % twoTo (-x.exponent).toNat == 0 else true

/-! ## Rounding -/

def roundHalfEven (num den : Nat) : Nat :=
  let q := num / den
  let twice := 2 * (num % den)
  if twice < den then q
  else if twice > den then q + 1
  else if q % 2 = 0 then q else q + 1

/-- The fraction `num / den`, scaled by a power of two, as a pair of numerator and denominator. -/
def scaleTwo (num den : Nat) (k : Int) : Nat × Nat :=
  if k < 0 then (num, den * twoTo (-k).toNat) else (num * twoTo k.toNat, den)

/-- The exponent of the greatest power of two that is at most `num / den`. -/
def floorLog2 (num den : Nat) : Int :=
  let guess : Int := (Nat.log2 num : Int) - (Nat.log2 den : Int)
  -- The guess is right or too great by one.
  let (n, d) := scaleTwo num den (-guess)
  if d ≤ n then guess else guess - 1

/-- The finite number at a place; places beyond the last one give the greatest finite number. -/
def ofPlace (negative : Bool) (place : Nat) : Binary64 where
  negative := negative
  place := min place 0x7fefffffffffffff
  place_lt := by omega

/-- The number nearest to `num / den` in absolute value, ties going to the even place. Fractions
too large for the format give the greatest finite number. -/
def nearest (negative : Bool) (num den : Nat) : Binary64 :=
  if num = 0 then ofPlace negative 0
  else
    -- Rounding up to the next power of two gives the place of that power, so no case is needed.
    let bottom := max (floorLog2 num den) (-1022)
    let (n, d) := scaleTwo num den (52 - bottom)
    ofPlace negative ((bottom + 1022).toNat * leastNormal + roundHalfEven n d)

/-- The number nearest to `± digits * 10 ^ exponent`. The tests keep the powers of ten small:
`digits` lies between `10 ^ (log2 digits / 4)` and `10 ^ (log2 digits / 3 + 1)`, so outside them the
answer is zero or the greatest finite number. -/
def ofDecimal (negative : Bool) (digits : Nat) (exponent : Int) : Binary64 :=
  if digits = 0 ∨ (Nat.log2 digits : Int) / 3 + 1 + exponent < -400 then ofPlace negative 0
  else if (Nat.log2 digits : Int) / 4 + exponent > 400 then ofPlace negative 0x7ff0000000000000
  else if exponent < 0 then nearest negative digits (tenTo (-exponent).toNat)
  else nearest negative (digits * tenTo exponent.toNat) 1

end Binary64

end Workflows
