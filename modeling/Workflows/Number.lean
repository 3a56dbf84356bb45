import Workflows.Number.Shortest

/-!
# Number — whole and floating-point numbers

A number of a document is a whole number of any size or a finite binary64 number; the two kinds
are told apart even when their values agree. Order and numeric equality go by the exact value.
-/

namespace Workflows

inductive Number
  | int (i : Int)
  | float (x : Binary64)
  deriving DecidableEq, Repr

namespace Number

/-- The value as a whole number times a power of two. -/
def scaled : Number → Int × Int
  | .int i => (i, 0)
  | .float x => (x.signedMantissa, x.exponent)

/-- The order of the exact values. Both are brought to the smaller power of two first. -/
def order (a b : Number) : Ordering :=
  let (m, e) := a.scaled
  let (n, f) := b.scaled
  let base := min e f
  compare (m * (Binary64.twoTo (e - base).toNat : Nat)) (n * (Binary64.twoTo (f - base).toNat : Nat))

def sameValue (a b : Number) : Bool :=
  a.order b == .eq

def lt (a b : Number) : Bool :=
  a.order b == .lt

def le (a b : Number) : Bool :=
  a.order b != .gt

/-- The text of a number: a floating-point number always shows a point or a power of ten. -/
def text : Number → String
  | .int i => toString i
  | .float x => x.text

def floor (n : Number) : Int :=
  let (m, e) := n.scaled
  if e < 0 then m / (Binary64.twoTo (-e).toNat : Nat) else m * (Binary64.twoTo e.toNat : Nat)

def ceiling (n : Number) : Int :=
  let (m, e) := n.scaled
  if e < 0 then -(-m / (Binary64.twoTo (-e).toNat : Nat)) else m * (Binary64.twoTo e.toNat : Nat)

/-- Whether the value is a whole number, whatever the kind. -/
def isWhole : Number → Bool
  | .int _ => true
  | .float x => x.isWhole

/-- The first of the greatest numbers of a list, if there is any. -/
def greatest? : List Number → Option Number
  | [] => none
  | first :: rest => some (rest.foldl (fun best n => if best.lt n then n else best) first)

end Number
end Workflows
