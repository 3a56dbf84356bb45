import Mathlib.Data.Int.Order.Basic
import Mathlib.Order.Compare
import Workflows.Number

/-!
# Number — comparisons with whole numbers

Limits may be given as numbers of either kind, and counts are whole numbers. Whether a count is
above a limit can be told from the greatest whole number that the limit reaches, and a limit that
has the value of a whole number is as good as that number.
-/

namespace Workflows
namespace Number

variable {n : Number} {k : Int}

theorem twoTo_pos (e : Nat) : (0 : Int) < (Binary64.twoTo e : Nat) :=
  Int.natCast_pos.2 (Nat.pow_pos Nat.two_pos)

/-- A fraction is compared by comparing its numerator. -/
theorem order_int_of_neg (h : n.scaled.2 < 0) :
    n.order (.int k) = compare n.scaled.1 (k * (Binary64.twoTo (-n.scaled.2).toNat : Nat)) := by
  have hmin : min n.scaled.2 0 = n.scaled.2 := min_eq_left h.le
  have hone : ((Binary64.twoTo 0 : Nat) : Int) = 1 := rfl
  have hint : (Number.int k).scaled = (k, 0) := rfl
  simp only [order, hint, hmin, Int.sub_self, Int.toNat_zero, hone, Int.mul_one, Int.zero_sub]

/-- A number whose exponent is not negative is compared as a whole number. -/
theorem order_int_of_nonneg (h : 0 ≤ n.scaled.2) :
    n.order (.int k) = compare (n.scaled.1 * (Binary64.twoTo n.scaled.2.toNat : Nat)) k := by
  have hmin : min n.scaled.2 0 = 0 := min_eq_right h
  have hone : ((Binary64.twoTo 0 : Nat) : Int) = 1 := rfl
  have hint : (Number.int k).scaled = (k, 0) := rfl
  simp only [order, hint, hmin, Int.sub_self, Int.toNat_zero, hone, Int.mul_one, Int.sub_zero]

/-- A whole number is greater exactly if it is greater than all whole numbers that are not. -/
theorem floor_lt_iff : n.floor < k ↔ n.lt (.int k) = true := by
  rw [lt, beq_iff_eq]
  by_cases h : n.scaled.2 < 0
  · rw [order_int_of_neg h, compare_lt_iff_lt, floor]
    simp only [h, if_true]
    exact Int.ediv_lt_iff_lt_mul (twoTo_pos _)
  · rw [order_int_of_nonneg (not_lt.1 h), compare_lt_iff_lt, floor]
    simp only [h, if_false]

/-- A number with the value of a whole number is its own ceiling. -/
theorem ceiling_of_sameValue (h : n.sameValue (.int k) = true) : n.ceiling = k := by
  rw [sameValue, beq_iff_eq] at h
  by_cases hneg : n.scaled.2 < 0
  · rw [order_int_of_neg hneg, compare_eq_iff_eq] at h
    rw [ceiling]
    simp only [hneg, if_true]
    rw [h, ← Int.neg_mul, Int.mul_ediv_cancel _ (twoTo_pos _).ne', Int.neg_neg]
  · rw [order_int_of_nonneg (not_lt.1 hneg), compare_eq_iff_eq] at h
    rw [ceiling]
    simp only [hneg, if_false]
    exact h

end Number
end Workflows
