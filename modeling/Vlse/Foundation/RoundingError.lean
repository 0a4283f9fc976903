import Mathlib.Algebra.Order.Field.Basic
import Mathlib.Tactic.Linarith
import Mathlib.Tactic.Ring
/-!
# Errors of rounded arithmetic

A computed value is close to an exact one within a bound. Sums and differences of close values are
close within the sum of the bounds, and a rounding with a relative and an absolute error adds what
it can be off by at the size of the exact value. So the error of a computation follows its steps.
-/

namespace Vlse

variable {K : Type*} [Field K] [LinearOrder K] [IsStrictOrderedRing K]

/-- A computed value differs from the exact one by the bound at most. -/
def Close (bound computed exact : K) : Prop := |computed - exact| ≤ bound

/-- A rounding that is off by a fraction of the value and a constant at most. -/
structure RoundsWithin (relative absolute : K) (round : K → K) : Prop where
  /-- The fraction is not negative. -/
  nonnegative : 0 ≤ relative
  /-- The error at a value. -/
  close : ∀ value, |round value - value| ≤ relative * |value| + absolute

namespace Close

variable {bound other left right computed exact : K}

/-- A value is close to itself. -/
theorem refl (nonnegative : 0 ≤ bound) (value : K) : Close bound value value := by
  rw [Close, sub_self, abs_zero]
  exact nonnegative

omit [IsStrictOrderedRing K] in
/-- A larger bound holds as well. -/
theorem mono (close : Close bound computed exact) (larger : bound ≤ other) :
    Close other computed exact :=
  le_trans close larger

/-- Sums of close values are close. -/
theorem add {leftExact rightExact : K} (first : Close bound left leftExact)
    (second : Close other right rightExact) :
    Close (bound + other) (left + right) (leftExact + rightExact) := by
  have split : left + right - (leftExact + rightExact) =
      (left - leftExact) + (right - rightExact) := by ring
  rw [Close, split]
  exact (abs_add_le _ _).trans (add_le_add first second)

/-- So are differences. -/
theorem sub {leftExact rightExact : K} (first : Close bound left leftExact)
    (second : Close other right rightExact) :
    Close (bound + other) (left - right) (leftExact - rightExact) := by
  have split : left - right - (leftExact - rightExact) =
      (left - leftExact) - (right - rightExact) := by ring
  rw [Close, split]
  exact (abs_sub _ _).trans (add_le_add first second)

/-- Dividing by a positive constant divides the bound. -/
theorem div (close : Close bound computed exact) {divisor : K} (positive : 0 < divisor) :
    Close (bound / divisor) (computed / divisor) (exact / divisor) := by
  rw [Close, ← sub_div, abs_div, abs_of_pos positive]
  exact div_le_div_of_nonneg_right close positive.le

/-- A close value is not larger by more than the bound. -/
theorem abs_le (close : Close bound computed exact) {size : K} (sized : |exact| ≤ size) :
    |computed| ≤ size + bound := by
  have split : computed = exact + (computed - exact) := by ring
  rw [split]
  exact (abs_add_le _ _).trans (add_le_add sized close)

end Close

/-- Rounding a close value adds the error of the rounding at the size of the exact value. -/
theorem RoundsWithin.step {relative absolute bound computed exact size : K} {round : K → K}
    (rounds : RoundsWithin relative absolute round) (close : Close bound computed exact)
    (sized : |exact| ≤ size) :
    Close (bound + (relative * (size + bound) + absolute)) (round computed) exact := by
  have split : round computed - exact = (computed - exact) + (round computed - computed) := by ring
  have scaled := mul_le_mul_of_nonneg_left (close.abs_le sized) rounds.nonnegative
  have here := rounds.close computed
  rw [Close, split]
  refine (abs_add_le _ _).trans (add_le_add close ?_)
  linarith

end Vlse
