import Mathlib.Algebra.Order.Ring.Nat
import Mathlib.Tactic.Common
/-!
# Tables closed under exclusive or

A table has the positions below a count. Exclusive or with a family of offsets stays in the table
exactly when the first power of two above the greatest offset divides the count.
-/

namespace Vlse

variable {k count offset : Nat}

/-- A multiple of a power of two and a number below the power share no bits. -/
theorem xor_eq_add {low : Nat} (high : Nat) (small : low < 2 ^ k) :
    2 ^ k * high ^^^ low = 2 ^ k * high + low := by
  have quotient : (2 ^ k * high ^^^ low) / 2 ^ k = high := by
    rw [Nat.xor_div_two_pow, Nat.mul_div_cancel_left _ (Nat.two_pow_pos k),
      Nat.div_eq_of_lt small, Nat.xor_zero]
  have remainder : (2 ^ k * high ^^^ low) % 2 ^ k = low := by
    rw [Nat.xor_mod_two_pow, Nat.mul_mod_right, Nat.zero_xor, Nat.mod_eq_of_lt small]
  have whole := Nat.div_add_mod (2 ^ k * high ^^^ low) (2 ^ k)
  rw [quotient, remainder] at whole
  exact whole.symm

/-- Numbers that share their bits from a power of two on differ below it. -/
theorem xor_lt_two_pow {first second : Nat} (same : first / 2 ^ k = second / 2 ^ k) :
    first ^^^ second < 2 ^ k := by
  have quotient : (first ^^^ second) / 2 ^ k = 0 := by
    rw [Nat.xor_div_two_pow, same, Nat.xor_self]
  exact (Nat.div_eq_zero_iff.mp quotient).resolve_left (Nat.two_pow_pos k).ne'

/-- Where a power of two divides the count, offsets below it stay in the table. -/
theorem xor_lt_of_dvd {position : Nat} (divides : 2 ^ k ∣ count) (inside : position < count)
    (small : offset < 2 ^ k) : position ^^^ offset < count := by
  obtain ⟨blocks, rfl⟩ := divides
  have block : position / 2 ^ k < blocks := Nat.div_lt_of_lt_mul inside
  have same : (position ^^^ offset) / 2 ^ k = position / 2 ^ k := by
    rw [Nat.xor_div_two_pow, Nat.div_eq_of_lt small, Nat.xor_zero]
  rw [← same] at block
  rw [Nat.mul_comm]
  exact (Nat.div_lt_iff_lt_mul (Nat.two_pow_pos k)).mp block

/-- An offset that stays in the table has twice its highest bit dividing the count. -/
theorem dvd_of_xor_lt (high : 2 ^ k ≤ offset) (small : offset < 2 ^ (k + 1))
    (closed : ∀ position < count, position ^^^ offset < count) : 2 ^ (k + 1) ∣ count := by
  have double : 2 ^ (k + 1) = 2 ^ k + 2 ^ k := by rw [pow_succ, Nat.mul_two]
  have below := Nat.mod_lt count (Nat.two_pow_pos (k + 1))
  by_contra apart
  have rest : 0 < count % 2 ^ (k + 1) :=
    Nat.pos_of_ne_zero fun none => apart (Nat.dvd_of_mod_eq_zero none)
  have whole := Nat.div_add_mod count (2 ^ (k + 1))
  by_cases short : count % 2 ^ (k + 1) < 2 ^ k
  · -- the first position of the last, incomplete block moves past the end
    have escape := closed (2 ^ (k + 1) * (count / 2 ^ (k + 1))) (by omega)
    rw [xor_eq_add _ small] at escape
    omega
  · -- the position that moves to the end itself is in the lower half of the last block
    have bit : ∀ value, 2 ^ k ≤ value → value < 2 ^ (k + 1) → value / 2 ^ k = 1 := by
      intro value lower upper
      exact Nat.div_eq_of_lt_le (by omega) (by omega)
    have lowered := xor_lt_two_pow
      ((bit _ (not_lt.mp short) below).trans (bit _ high small).symm)
    have escape := closed (2 ^ (k + 1) * (count / 2 ^ (k + 1)) +
      (count % 2 ^ (k + 1) ^^^ offset)) (by omega)
    rw [← xor_eq_add _ (by omega), Nat.xor_assoc, Nat.xor_assoc, Nat.xor_self, Nat.xor_zero,
      xor_eq_add _ below] at escape
    omega

/-- Offsets below a power of two, one of them with its highest bit, stay in the table exactly when
the power divides the count. -/
theorem xor_family_lt_iff {ι : Type*} (offsets : ι → Nat) (count : Nat)
    (small : ∀ index, offsets index < 2 ^ (k + 1)) (high : ∃ index, 2 ^ k ≤ offsets index) :
    (∀ index, ∀ position < count, position ^^^ offsets index < count) ↔ 2 ^ (k + 1) ∣ count := by
  constructor
  · intro closed
    cases high with
    | intro index reached => exact dvd_of_xor_lt reached (small index) (closed index)
  · intro divides index position inside
    exact xor_lt_of_dvd divides inside (small index)

end Vlse
