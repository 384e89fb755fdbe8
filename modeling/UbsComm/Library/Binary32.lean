import Mathlib.Data.Int.Log
import Mathlib.Data.Rat.Floor
import Mathlib.Tactic.Positivity

/-! # Rounding to binary32

The nonnegative numbers of the format as rationals: a significand of 24 bits, rounding to the
nearest number and ties to the even one. Overflow is left to the user, who states that the
values stay below `2 ^ 128`. -/

namespace UbsComm.Library

/-- The integer nearest to a rational, the even one of two that are equally near. -/
def roundHalfEven (q : ℚ) : ℤ :=
  if q - ⌊q⌋ < 1 / 2 ∨ q - ⌊q⌋ = 1 / 2 ∧ ⌊q⌋ % 2 = 0 then ⌊q⌋ else ⌊q⌋ + 1

/-- The exponent of the last bit of the binary32 numbers around `x`. -/
def ulpExponent (x : ℚ) : ℤ := max (Int.log 2 x - 23) (-149)

def roundBinary32 (x : ℚ) : ℚ := roundHalfEven (x / 2 ^ ulpExponent x) * 2 ^ ulpExponent x

variable {x q : ℚ}

@[simp] theorem roundHalfEven_intCast {n : ℤ} : roundHalfEven n = n := by
  simp [roundHalfEven]

theorem roundHalfEven_ge : q - 1 / 2 ≤ roundHalfEven q := by
  have below := Int.lt_floor_add_one q
  unfold roundHalfEven
  split
  next near => rcases near with near | near <;> linarith
  next => push_cast; linarith

theorem roundHalfEven_le : roundHalfEven q ≤ q + 1 / 2 := by
  have floor := Int.floor_le q
  unfold roundHalfEven
  split
  next => linarith
  next near =>
    -- not below the half, so the next integer is no further than the half
    have far : 1 / 2 ≤ q - ⌊q⌋ := not_lt.mp fun less => near (.inl less)
    push_cast
    linarith

theorem ulp_pos (x : ℚ) : (0 : ℚ) < 2 ^ ulpExponent x := zpow_pos two_pos _

section

variable (normal : (2 : ℚ) ^ (-126 : ℤ) ≤ x)
include normal

/-- Half a unit in the last place is at most the `2 ^ 24`th part of a normal number. -/
theorem ulp_le : (2 : ℚ) ^ ulpExponent x ≤ x / 2 ^ 23 := by
  have pos : 0 < x := lt_of_lt_of_le (by positivity) normal
  have exponent : ulpExponent x = Int.log 2 x - 23 := by
    apply max_eq_left
    have := Int.log_mono_right (b := 2) (by positivity) normal
    rw [show ((2 : ℚ) ^ (-126 : ℤ)) = ((2 : ℕ) : ℚ) ^ (-126 : ℤ) by norm_num, Int.log_zpow (by decide)] at this
    omega
  have log := Int.zpow_log_le_self (b := 2) (by decide) pos
  rw [exponent, zpow_sub₀ two_ne_zero]
  have : (2 : ℚ) ^ (23 : ℤ) = 2 ^ 23 := by norm_num
  rw [this]
  gcongr
  exact_mod_cast log

/-- Rounding a normal number makes it smaller by a factor of no more than `1 - 2 ^ (-24)`. -/
theorem roundBinary32_ge : x * (1 - 1 / 2 ^ 24) ≤ roundBinary32 x := by
  have ulp := ulp_le normal
  have unit := ulp_pos x
  calc x * (1 - 1 / 2 ^ 24) ≤ x - 1 / 2 * 2 ^ ulpExponent x := by linarith
    _ = (x / 2 ^ ulpExponent x - 1 / 2) * 2 ^ ulpExponent x := by field_simp
    _ ≤ roundBinary32 x := mul_le_mul_of_nonneg_right roundHalfEven_ge unit.le

theorem roundBinary32_le : roundBinary32 x ≤ x * (1 + 1 / 2 ^ 24) := by
  have ulp := ulp_le normal
  have unit := ulp_pos x
  calc roundBinary32 x ≤ (x / 2 ^ ulpExponent x + 1 / 2) * 2 ^ ulpExponent x :=
        mul_le_mul_of_nonneg_right roundHalfEven_le unit.le
    _ = x + 1 / 2 * 2 ^ ulpExponent x := by field_simp
    _ ≤ x * (1 + 1 / 2 ^ 24) := by linarith

end

/-- Integers of 24 bits are numbers of the format. -/
theorem roundBinary32_natCast {n : ℕ} (small : n < 2 ^ 24) : roundBinary32 n = n := by
  have exponent : ulpExponent n ≤ 0 := by
    apply max_le _ (by decide)
    rw [Int.log_natCast]
    have := Nat.log_lt_of_lt_pow' (by decide) small
    omega
  obtain ⟨shift, isShift⟩ := Int.eq_ofNat_of_zero_le (neg_nonneg.mpr exponent)
  have power : (2 : ℚ) ^ ulpExponent n = 1 / 2 ^ shift := by
    rw [show ulpExponent n = -(shift : ℤ) by omega, zpow_neg, zpow_natCast, one_div]
  have whole : (n : ℚ) / 2 ^ ulpExponent n = ((n * 2 ^ shift : ℕ) : ℤ) := by
    rw [power]
    push_cast
    field_simp
  rw [roundBinary32, whole, roundHalfEven_intCast, ← whole]
  field_simp

end UbsComm.Library
