import Mathlib.Data.Nat.Bitwise

/-! # Words: differences, and aligning by a mask

`x & ~(a - 1)` on words of `w` bits.  For a power of two it rounds down to a multiple of
`a`; for any other `a` it does not, and already moves `a` itself. -/

namespace UbsComm.Library

/-- The difference of two words, which goes around below zero. -/
def sub64 (a b : Nat) : Nat := if b ≤ a then a - b else a + 2 ^ 64 - b

theorem sub64_eq {a b : Nat} (le : b ≤ a) : sub64 a b = a - b := if_pos le

/-- The word `x & ~(a - 1)`. -/
def maskDown (w x a : Nat) : Nat := x &&& (2 ^ w - a)

/-- The word `(x + a - 1) & ~(a - 1)`. -/
def maskUp (w x a : Nat) : Nat := maskDown w ((x + a - 1) % 2 ^ w) a

variable {w x y a n k base : Nat}

theorem maskDown_le : maskDown w x a ≤ x := Nat.and_le_left

theorem testBit_maskDown (pos : 0 < a) (fits : a ≤ 2 ^ w) (i : Nat) :
    (maskDown w x a).testBit i = (x.testBit i && (decide (i < w) && !(a - 1).testBit i)) := by
  have mask : 2 ^ w - a = 2 ^ w - ((a - 1) + 1) := by omega
  rw [maskDown, Nat.testBit_and, mask, Nat.testBit_two_pow_sub_succ (by omega)]

theorem maskDown_eq_self_iff (pos : 0 < a) (fits : a ≤ 2 ^ w) (small : x < 2 ^ w) :
    maskDown w x a = x ↔ x &&& (a - 1) = 0 := by
  constructor
  · intro same
    apply Nat.eq_of_testBit_eq
    intro i
    have bit := @testBit_maskDown w x a pos fits i
    rw [same] at bit
    rw [Nat.testBit_and, Nat.zero_testBit]
    cases set : x.testBit i with
    | false => rfl
    | true =>
      rw [set, Bool.true_and, eq_comm, Bool.and_eq_true, Bool.not_eq_true'] at bit
      exact bit.2
  · intro none
    apply Nat.eq_of_testBit_eq
    intro i
    have bit := congrArg (Nat.testBit · i) none
    simp only [Nat.testBit_and] at bit
    rw [testBit_maskDown pos fits]
    cases set : x.testBit i with
    | false => rfl
    | true =>
      -- a set bit is below the word's width
      have below : i < w := by
        by_contra above
        rw [Nat.testBit_lt_two_pow
          (Nat.lt_of_lt_of_le small (Nat.pow_le_pow_right (by decide) (Nat.le_of_not_lt above)))] at set
        cases set
      simp_all

theorem maskDown_two_pow (fits : k ≤ w) (small : x < 2 ^ w) : maskDown w x (2 ^ k) = x / 2 ^ k * 2 ^ k := by
  apply Nat.eq_of_testBit_eq
  intro i
  rw [testBit_maskDown (Nat.two_pow_pos k) (Nat.pow_le_pow_right (by decide) fits), Nat.testBit_mul_two_pow,
    Nat.testBit_div_two_pow]
  by_cases low : i < k
  · simp [low]
  · have sum : i - k + k = i := by omega
    rw [sum]
    by_cases below : i < w
    · simp [below, Nat.le_of_not_lt low]
    · have unset :=
        Nat.testBit_lt_two_pow (Nat.lt_of_lt_of_le small (Nat.pow_le_pow_right (by decide) (Nat.le_of_not_lt below)))
      simp [unset]

theorem maskDown_two_pow_of_dvd (fits : k ≤ w) (small : x < 2 ^ w) (aligned : 2 ^ k ∣ x) (below : y < 2 ^ k)
    (sum : x + y < 2 ^ w) : maskDown w (x + y) (2 ^ k) = x := by
  obtain ⟨blocks, rfl⟩ := aligned
  rw [maskDown_two_pow fits sum, Nat.mul_add_div (Nat.two_pow_pos k), Nat.div_eq_of_lt below, Nat.add_zero,
    Nat.mul_comm]

theorem maskUp_two_pow_of_dvd (fits : k ≤ w) (aligned : 2 ^ k ∣ x) (room : x + 2 ^ k ≤ 2 ^ w) :
    maskUp w x (2 ^ k) = x := by
  have sum : x + 2 ^ k - 1 = x + (2 ^ k - 1) := by omega
  rw [maskUp, Nat.mod_eq_of_lt (by omega), sum, maskDown_two_pow_of_dvd fits (by omega) aligned (by omega) (by omega)]

/-! ## Behind an aligned base -/

theorem maskDown_add (pos : 0 < a) (fits : a ≤ 2 ^ n) (aligned : 2 ^ n ∣ base) (below : y < 2 ^ n)
    (small : base < 2 ^ w) (wide : n ≤ w) : maskDown w (base + y) a = base + maskDown w y a := by
  obtain ⟨blocks, rfl⟩ := aligned
  have wordFits : a ≤ 2 ^ w := Nat.le_trans fits (Nat.pow_le_pow_right (by decide) wide)
  have fixed : 2 ^ n * blocks &&& (2 ^ w - a) = 2 ^ n * blocks := by
    apply (maskDown_eq_self_iff pos wordFits small).mpr
    apply Nat.eq_of_testBit_eq
    intro i
    rw [Nat.testBit_and, Nat.testBit_two_pow_mul]
    by_cases low : n ≤ i
    · rw [Nat.testBit_lt_two_pow (x := a - 1) (i := i)
        (Nat.lt_of_lt_of_le (by omega) (Nat.pow_le_pow_right (by decide) low))]
      simp
    · simp [low]
  rw [Nat.two_pow_add_eq_or_of_lt below, maskDown, Nat.and_or_distrib_right, fixed,
    ← Nat.two_pow_add_eq_or_of_lt (Nat.lt_of_le_of_lt Nat.and_le_left below)]
  rfl

theorem maskDown_sub_one (pos : 0 < a) (fits : a ≤ 2 ^ w) : maskDown w (a - 1) a = 0 := by
  apply Nat.eq_of_testBit_eq
  intro i
  rw [testBit_maskDown pos fits]
  cases (a - 1).testBit i <;> simp

/-- Rounding an aligned base up leaves it, whatever the mask. -/
theorem maskUp_base (pos : 0 < a) (fits : a ≤ 2 ^ n) (aligned : 2 ^ n ∣ base) (wide : n ≤ w)
    (room : base + a ≤ 2 ^ w) : maskUp w base a = base := by
  have sum : base + a - 1 = base + (a - 1) := by omega
  rw [maskUp, Nat.mod_eq_of_lt (by omega), sum, maskDown_add pos fits aligned (by omega) (by omega) wide,
    maskDown_sub_one pos (by omega), Nat.add_zero]

/-- A mask that is no power of two moves its own multiple. -/
theorem maskDown_self_lt (pos : 0 < a) (small : a < 2 ^ w) (odd : ¬ a.isPowerOfTwo) : maskDown w a a < a := by
  apply Nat.lt_of_le_of_ne maskDown_le
  rw [maskDown_eq_self_iff pos (Nat.le_of_lt small) small, Nat.and_sub_one_eq_zero_iff_isPowerOfTwo (by omega)]
  exact odd

end UbsComm.Library
