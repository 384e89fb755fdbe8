import Mathlib.Algebra.Ring.Nat

/-! # A word of bit fields

A C structure of bit fields of one word: the first field takes the lowest bits, and a
value too wide for its field loses its upper bits.  What comes out of the word is what
went in exactly when every value fits. -/

namespace UbsComm.Library

/-- A field is its width and the value stored into it. -/
def packFields : List (Nat × Nat) → Nat
  | [] => 0
  | (width, value) :: rest => value % 2 ^ width + 2 ^ width * packFields rest

def unpackFields : List Nat → Nat → List Nat
  | [], _ => []
  | width :: rest, word => word % 2 ^ width :: unpackFields rest (word / 2 ^ width)

section

variable (fields : List (Nat × Nat))

theorem unpackFields_packFields :
    unpackFields (fields.map Prod.fst) (packFields fields) = fields.map fun field => field.2 % 2 ^ field.1 := by
  induction fields with
  | nil => rfl
  | cons field rest ih =>
    obtain ⟨width, value⟩ := field
    have pos : 0 < 2 ^ width := Nat.two_pow_pos width
    have low : value % 2 ^ width < 2 ^ width := Nat.mod_lt _ pos
    simp only [List.map_cons, packFields, unpackFields, List.cons.injEq]
    constructor
    · rw [Nat.add_mul_mod_self_left, Nat.mod_mod]
    · rw [Nat.add_mul_div_left _ _ pos, Nat.div_eq_of_lt low, Nat.zero_add]
      exact ih

theorem packFields_lt : packFields fields < 2 ^ (fields.map Prod.fst).sum := by
  induction fields with
  | nil => exact Nat.one_pos
  | cons field rest ih =>
    obtain ⟨width, value⟩ := field
    have low : value % 2 ^ width < 2 ^ width := Nat.mod_lt _ (Nat.two_pow_pos width)
    rw [List.map_cons, List.sum_cons, Nat.pow_add]
    calc value % 2 ^ width + 2 ^ width * packFields rest
        < 2 ^ width + 2 ^ width * packFields rest := Nat.add_lt_add_right low _
      _ = 2 ^ width * (packFields rest + 1) := by rw [Nat.mul_add, Nat.mul_one, Nat.add_comm]
      _ ≤ 2 ^ width * 2 ^ (rest.map Prod.fst).sum := Nat.mul_le_mul_left _ ih

/-- Nothing is lost exactly when every value fits its field. -/
theorem unpackFields_packFields_iff :
    unpackFields (fields.map Prod.fst) (packFields fields) = fields.map Prod.snd ↔
      ∀ field ∈ fields, field.2 < 2 ^ field.1 := by
  rw [unpackFields_packFields, List.map_inj_left]
  constructor
  · intro same field mem
    rw [← same field mem]
    exact Nat.mod_lt _ (Nat.two_pow_pos field.1)
  · intro fits field mem
    exact Nat.mod_eq_of_lt (fits field mem)

end

end UbsComm.Library
