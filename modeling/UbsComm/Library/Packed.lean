import Mathlib.Algebra.Ring.Nat

/-! # A tag packed over a payload

`(tag << width) | payload` in one word. -/

namespace UbsComm.Library

def pack (width tag payload : Nat) : Nat := tag <<< width ||| payload

variable {width tag other payload rest : Nat}

theorem pack_eq_add (small : payload < 2 ^ width) : pack width tag payload = tag * 2 ^ width + payload := by
  rw [pack, ← Nat.shiftLeft_add_eq_or_of_lt small, Nat.shiftLeft_eq]

/-- Packing a second tag over the first does not replace it. -/
theorem pack_pack :
    pack width tag (pack width other payload) = pack width (tag ||| other) payload := by
  rw [pack, pack, pack, Nat.shiftLeft_or_distrib, Nat.or_assoc]

theorem pack_zero : pack width 0 payload = payload := by
  rw [pack, Nat.zero_shiftLeft, Nat.zero_or]

theorem pack_and_mask (small : payload < 2 ^ width) : pack width tag payload &&& (2 ^ width - 1) = payload := by
  rw [Nat.and_two_pow_sub_one_eq_mod, pack_eq_add small, Nat.mul_add_mod_of_lt small]

theorem pack_shiftRight (small : payload < 2 ^ width) : pack width tag payload >>> width = tag := by
  rw [Nat.shiftRight_eq_div_pow, pack_eq_add small, Nat.mul_comm,
    Nat.mul_add_div (Nat.two_pow_pos width), Nat.div_eq_of_lt small, Nat.add_zero]

theorem pack_inj (small : payload < 2 ^ width) (smallRest : rest < 2 ^ width)
    (same : pack width tag payload = pack width other rest) : tag = other ∧ payload = rest := by
  constructor
  · have tags := congrArg (· >>> width) same
    rwa [pack_shiftRight small, pack_shiftRight smallRest] at tags
  · have payloads := congrArg (· &&& (2 ^ width - 1)) same
    rwa [pack_and_mask small, pack_and_mask smallRest] at payloads

end UbsComm.Library
