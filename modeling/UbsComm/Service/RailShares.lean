import Mathlib.Algebra.BigOperators.Ring.Finset
import Mathlib.Algebra.Group.Action.Defs
import UbsComm.Library.Binary32
import UbsComm.Library.Spans

/-! # The shares of the rails in a one-sided request

A large request is cut into one piece per rail, in proportion to the rails' bandwidths. The
proportion is computed in single precision and rounded up. -/

namespace UbsComm.Service

open Library List

structure RailOptions where
  enableMultiRail : Bool
  multiRailThresh : Nat
  driverNum : Nat
  totalBandWidth : Nat

namespace RailOptions

/-- `static_cast<uint32_t>(ceilf(request.size * (bandWidth / static_cast<float>(total))))`. The
language leaves open what the cast gives for no number and for numbers that do not fit:
`outside`. -/
def transferSize (outside : Nat) (options : RailOptions) (requestSize bandWidth : Nat) : Nat :=
  if options.totalBandWidth = 0 then outside
  else
    let ratio := roundBinary32 (roundBinary32 bandWidth / roundBinary32 options.totalBandWidth)
    let share := ⌈roundBinary32 (roundBinary32 requestSize * ratio)⌉₊
    if share < 2 ^ 32 then share else outside

/-- The variables of the loop over the rails. -/
structure RailState where
  remain : Nat
  offset : Nat
  size : Nat

def calculateOffsetAndSize (outside : Nat) (options : RailOptions) (requestSize bandWidth : Nat) (state : RailState) :
    RailState :=
  if options.enableMultiRail ∧ options.driverNum > 1 ∧ requestSize > options.multiRailThresh then
    let offset := requestSize - state.remain
    let transferSize := options.transferSize outside requestSize bandWidth
    let size := if transferSize > state.remain then state.remain else transferSize
    { remain := state.remain - size, offset, size }
  else state

def multiNum (options : RailOptions) (requestSize : Nat) : Nat :=
  if options.enableMultiRail ∧ requestSize > options.multiRailThresh then options.driverNum else 1

/-- The pieces posted to the rails with these bandwidths, from a state of the loop. -/
def postRails (outside : Nat) (options : RailOptions) (requestSize : Nat) : List Nat → RailState → List Span
  | [], _ => []
  | bandWidth :: rest, state =>
    let state := options.calculateOffsetAndSize outside requestSize bandWidth state
    ⟨state.offset, state.size⟩ :: options.postRails outside requestSize rest state

/-- The loop of the one-sided operations over the rails. -/
def oneSideRails (outside : Nat) (options : RailOptions) (bandWidths : List Nat) (requestSize : Nat) : List Span :=
  options.postRails outside requestSize (bandWidths.take (options.multiNum requestSize))
    { remain := requestSize, offset := 0, size := requestSize }

/-- The pieces are consecutive, disjoint and cover the request. -/
structure PiecesRight (requestSize : Nat) (pieces : List Span) : Prop where
  consecutive : ∃ stop, Tiles 0 pieces stop
  disjoint : pieces.Pairwise Span.Apart
  covers : ∀ byte, (∃ piece ∈ pieces, piece.start ≤ byte ∧ byte < piece.stop) ↔ byte < requestSize

def Cuts (options : RailOptions) (requestSize : Nat) : Prop :=
  options.enableMultiRail ∧ options.driverNum > 1 ∧ requestSize > options.multiRailThresh

variable {outside requestSize low high : Nat} {options : RailOptions} {bandWidths : List Nat} {pieces : List Span}

theorem piecesRight_iff_of_tiles (tiles : Tiles 0 pieces high) :
    PiecesRight requestSize pieces ↔ high = requestSize := by
  constructor
  · intro right
    have same : ∀ byte, byte < high ↔ byte < requestSize := fun byte => by
      rw [← right.covers, tiles.covers]
      omega
    have atHigh := same high
    have atSize := same requestSize
    omega
  · rintro rfl
    exact ⟨⟨_, tiles⟩, tiles.stacked.pairwise, fun byte => by rw [tiles.covers]; omega⟩

/-! ## The loop -/

theorem calculateOffsetAndSize_of_cuts (cuts : options.Cuts requestSize) (bandWidth : Nat) (state : RailState) :
    options.calculateOffsetAndSize outside requestSize bandWidth state =
      { remain := state.remain - min state.remain (options.transferSize outside requestSize bandWidth)
        offset := requestSize - state.remain
        size := min state.remain (options.transferSize outside requestSize bandWidth) } := by
  rw [calculateOffsetAndSize, if_pos (show _ ∧ _ ∧ _ from cuts)]
  have least (share : Nat) : (if share > state.remain then state.remain else share) = min state.remain share := by
    split <;> omega
  simp only [least]

/-- The pieces go on from where the earlier rails stopped, as far as the shares reach. -/
theorem postRails_tiles (outside : Nat) (cuts : options.Cuts requestSize) (bandWidths : List Nat) (state : RailState)
    (left : state.remain ≤ requestSize) :
    Tiles (requestSize - state.remain) (options.postRails outside requestSize bandWidths state)
      (requestSize - state.remain +
        min state.remain (bandWidths.map (options.transferSize outside requestSize)).sum) := by
  induction bandWidths generalizing state with
  | nil =>
    simp only [map_nil, sum_nil, Nat.min_zero]
    exact .nil
  | cons bandWidth rest ih =>
    rw [postRails, calculateOffsetAndSize_of_cuts cuts, map_cons, sum_cons]
    refine .cons rfl ?_
    generalize options.transferSize outside requestSize bandWidth = share
    simp only [Span.stop]
    have behind := ih ⟨state.remain - min state.remain share, requestSize - state.remain, min state.remain share⟩
      (by simp only; omega)
    convert behind using 1 <;> (simp only; omega)

theorem oneSideRails_tiles (rails : bandWidths.length = options.driverNum) (cuts : options.Cuts requestSize) :
    Tiles 0 (options.oneSideRails outside bandWidths requestSize)
      (min requestSize (bandWidths.map (options.transferSize outside requestSize)).sum) := by
  have all : bandWidths.take (options.multiNum requestSize) = bandWidths := by
    rw [multiNum, if_pos ⟨cuts.1, cuts.2.2⟩, ← rails, take_length]
  have tiles := postRails_tiles outside cuts bandWidths ⟨requestSize, 0, requestSize⟩ (Nat.le_refl _)
  rw [oneSideRails, all]
  simpa using tiles

theorem oneSideRails_of_not_cuts (some : 0 < options.driverNum) (rails : bandWidths.length = options.driverNum)
    (whole : ¬ options.Cuts requestSize) :
    options.oneSideRails outside bandWidths requestSize = [⟨0, requestSize⟩] := by
  have one : options.multiNum requestSize = 1 := by
    unfold multiNum
    split
    next enabled =>
      by_contra many
      exact whole ⟨enabled.1, by omega, enabled.2⟩
    next => rfl
  cases bandWidths with
  | nil => exact absurd rails (by simp; omega)
  | cons bandWidth rest =>
    rw [oneSideRails, one, take_succ_cons, take_zero]
    simp only [postRails, calculateOffsetAndSize, if_neg (show ¬ (_ ∧ _ ∧ _) from whole)]

/-! ## The shares in single precision -/

section Shares

variable {bandWidth : Nat}

/-- The quotient and the product of a share are far above the smallest normal number. -/
theorem normal_of_le {x : ℚ} (large : 1 / 2 ^ 25 ≤ x) : (2 : ℚ) ^ (-126 : ℤ) ≤ x :=
  le_trans (by norm_num) large

/-- Each share is at least the exact proportion but for two roundings. -/
theorem transferSize_ge (pos : 0 < options.totalBandWidth) (few : options.totalBandWidth < 2 ^ 24)
    (small : requestSize ≤ 2 ^ 23) (part : bandWidth ≤ options.totalBandWidth) :
    (requestSize : ℚ) * (bandWidth / options.totalBandWidth) * (1 - 1 / 2 ^ 24) ^ 2 ≤
      options.transferSize outside requestSize bandWidth := by
  rcases Nat.eq_zero_or_pos bandWidth with rfl | someBandWidth
  · simp
  rcases Nat.eq_zero_or_pos requestSize with rfl | someSize
  · simp
  have total : (0 : ℚ) < options.totalBandWidth := by exact_mod_cast pos
  have totalLe : (options.totalBandWidth : ℚ) ≤ 2 ^ 24 := by exact_mod_cast few.le
  have bandWidthGe : (1 : ℚ) ≤ bandWidth := by exact_mod_cast someBandWidth
  have sizeGe : (1 : ℚ) ≤ requestSize := by exact_mod_cast someSize
  have sizeLe : (requestSize : ℚ) ≤ 2 ^ 23 := by exact_mod_cast small
  have exactGe : (1 : ℚ) / 2 ^ 24 ≤ bandWidth / options.totalBandWidth := by
    gcongr
  have exactLe : (bandWidth : ℚ) / options.totalBandWidth ≤ 1 := by
    rw [div_le_one total]
    exact_mod_cast part
  rw [transferSize, if_neg pos.ne', roundBinary32_natCast (part.trans_lt few), roundBinary32_natCast few,
    roundBinary32_natCast (show requestSize < 2 ^ 24 by omega)]
  dsimp only
  generalize exactIs : (bandWidth : ℚ) / options.totalBandWidth = exact at exactGe exactLe ⊢
  have exactNormal := @normal_of_le exact (le_trans (by norm_num) exactGe)
  have ratioGe := roundBinary32_ge exactNormal
  have ratioLe := roundBinary32_le exactNormal
  generalize roundBinary32 exact = ratio at ratioGe ratioLe ⊢
  have productAbove : 1 / 2 ^ 25 ≤ requestSize * ratio := by nlinarith
  have productBelow : requestSize * ratio ≤ 2 ^ 24 := by nlinarith
  have productGe := roundBinary32_ge (normal_of_le productAbove)
  have productLe := roundBinary32_le (normal_of_le productAbove)
  generalize roundBinary32 (requestSize * ratio) = product at productGe productLe ⊢
  have fits : ⌈product⌉₊ < 2 ^ 32 := by
    have : ⌈product⌉₊ ≤ 2 ^ 25 := Nat.ceil_le.mpr (by push_cast; linarith)
    omega
  rw [if_pos fits]
  calc (requestSize : ℚ) * exact * (1 - 1 / 2 ^ 24) ^ 2 = requestSize * (exact * (1 - 1 / 2 ^ 24)) *
    (1 - 1 / 2 ^ 24) := by ring
    _ ≤ requestSize * ratio * (1 - 1 / 2 ^ 24) := by gcongr
    _ ≤ product := productGe
    _ ≤ ⌈product⌉₊ := Nat.le_ceil product

/-- The shares of a request of up to `2 ^ 23` bytes miss less than one byte, so none. -/
theorem le_sum_transferSize (pos : 0 < options.totalBandWidth) (few : options.totalBandWidth < 2 ^ 24)
    (small : requestSize ≤ 2 ^ 23) (total : bandWidths.sum = options.totalBandWidth) :
    requestSize ≤ (bandWidths.map (options.transferSize outside requestSize)).sum := by
  have exactSum : (bandWidths.map fun bandWidth : Nat =>
      (requestSize : ℚ) * (bandWidth / options.totalBandWidth) * (1 - 1 / 2 ^ 24) ^ 2).sum =
      (requestSize : ℚ) * (1 - 1 / 2 ^ 24) ^ 2 := by
    have totalNe : (options.totalBandWidth : ℚ) ≠ 0 := by exact_mod_cast pos.ne'
    have cast : (bandWidths.map fun bandWidth : Nat => (bandWidth : ℚ)).sum = options.totalBandWidth := by
      rw [← total, Nat.cast_list_sum]
    rw [sum_map_mul_right, sum_map_mul_left]
    simp only [div_eq_mul_inv]
    rw [sum_map_mul_right, cast, mul_inv_cancel₀ totalNe, mul_one]
  have bound : (requestSize : ℚ) * (1 - 1 / 2 ^ 24) ^ 2 ≤
      ((bandWidths.map (options.transferSize outside requestSize)).sum : ℕ) := by
    rw [← exactSum, Nat.cast_list_sum, map_map]
    apply sum_le_sum
    intro bandWidth mem
    exact transferSize_ge pos few small (total ▸ single_le_sum (fun _ _ => Nat.zero_le _) _ mem)
  have sizeLe : (requestSize : ℚ) ≤ 2 ^ 23 := by exact_mod_cast small
  have above : (requestSize : ℚ) < (bandWidths.map (options.transferSize outside requestSize)).sum + 1 := by
    by_cases none : requestSize = 0
    · rw [none]
      positivity
    · nlinarith
  exact_mod_cast Nat.lt_succ_iff.mp (by exact_mod_cast above)

end Shares

theorem sum_lt_of_bytes (bytes : ∀ bandWidth ∈ bandWidths, bandWidth < 2 ^ 8) (few : bandWidths.length < 2 ^ 16) :
    bandWidths.sum < 2 ^ 24 := by
  have bound := sum_le_card_nsmul bandWidths 255 fun bandWidth mem => Nat.le_of_lt_succ (bytes bandWidth mem)
  rw [smul_eq_mul] at bound
  omega

/-- The pieces of a one-sided request are right exactly when it is not cut or the shares in single
precision add up to its size. They do for requests of up to `2 ^ 23` bytes. -/
theorem piecesRight_iff (outside : Nat) (options : RailOptions) (bandWidths : List Nat) (requestSize : Nat)
    (some : 0 < options.driverNum) (few : options.driverNum < 2 ^ 16) (rails : bandWidths.length = options.driverNum)
    (bytes : ∀ bandWidth ∈ bandWidths, bandWidth < 2 ^ 8) (total : bandWidths.sum = options.totalBandWidth) :
    (PiecesRight requestSize (options.oneSideRails outside bandWidths requestSize) ↔
      (options.Cuts requestSize → requestSize ≤ (bandWidths.map (options.transferSize outside requestSize)).sum)) ∧
      (0 < options.totalBandWidth → requestSize ≤ 2 ^ 23 →
        PiecesRight requestSize (options.oneSideRails outside bandWidths requestSize)) := by
  have exactly : PiecesRight requestSize (options.oneSideRails outside bandWidths requestSize) ↔
      (options.Cuts requestSize → requestSize ≤ (bandWidths.map (options.transferSize outside requestSize)).sum) := by
    by_cases cuts : options.Cuts requestSize
    · rw [piecesRight_iff_of_tiles (oneSideRails_tiles rails cuts)]
      simp only [cuts, forall_const]
      omega
    · rw [oneSideRails_of_not_cuts some rails cuts, piecesRight_iff_of_tiles (.cons rfl .nil)]
      simp [cuts, Span.stop]
  refine ⟨exactly, fun pos small => exactly.mpr fun _ => ?_⟩
  exact le_sum_transferSize pos (total ▸ sum_lt_of_bytes bytes (rails ▸ few)) small total

def twoRails : RailOptions where
  enableMultiRail := true
  multiRailThresh := 8192
  driverNum := 2
  totalBandWidth := 200

theorem piecesRight_twoRails : PiecesRight 10001 (twoRails.oneSideRails 0 [100, 100] 10001) :=
  (piecesRight_iff 0 twoRails [100, 100] 10001 (by decide) (by decide) rfl (by decide) rfl).2 (by decide) (by decide)

/-- The size `2 ^ 24 + 1` is no number of the format and is rounded down: the last byte is
transferred by neither rail. -/
theorem twoRails_last_byte_lost :
    [100, 100].sum = twoRails.totalBandWidth ∧
      twoRails.oneSideRails 0 [100, 100] (2 ^ 24 + 1) = [⟨0, 2 ^ 23⟩, ⟨2 ^ 23, 2 ^ 23⟩] ∧
      ¬ PiecesRight (2 ^ 24 + 1) (twoRails.oneSideRails 0 [100, 100] (2 ^ 24 + 1)) := by
  have pieces : twoRails.oneSideRails 0 [100, 100] (2 ^ 24 + 1) = [⟨0, 2 ^ 23⟩, ⟨2 ^ 23, 2 ^ 23⟩] := by
    decide +kernel
  refine ⟨rfl, pieces, ?_⟩
  rw [pieces, piecesRight_iff_of_tiles (.cons rfl (.cons rfl .nil))]
  decide

end RailOptions

end UbsComm.Service
