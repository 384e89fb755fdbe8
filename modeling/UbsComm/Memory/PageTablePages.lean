import UbsComm.Memory.PageTableEntries

/-! # The pages of a region

The first page of a range is the largest one that its bounds allow, so that a range cut off behind a
page is cut into the same pages before. -/

namespace UbsComm.Memory

open Library

variable {start stop middle address order n k : Nat}

theorem isAddrAligned_iff : isAddrAligned address = true ↔ 16 ∣ address := by
  have mask : address &&& (1 <<< pageShiftMin - 1) = address % 2 ^ 4 := Nat.and_two_pow_sub_one_eq_mod address 4
  rw [isAddrAligned, mask, beq_iff_eq]
  exact (Nat.dvd_iff_mod_eq_zero ..).symm

theorem validatePage_iff {levels : Nat} :
    validatePage address (pageShiftMin + 4 * levels) = true ↔ 2 ^ (pageShiftMin + 4 * levels) ∣ address := by
  have mask : address &&& (1 <<< (pageShiftMin + 4 * levels) - 1) = address % 2 ^ (pageShiftMin + 4 * levels) := by
    rw [Nat.one_shiftLeft, Nat.and_two_pow_sub_one_eq_mod]
  rw [validatePage, mask]
  simp [Nat.dvd_iff_mod_eq_zero]

/-! ## The lowest and the highest bit -/

theorem two_pow_dvd_iff_testBit : 2 ^ k ∣ n ↔ ∀ i < k, n.testBit i = false := by
  rw [Nat.dvd_iff_mod_eq_zero]
  constructor
  · intro zero i below
    have bit := congrArg (Nat.testBit · i) zero
    simpa [below] using bit
  · intro unset
    apply Nat.eq_of_testBit_eq
    intro i
    by_cases below : i < k <;> simp [below, unset]

theorem le_lowestBitPosition_iff (pos : 0 < n) (small : n < 2 ^ 64) : k ≤ lowestBitPosition n ↔ 2 ^ k ∣ n := by
  obtain ⟨first, found⟩ : ∃ first, (List.range 64).find? (fun i => n.testBit i) = some first := by
    rw [← Option.isSome_iff_exists, List.find?_isSome]
    obtain ⟨i, set⟩ := Nat.exists_testBit_of_ne_zero (by omega : n ≠ 0)
    refine ⟨i, List.mem_range.mpr ?_, set⟩
    by_contra high
    rw [Nat.testBit_lt_two_pow (Nat.lt_of_lt_of_le small (Nat.pow_le_pow_right (by decide) (Nat.le_of_not_lt high)))]
      at set
    cases set
  obtain ⟨set, -, below⟩ := List.find?_range_eq_some.mp found
  rw [lowestBitPosition, found, Option.getD_some, two_pow_dvd_iff_testBit]
  constructor
  · intro le i lt
    simpa using below i (by omega)
  · intro unset
    by_contra above
    rw [unset first (by omega)] at set
    cases set

theorem le_highestBitPosition_iff (pos : 0 < n) : k ≤ highestBitPosition n ↔ 2 ^ k ≤ n :=
  Nat.le_log2 (by omega)

/-! ## The first page -/

/-- The range is not empty and its bounds are those of pages. -/
structure PageRange (start stop : Nat) : Prop where
  startAligned : 16 ∣ start
  stopAligned : 16 ∣ stop
  lt : start < stop
  small : stop < 2 ^ 64

/-- The order is that of a page that can stand first. -/
structure FirstPage (start stop levels : Nat) : Prop where
  aligned : 2 ^ (pageShiftMin + 4 * levels) ∣ start
  fits : 2 ^ (pageShiftMin + 4 * levels) ≤ stop - start

/-- The bits that decide: those of the start and of the length. -/
theorem le_maxOrder_iff {k : Nat} (range : PageRange start stop) :
    (k ≤ if start ≠ 0 then min (lowestBitPosition start) (highestBitPosition (stop - start))
      else highestBitPosition (stop - start)) ↔ 2 ^ k ∣ start ∧ 2 ^ k ≤ stop - start := by
  have lt := range.lt
  have small := range.small
  by_cases zero : start = 0
  · rw [if_neg (by omega), le_highestBitPosition_iff (by omega), zero]
    exact (and_iff_right (Nat.dvd_zero _)).symm
  · rw [if_pos zero, Nat.le_min, le_lowestBitPosition_iff (by omega) (by omega), le_highestBitPosition_iff (by omega)]

/-- The first page is the largest that can stand there. -/
theorem getNextPageOrder_spec (range : PageRange start stop) :
    ∃ levels, getNextPageOrder start stop = some (pageShiftMin + 4 * levels) ∧
      ∀ other, FirstPage start stop other ↔ other ≤ levels := by
  have lt := range.lt
  have small := range.small
  have startAligned := range.startAligned
  have stopAligned := range.stopAligned
  unfold getNextPageOrder
  rw [isAddrAligned_iff.mpr startAligned, isAddrAligned_iff.mpr stopAligned]
  simp only [Bool.not_true, Bool.or_self, Bool.false_eq_true, if_false, pageShiftMin, pteShiftPerDir, pgtAddrOrderMax]
  rw [if_neg (by omega : ¬ (stop = 0 ∧ start = 0)), if_neg (by omega : ¬ stop = start)]
  have decides := fun k => @le_maxOrder_iff start stop k range
  generalize (if start ≠ 0 then min (lowestBitPosition start) (highestBitPosition (stop - start))
    else highestBitPosition (stop - start)) = maxOrder at decides
  have low : 4 ≤ maxOrder := (decides 4).mpr ⟨startAligned, by omega⟩
  have high : maxOrder < 64 := by
    by_contra above
    have fits := ((decides 64).mp (by omega)).2
    omega
  refine ⟨(maxOrder - 4) / 4, ?_, fun other => ?_⟩
  · rw [if_neg (by omega), Option.some.injEq]
    omega
  · have first : FirstPage start stop other ↔ pageShiftMin + 4 * other ≤ maxOrder :=
      ⟨fun page => (decides _).mpr ⟨page.aligned, page.fits⟩, fun le => ⟨((decides _).mp le).1, ((decides _).mp le).2⟩⟩
    rw [first]
    simp only [pageShiftMin]
    omega

def firstLevels (start stop : Nat) : Nat := ((getNextPageOrder start stop).getD pageShiftMin - pageShiftMin) / 4

abbrev firstOrder (start stop : Nat) : Nat := pageShiftMin + 4 * firstLevels start stop

section First

variable (range : PageRange start stop)
include range

theorem getNextPageOrder_eq : getNextPageOrder start stop = some (firstOrder start stop) := by
  obtain ⟨levels, next, -⟩ := getNextPageOrder_spec range
  rw [firstOrder, firstLevels, next, Option.getD_some, Nat.add_sub_cancel_left, Nat.mul_div_cancel_left _ (by decide)]

theorem firstPage_iff {other : Nat} : FirstPage start stop other ↔ other ≤ firstLevels start stop := by
  obtain ⟨levels, next, largest⟩ := getNextPageOrder_spec range
  rw [largest, firstLevels, next, Option.getD_some, Nat.add_sub_cancel_left, Nat.mul_div_cancel_left _ (by decide)]

theorem firstPage : FirstPage start stop (firstLevels start stop) := (firstPage_iff range).mpr (Nat.le_refl _)

theorem firstPage_stop_le : start + 2 ^ firstOrder start stop ≤ stop := by
  have fits : 2 ^ firstOrder start stop ≤ stop - start := (firstPage range).fits
  have lt := range.lt
  omega

omit range in
theorem sixteen_dvd_page : 16 ∣ 2 ^ firstOrder start stop := Nat.pow_dvd_pow 2 (Nat.le_add_right 4 _)

theorem firstOrder_le : firstOrder start stop ≤ 60 := by
  have stopLe := firstPage_stop_le range
  have small := range.small
  by_contra high
  have levels : 64 ≤ firstOrder start stop := by
    simp only [firstOrder, pageShiftMin] at high ⊢
    omega
  have large := Nat.pow_le_pow_right (by decide : 0 < 2) levels
  omega

theorem advanceAddrByOrder_eq :
    advanceAddrByOrder start (firstOrder start stop) = start + 2 ^ firstOrder start stop := by
  have stopLe := firstPage_stop_le range
  have small := range.small
  rw [advanceAddrByOrder, if_neg (Nat.not_le.mpr (Nat.lt_of_le_of_lt (firstOrder_le range) (by decide))),
    Nat.one_shiftLeft, Nat.mod_eq_of_lt (by omega)]

/-- A range that is cut off behind the first page has the same first page. -/
theorem firstLevels_cut (aligned : 16 ∣ middle) (behind : start + 2 ^ firstOrder start stop ≤ middle)
    (le : middle ≤ stop) : PageRange start middle ∧ firstLevels start middle = firstLevels start stop := by
  have pos := Nat.two_pow_pos (firstOrder start stop)
  have cut : PageRange start middle :=
    ⟨range.startAligned, aligned, by omega, Nat.lt_of_le_of_lt le range.small⟩
  refine ⟨cut, Nat.le_antisymm ?_ ?_⟩
  · have page := firstPage cut
    exact (firstPage_iff range).mp ⟨page.aligned, Nat.le_trans page.fits (by omega)⟩
  · exact (firstPage_iff cut).mp ⟨(firstPage range).aligned, by unfold firstOrder at behind; omega⟩

end First

/-! ## The page of an address -/

theorem inPage_iff {other : Nat} (aligned : 2 ^ order ∣ address) :
    InPage address order other ↔ address ≤ other ∧ other < address + 2 ^ order := by
  obtain ⟨block, rfl⟩ := aligned
  have pos := Nat.two_pow_pos order
  rw [InPage, Nat.mul_div_cancel_left _ pos, Nat.div_eq_iff pos, Nat.mul_comm block]
  omega

/-- The order of the page of the range that the address is in. -/
def orderAt (start stop address : Nat) : Nat :=
  if start < stop then
    if address < start + 2 ^ firstOrder start stop then firstOrder start stop
    else orderAt (start + 2 ^ firstOrder start stop) stop address
  else 0
termination_by stop - start
decreasing_by
  have pos := Nat.two_pow_pos (firstOrder start stop)
  omega

theorem orderAt_first (lt : start < stop) (first : address < start + 2 ^ firstOrder start stop) :
    orderAt start stop address = firstOrder start stop := by
  rw [orderAt, if_pos lt, if_pos first]

theorem orderAt_behind (lt : start < stop) (behind : ¬ address < start + 2 ^ firstOrder start stop) :
    orderAt start stop address = orderAt (start + 2 ^ firstOrder start stop) stop address := by
  rw [orderAt, if_pos lt, if_neg behind]

end UbsComm.Memory
