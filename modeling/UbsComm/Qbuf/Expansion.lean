import UbsComm.Qbuf.ClassPool
import UbsComm.Qbuf.LayoutRight

/-! # The memory of an expansion slot

A slot is cut into sub-slots of `QBUF_MEMALIGN_SIZE` bytes.  In split mode a sub-slot
holds its data blocks first and their headers behind them; in combined mode every block
starts with its header. -/

namespace UbsComm.Qbuf

open Library List

def qbufMemalignSize : Nat := 2 * 1024 * 1024

variable (mode : BufMode)

def subSlotBlkCount (blkSize : Nat) : Nat :=
  match mode with
  | .split => qbufMemalignSize / (blkSize + sizeofUmqBuf)
  | .combine => qbufMemalignSize / blkSize

def subSlotDataBufSize (blkSize : Nat) : Nat := subSlotBlkCount mode blkSize * blkSize

def subSlotHeader (blkSize buffer i : Nat) : Nat :=
  match mode with
  | .split => buffer + subSlotDataBufSize .split blkSize + i * sizeofUmqBuf
  | .combine => buffer + i * blkSize

/-- The `i`-th header of a sub-slot, as the init functions write it. -/
def subSlotBuf (blkSize mempoolId buffer i : Nat) : Buf where
  addr := subSlotHeader mode blkSize buffer i
  mempoolId := mempoolId
  mempoolWithoutData := false
  bufSize := match mode with
    | .split => blkSize + sizeofUmqBuf
    | .combine => blkSize
  dataSize := match mode with
    | .split => blkSize
    | .combine => blkSize - sizeofUmqBuf
  totalDataSize := match mode with
    | .split => blkSize
    | .combine => blkSize - sizeofUmqBuf
  headroomSize := 0
  firstFragment := false
  bufData := match mode with
    | .split => buffer + i * blkSize
    | .combine => subSlotHeader .combine blkSize buffer i + sizeofUmqBuf
  rxFallback := false

/-- `sub_slot_with_data_slplt_init` and `sub_slot_with_data_combine_init`: every header is
put at the head of the free list. -/
def subSlotInit (blkSize mempoolId buffer blkCount : Nat) (list : List Buf) : List Buf :=
  (range blkCount).foldl (fun list i => subSlotBuf mode blkSize mempoolId buffer i :: list) list

/-- The loop over the sub-slots, `remain` blocks being still to be placed. -/
def subSlotsInit (mode : BufMode) (blkSize mempoolId : Nat) : Nat → Nat → Nat → List Buf → List Buf
  | 0, _, _, list => list
  | subSlots + 1, buffer, remain, list =>
    let blkCount := min (subSlotBlkCount mode blkSize) remain
    subSlotsInit mode blkSize mempoolId subSlots (buffer + qbufMemalignSize) (remain - blkCount)
      (subSlotInit mode blkSize mempoolId buffer blkCount list)

def subSlotCount (blkSize blkCount : Nat) : Nat :=
  (blkCount + subSlotBlkCount mode blkSize - 1) / subSlotBlkCount mode blkSize

/-- What decides how much memory an expansion of a size class takes. -/
structure ClassConfig where
  mode : BufMode
  blkSize : Nat
  expansionSize : Nat
  batchCnt : Nat
  disableScaleCap : Bool

def qbufPoolExpansionSizeRamp0 : Nat := 8 * 1024 * 1024

variable (config : ClassConfig)

def getDynamicExpansionSize (slotCount : Nat) : Nat :=
  if slotCount ≤ 1 then min qbufPoolExpansionSizeRamp0 config.expansionSize else config.expansionSize

def expansionBlkCount (slotCount : Nat) : Nat :=
  max 1 (getDynamicExpansionSize config slotCount / config.blkSize)

/-- The bytes `memalign` is asked for. -/
def slotTotalSize (slotCount : Nat) : Nat :=
  qbufMemalignSize * subSlotCount config.mode config.blkSize (expansionBlkCount config slotCount)

/-- `slot_with_data_init` in the memory that `memalign` has handed out. -/
def slotWithDataInit (slotCount slotId buffer : Nat) : Slot where
  slotId := slotId
  freeBlockList :=
    subSlotsInit config.mode config.blkSize (slotId + qbufPoolExpSlotIdMin)
      (subSlotCount config.mode config.blkSize (expansionBlkCount config slotCount)) buffer
      (expansionBlkCount config slotCount) []
  freeBlockCnt := expansionBlkCount config slotCount
  totalBlockCnt := expansionBlkCount config slotCount
  shrinkPending := false

/-! ## Its headers -/

/-- Blocks that fit into a sub-slot at all. -/
structure ClassConfig.Valid : Prop where
  positive : 0 < config.blkSize
  fits : 0 < subSlotBlkCount config.mode config.blkSize

variable {mode} {blkSize mempoolId buffer i j count remain : Nat} {list : List Buf} {config}

theorem subSlotInit_eq : subSlotInit mode blkSize mempoolId buffer count list =
    ((range count).map (subSlotBuf mode blkSize mempoolId buffer)).reverse ++ list := by
  rw [subSlotInit, ← foldl_map (f := subSlotBuf mode blkSize mempoolId buffer) (g := fun list buf => buf :: list),
    foldl_flip_cons_eq_append, map_id']

/-- The blocks of a sub slot and, in split mode, their headers fit into it. -/
theorem subSlot_fits (mode : BufMode) (blkSize : Nat) :
    subSlotDataBufSize mode blkSize +
      (match mode with | .split => subSlotBlkCount mode blkSize * sizeofUmqBuf | .combine => 0) ≤ qbufMemalignSize := by
  cases mode with
  | split =>
    simp only [subSlotDataBufSize]
    rw [← Nat.mul_add]
    exact Nat.div_mul_le_self _ _
  | combine => exact Nat.div_mul_le_self _ _

theorem row_le {k n : Nat} (size : Nat) (lt : k < n) : k * size + size ≤ n * size := by
  rw [← Nat.succ_mul]
  exact Nat.mul_le_mul_right _ lt

theorem subSlotHeader_bounds (positive : 0 < blkSize) (small : i < subSlotBlkCount mode blkSize) :
    buffer ≤ subSlotHeader mode blkSize buffer i ∧ subSlotHeader mode blkSize buffer i < buffer + qbufMemalignSize := by
  have fits := subSlot_fits mode blkSize
  have block := row_le blkSize small
  have header := row_le sizeofUmqBuf small
  have size : 0 < sizeofUmqBuf := by decide
  cases mode <;> simp only [subSlotHeader, subSlotDataBufSize] at fits ⊢ <;> omega

theorem subSlotHeader_injective (positive : 0 < blkSize) : (subSlotHeader mode blkSize buffer).Injective := by
  intro i j same
  cases mode with
  | split =>
    have strides : i * sizeofUmqBuf = j * sizeofUmqBuf := by
      simp only [subSlotHeader] at same
      omega
    exact Nat.eq_of_mul_eq_mul_right (by decide) strides
  | combine =>
    have strides : i * blkSize = j * blkSize := by
      simp only [subSlotHeader] at same
      omega
    exact Nat.eq_of_mul_eq_mul_right positive strides

theorem subSlotBlkCount_pos (mode : BufMode) (small : blkSize ≤ 2 ^ 20) (large : sizeofUmqBuf < blkSize) :
    0 < subSlotBlkCount mode blkSize := by
  cases mode <;> exact Nat.div_pos (by rw [qbufMemalignSize]; omega) (by omega)

def slotBuf (mode : BufMode) (blkSize mempoolId buffer i : Nat) : Buf :=
  subSlotBuf mode blkSize mempoolId (buffer + i / subSlotBlkCount mode blkSize * qbufMemalignSize)
    (i % subSlotBlkCount mode blkSize)

/-- The loop places the blocks in the order of their numbers. -/
theorem subSlotsInit_eq (fits : 0 < subSlotBlkCount mode blkSize) (mempoolId subSlots buffer remain : Nat)
    (list : List Buf) :
    subSlotsInit mode blkSize mempoolId subSlots buffer remain list =
      ((range (min remain (subSlots * subSlotBlkCount mode blkSize))).map
        (slotBuf mode blkSize mempoolId buffer)).reverse ++ list := by
  induction subSlots generalizing buffer remain list with
  | zero => rw [Nat.zero_mul, Nat.min_zero, subSlotsInit, range_zero, map_nil, reverse_nil, nil_append]
  | succ subSlots ih =>
    rw [subSlotsInit, subSlotInit_eq, ih, ← append_assoc, ← reverse_append]
    congr 2
    generalize same : subSlotBlkCount mode blkSize = count at *
    have first : ∀ i ∈ range (min count remain), subSlotBuf mode blkSize mempoolId buffer i =
        slotBuf mode blkSize mempoolId buffer i := by
      intro i listed
      have small : i < count := by
        rw [mem_range] at listed
        omega
      rw [slotBuf, same, Nat.div_eq_of_lt small, Nat.mod_eq_of_lt small, Nat.zero_mul, Nat.add_zero]
    rw [map_congr_left first]
    by_cases all : remain ≤ count
    · rw [Nat.succ_mul, Nat.min_eq_right all, Nat.sub_self, Nat.zero_min, range_zero, map_nil, append_nil,
        Nat.min_eq_left (by omega)]
    · have cut : min remain ((subSlots + 1) * count) = count + min (remain - count) (subSlots * count) := by
        rw [Nat.succ_mul]
        omega
      rw [Nat.min_eq_left (by omega), cut, range_add, map_append, map_map]
      refine congrArg _ (map_congr_left fun i _ => ?_)
      rw [slotBuf, Function.comp_apply, slotBuf, same, Nat.add_div_left i fits, Nat.add_mod_left, Nat.succ_mul,
        Nat.add_assoc, Nat.add_comm qbufMemalignSize]

theorem slotWithDataInit_eq (valid : config.Valid) (slotCount slotId buffer : Nat) :
    (slotWithDataInit config slotCount slotId buffer).freeBlockList =
      ((range (expansionBlkCount config slotCount)).map
        (slotBuf config.mode config.blkSize (slotId + qbufPoolExpSlotIdMin) buffer)).reverse := by
  simp only [slotWithDataInit]
  have rounded := Nat.div_add_mod (expansionBlkCount config slotCount + subSlotBlkCount config.mode config.blkSize - 1)
    (subSlotBlkCount config.mode config.blkSize)
  have rest :=
    Nat.mod_lt (expansionBlkCount config slotCount + subSlotBlkCount config.mode config.blkSize - 1) valid.fits
  rw [subSlotsInit_eq valid.fits, append_nil, subSlotCount, Nat.mul_comm, Nat.min_eq_left (by omega)]

theorem subSlot_lt (fits : 0 < subSlotBlkCount mode blkSize) (small : i < count) :
    i / subSlotBlkCount mode blkSize * qbufMemalignSize + qbufMemalignSize ≤
      qbufMemalignSize * subSlotCount mode blkSize count := by
  rw [Nat.mul_comm qbufMemalignSize]
  apply row_le
  rw [subSlotCount, Nat.div_lt_iff_lt_mul fits]
  have cover := Nat.lt_div_mul_add fits (a := count + subSlotBlkCount mode blkSize - 1)
  omega

/-- Headers that stand in their own places between `low` and `high`. -/
structure PlacedIn (mempoolId low high : Nat) (bufs : List Buf) : Prop where
  routed : ∀ buf ∈ bufs, buf.mempoolId = mempoolId
  low : ∀ buf ∈ bufs, low ≤ buf.addr
  high : ∀ buf ∈ bufs, buf.addr < high
  distinct : (bufs.map Buf.addr).Nodup

/-- A new slot lists all its blocks, each in its own place in the slot's memory. -/
theorem slotWithDataInit_placed (valid : config.Valid) (slotCount slotId buffer : Nat) :
    (slotWithDataInit config slotCount slotId buffer).freeBlockList.length = expansionBlkCount config slotCount ∧
      PlacedIn (slotId + qbufPoolExpSlotIdMin) buffer (buffer + slotTotalSize config slotCount)
        (slotWithDataInit config slotCount slotId buffer).freeBlockList := by
  rw [slotWithDataInit_eq valid]
  have bounds := fun i => @subSlotHeader_bounds config.mode config.blkSize
    (buffer + i / subSlotBlkCount config.mode config.blkSize * qbufMemalignSize) _ valid.positive
      (Nat.mod_lt i valid.fits)
  refine ⟨by simp, by simp [slotBuf, subSlotBuf], ?_, ?_, ?_⟩
  · simpa [slotBuf, subSlotBuf] using fun i _ => Nat.le_trans (Nat.le_add_right _ _) (bounds i).1
  · simp only [slotBuf, subSlotBuf, mem_reverse, mem_map, mem_range, slotTotalSize, forall_exists_index, and_imp,
      forall_apply_eq_imp_iff₂]
    intro i small
    have inside := @subSlot_lt config.mode _ _ _ valid.fits small
    have high := (bounds i).2
    omega
  · rw [map_reverse, nodup_reverse, map_map]
    refine nodup_range.map fun i j same => ?_
    have quotient : i / subSlotBlkCount config.mode config.blkSize =
        j / subSlotBlkCount config.mode config.blkSize := by
      have here := bounds i
      have there := bounds j
      rw [show subSlotHeader _ _ _ _ = subSlotHeader _ _ _ _ from same] at here
      rw [qbufMemalignSize] at *
      omega
    have remainder := subSlotHeader_injective valid.positive (by simpa [slotBuf, subSlotBuf, quotient] using same)
    rw [← Nat.div_add_mod i (subSlotBlkCount config.mode config.blkSize), quotient, remainder, Nat.div_add_mod]

/-! ## Its blocks -/

/-- Where a block's data and its header are. -/
def Buf.spans (buf : Buf) : List Span := [⟨buf.bufData, buf.dataSize⟩, ⟨buf.addr, sizeofUmqBuf⟩]

theorem subSlotBuf_inside (large : sizeofUmqBuf < blkSize) (small : i < subSlotBlkCount mode blkSize) {span : Span}
    (mem : span ∈ (subSlotBuf mode blkSize mempoolId buffer i).spans) :
    buffer ≤ span.start ∧ span.stop ≤ buffer + qbufMemalignSize := by
  have fits := subSlot_fits mode blkSize
  have block := row_le blkSize small
  have header := row_le sizeofUmqBuf small
  cases mode <;>
    · simp only [Buf.spans, subSlotBuf, subSlotHeader, subSlotDataBufSize, mem_cons, not_mem_nil, or_false] at mem fits
      rcases mem with rfl | rfl <;> simp only [Span.stop] <;> omega

theorem subSlotBuf_apart (small : i < subSlotBlkCount mode blkSize) :
    (subSlotBuf mode blkSize mempoolId buffer i).spans.Pairwise Span.Apart := by
  have block := row_le blkSize small
  rw [Buf.spans, pairwise_pair]
  cases mode <;> simp only [subSlotBuf, subSlotHeader, subSlotDataBufSize, Span.Apart, Span.stop] <;> omega

theorem subSlotBufs_apart (large : sizeofUmqBuf < blkSize) (lt : i < j) (small : j < subSlotBlkCount mode blkSize)
    {one two : Span} (mem : one ∈ (subSlotBuf mode blkSize mempoolId buffer i).spans)
    (other : two ∈ (subSlotBuf mode blkSize mempoolId buffer j).spans) : one.Apart two := by
  have block := row_le blkSize lt
  have header := row_le sizeofUmqBuf lt
  have last := row_le blkSize small
  cases mode <;>
    · simp only [Buf.spans, subSlotBuf, subSlotHeader, subSlotDataBufSize, mem_cons, not_mem_nil, or_false] at mem other
      rcases mem with rfl | rfl <;> rcases other with rfl | rfl <;> simp only [Span.Apart, Span.stop] <;> omega

theorem slotBufs_apart (large : sizeofUmqBuf < blkSize) (fits : 0 < subSlotBlkCount mode blkSize) (lt : i < j)
    {one two : Span} (mem : one ∈ (slotBuf mode blkSize mempoolId buffer i).spans)
    (other : two ∈ (slotBuf mode blkSize mempoolId buffer j).spans) : one.Apart two := by
  have here := Nat.mod_lt i fits
  have there := Nat.mod_lt j fits
  obtain same | before := Nat.eq_or_lt_of_le (Nat.div_le_div_right (c := subSlotBlkCount mode blkSize) lt.le)
  · have left := Nat.div_add_mod i (subSlotBlkCount mode blkSize)
    have right := Nat.div_add_mod j (subSlotBlkCount mode blkSize)
    rw [slotBuf, same] at mem
    rw [same] at left
    exact subSlotBufs_apart large (by omega) there mem other
  · -- the first block ends in a sub-slot before the one of the second
    have rows := row_le qbufMemalignSize before
    have high := (subSlotBuf_inside large here mem).2
    have low := (subSlotBuf_inside large there other).1
    exact .inl (by omega)

/-- The blocks of a new slot: all are listed, each in one sub-slot of the buffer, and none overlaps another. -/
structure Slot.BlocksRight (buffer size : Nat) (slot : Slot) : Prop where
  listed : slot.freeBlockList.length = slot.totalBlockCnt
  inSubSlot : ∀ buf ∈ slot.freeBlockList, ∃ subSlot, (subSlot + 1) * qbufMemalignSize ≤ size ∧ ∀ span ∈ buf.spans,
    buffer + subSlot * qbufMemalignSize ≤ span.start ∧ span.stop ≤ buffer + (subSlot + 1) * qbufMemalignSize
  apart : (slot.freeBlockList.flatMap Buf.spans).Pairwise Span.Apart

theorem slotBlocks_right {cfg : InitCfg} {plan : PoolPlan} (accepted : Accepted cfg plan)
    (sized : config.blkSize ∈ plan.sizes)
    (slotCount slotId buffer : Nat) :
    (slotWithDataInit config slotCount slotId buffer).BlocksRight buffer (slotTotalSize config slotCount) := by
  obtain ⟨positive, small, rounded⟩ := accepted.sizesOk.each _ sized
  have large : sizeofUmqBuf < config.blkSize := by
    rw [sizeofUmqBuf]
    omega
  have fits := subSlotBlkCount_pos config.mode small large
  have blocks := slotWithDataInit_eq ⟨positive, fits⟩ slotCount slotId buffer
  constructor
  · exact (slotWithDataInit_placed ⟨positive, fits⟩ ..).1
  · intro buf listed
    rw [blocks, mem_reverse, mem_map] at listed
    obtain ⟨i, inRange, rfl⟩ := listed
    refine ⟨i / subSlotBlkCount config.mode config.blkSize, ?_, fun span mem => ?_⟩
    · rw [Nat.succ_mul]
      exact subSlot_lt fits (mem_range.mp inRange)
    · rw [Nat.succ_mul, ← Nat.add_assoc]
      exact subSlotBuf_inside large (Nat.mod_lt i fits) mem
  · rw [blocks, pairwise_flatMap, pairwise_reverse, pairwise_map]
    constructor
    · simp only [mem_reverse, mem_map]
      rintro _ ⟨i, -, rfl⟩
      exact subSlotBuf_apart (Nat.mod_lt i fits)
    · exact pairwise_lt_range.imp fun lt two other one mem => (slotBufs_apart large fits lt mem other).symm

theorem slotBlocks_right_default :
    Accepted defaultCfg defaultPlan ∧ 4096 ∈ defaultPlan.sizes ∧
      (slotWithDataInit ⟨.split, 4096, 2 ^ 25, 64, false⟩ 2 0 (2 ^ 21)).BlocksRight (2 ^ 21)
        (slotTotalSize ⟨.split, 4096, 2 ^ 25, 64, false⟩ 2) :=
  have accepted : Accepted defaultCfg defaultPlan := ⟨by decide, by decide⟩
  have sized : 4096 ∈ defaultPlan.sizes := by decide
  ⟨accepted, sized, slotBlocks_right accepted sized 2 0 (2 ^ 21)⟩

end UbsComm.Qbuf
