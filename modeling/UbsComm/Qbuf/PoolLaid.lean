import UbsComm.Qbuf.DataToHead
import Mathlib.Data.List.Pairwise

/-! # The main pool as it is laid out

For block sizes that are powers of two every address of a block leads back to the block, and every
header has an address of its own. -/

namespace UbsComm.Qbuf

open Library List

/-- What is known of the blocks of the main pool. -/
structure PoolBlocks (pool : QbufPool) : Prop where
  right : LayoutRight pool
  counts : ∀ region ∈ pool.regions, 0 < region.blkCnt
  powers : ∀ size ∈ pool.sizes, ∃ k ≤ 20, size = 2 ^ k
  large : ∀ size ∈ pool.sizes, sizeofUmqBuf < size
  distinct : pool.sizes.Nodup
  few : pool.sizes.length ≤ umqQbufSizeClassMax
  positive : 0 < pool.dataBuffer

/-- The headers are inside the pool and have addresses of their own. -/
structure PoolLaid (pool : QbufPool) : Prop extends PoolBlocks pool where
  headerInside : ∀ region ∈ pool.regions, ∀ i < region.blkCnt,
    pool.dataBuffer ≤ region.header pool.mode i ∧ region.header pool.mode i < pool.dataBuffer + pool.totalSize
  headerInj : ∀ one ∈ pool.regions, ∀ two ∈ pool.regions, ∀ i < one.blkCnt, ∀ j < two.blkCnt,
    one.header pool.mode i = two.header pool.mode j → one = two ∧ i = j

namespace PoolBlocks

variable {pool : QbufPool} {region other : ClassRegion} {i data : Nat} (laid : PoolBlocks pool)

include laid

variable (mem : region ∈ pool.regions)
include mem

theorem size : sizeofUmqBuf < region.blkSz :=
  laid.large _ (mem_map_of_mem mem)

theorem inside (small : i < region.blkCnt) :
    pool.dataBuffer ≤ region.block i ∧ region.block i + region.blkSz ≤ pool.dataBuffer + pool.totalSize :=
  laid.right.inside ⟨region.block i, region.blkSz⟩
    (mem_flatMap.mpr ⟨region, mem, ClassRegion.mem_dataBlocks small⟩)

theorem exists_block (low : region.dataStart ≤ data) (high : data < region.dataStart + region.dataBytes) :
    ∃ i < region.blkCnt, region.block i ≤ data ∧ data < region.block i + region.blkSz := by
  have large := laid.size mem
  have positive : 0 < region.blkSz := by omega
  refine ⟨(data - region.dataStart) / region.blkSz, ?_, ?_, ?_⟩
  · rw [Nat.div_lt_iff_lt_mul positive]
    rw [ClassPlan.dataBytes] at high
    omega
  · have := Nat.div_mul_le_self (data - region.dataStart) region.blkSz
    rw [ClassRegion.block]
    omega
  · have := Nat.lt_div_mul_add positive (a := data - region.dataStart)
    rw [ClassRegion.block]
    omega

theorem region_unique (otherListed : other ∈ pool.regions)
    (low : region.dataStart ≤ data) (high : data < region.dataStart + region.dataBytes)
    (otherLow : other.dataStart ≤ data) (otherHigh : data < other.dataStart + other.dataBytes) : region = other := by
  by_contra ne
  obtain ⟨i, small, from', to'⟩ := laid.exists_block mem low high
  obtain ⟨j, otherSmall, otherFrom, otherTo⟩ := laid.exists_block otherListed otherLow otherHigh
  have across := (pairwise_flatMap.mp laid.right.disjoint).2
  have : Std.Symm fun one two : ClassRegion => ∀ a ∈ one.dataBlocks, ∀ b ∈ two.dataBlocks, a.Apart b :=
    ⟨fun _ _ apart a inOne b inTwo => (apart b inTwo a inOne).symm⟩
  have apart : (Span.mk (region.block i) region.blkSz).Apart ⟨other.block j, other.blkSz⟩ :=
    across.forall mem otherListed ne _ (ClassRegion.mem_dataBlocks small) _
      (ClassRegion.mem_dataBlocks otherSmall)
  simp only [Span.Apart, Span.stop] at apart
  omega

end PoolBlocks

variable {region : ClassRegion}

theorem ClassRegion.inside_of_block {i data : Nat} (small : i < region.blkCnt)
    (low : region.block i ≤ data) (high : data < region.block i + region.blkSz) :
    region.dataStart ≤ data ∧ data < region.dataStart + region.dataBytes := by
  have row := row_le region.blkSz small
  rw [ClassRegion.block] at low high
  rw [ClassPlan.dataBytes]
  omega

theorem ClassRegion.id_eq {i data : Nat} (low : region.block i ≤ data)
    (high : data < region.block i + region.blkSz) : (data - region.dataStart) / region.blkSz = i := by
  rw [block] at low high
  obtain ⟨offset, rfl⟩ := Nat.exists_eq_add_of_le low
  have positive : 0 < region.blkSz := by omega
  have shape : region.dataStart + i * region.blkSz + offset - region.dataStart = region.blkSz * i + offset := by
    rw [Nat.mul_comm region.blkSz]
    omega
  rw [shape, Nat.mul_add_div positive, Nat.div_eq_of_lt (by omega), Nat.add_zero]

/-! ## Laid out by `umq_qbuf_pool_init` -/

section Init

variable {cfg : InitCfg} {plan : PoolPlan} {bufAddr : Nat} {pool : QbufPool}

/-- The regions in the order in which they are placed, and their headers in split mode. -/
theorem initLayout_regions (accepted : Accepted cfg plan) (powers : ∀ size ∈ plan.sizes, size.isPowerOfTwo)
    (aligned : 2 ^ 21 ∣ bufAddr) (top : bufAddr + plan.normalIoBufSize ≤ 2 ^ 64) :
    (initLayout cfg plan bufAddr).regions.map (fun region => region.toClassPlan) = plan.classes := by
  have tight := accepted.placedTight powers aligned top
  have counts : ∀ entry ∈ (placeData bufAddr plan.classes.reverse).1, 0 < entry.1.blkCnt := by
    intro entry mem
    apply accepted.blkCnt_positive
    rw [← mem_reverse, ← tight.order]
    exact mem_map_of_mem mem
  rw [initLayout]
  cases cfg.bufMode with
  | split =>
    have same := (@placeHeaders_spec _ (placeData bufAddr plan.classes.reverse).2 counts).1
    have plans := congrArg (map Prod.fst) same
    rw [map_map, tight.order] at plans
    rw [initSplitModeLayout, map_reverse]
    exact (congrArg reverse plans).trans (reverse_reverse _)
  | combine =>
    rw [initCombineModeLayout, map_reverse, map_map]
    exact (congrArg reverse tight.order).trans (reverse_reverse _)

theorem poolBlocks_initLayout (accepted : Accepted cfg plan) (powers : ∀ size ∈ plan.sizes, size.isPowerOfTwo)
    (aligned : 2 ^ 21 ∣ bufAddr) (top : bufAddr + plan.normalIoBufSize ≤ 2 ^ 64) (positive : 0 < bufAddr) :
    PoolBlocks (initLayout cfg plan bufAddr) := by
  have plans := initLayout_regions accepted powers aligned top
  have sizes : (initLayout cfg plan bufAddr).sizes = plan.sizes := by
    rw [PoolPlan.sizes, ← plans, map_map]
    rfl
  have ok := accepted.sizesOk
  refine ⟨initLayout_right accepted powers aligned top, ?_, ?_, ?_, ?_, ?_, ?_⟩
  · intro region mem
    exact accepted.blkCnt_positive (plans ▸ mem_map_of_mem mem)
  · rw [sizes]
    intro size mem
    obtain ⟨k, same⟩ := powers size mem
    have small : 2 ^ k ≤ 2 ^ 20 := same ▸ (ok.each size mem).2.1
    exact ⟨k, (Nat.pow_le_pow_iff_right (by decide)).mp small, same⟩
  · rw [sizes]
    intro size mem
    have each := ok.each size mem
    show 128 < size
    omega
  · rw [sizes]
    exact ok.chain.imp fun smaller => Nat.ne_of_lt smaller.1
  · rw [sizes]
    exact (initSizeClassConfig_iff.mp accepted.2).1.2
  · rw [initLayout]
    cases cfg.bufMode <;> exact positive

/-- In split mode the headers of a class follow those of the class before. -/
theorem initSplitModeLayout_headers {totalSize : Nat} {classes : List ClassPlan}
    (tight : PlacedTight bufAddr classes.reverse (placeData bufAddr classes.reverse))
    (counts : ∀ class' ∈ classes, 0 < class'.blkCnt) (bytes : totalSize = poolBytes .split classes) :
    ((initSplitModeLayout bufAddr totalSize classes).regions.map ClassRegion.headerSpan).Pairwise Span.Apart ∧
      ∀ region ∈ (initSplitModeLayout bufAddr totalSize classes).regions,
        bufAddr ≤ region.headerSpan.start ∧ region.headerSpan.stop ≤ bufAddr + totalSize := by
  have placedCounts : ∀ entry ∈ (placeData bufAddr classes.reverse).1, 0 < entry.1.blkCnt := by
    intro entry mem
    apply counts
    rw [← mem_reverse, ← tight.order]
    exact mem_map_of_mem mem
  have headers := (@placeHeaders_spec _ (placeData bufAddr classes.reverse).2 placedCounts).2
  have headerSum : ((placeData bufAddr classes.reverse).1.map fun entry => entry.1.blkCnt * sizeofUmqBuf).sum =
      headerBytes classes := by
    have sum := congrArg headerBytes tight.order
    rw [headerBytes, headerBytes, map_map, map_reverse, sum_reverse] at sum
    exact sum
  have stop := tight.stop
  rw [map_reverse, sum_reverse] at stop
  rw [initSplitModeLayout]
  constructor
  · rw [map_reverse, pairwise_reverse]
    exact headers.pairwise.imp Span.Apart.symm
  · intro region mem
    have bounds := headers.bounds (mem_map_of_mem (mem_reverse.mp mem))
    rw [bytes, poolBytes_split]
    omega

/-- Headers in spans of their own. -/
theorem PoolBlocks.laid_of_headers (blocks : PoolBlocks pool) (split : pool.mode = .split)
    (apart : (pool.regions.map ClassRegion.headerSpan).Pairwise Span.Apart) (inside : ∀ region ∈ pool.regions,
      pool.dataBuffer ≤ region.headerSpan.start ∧ region.headerSpan.stop ≤ pool.dataBuffer + pool.totalSize) :
    PoolLaid pool := by
  have within : ∀ region ∈ pool.regions, ∀ i < region.blkCnt, region.headerSpan.start ≤ region.header pool.mode i ∧
      region.header pool.mode i + sizeofUmqBuf ≤ region.headerSpan.stop := by
    intro region _ i small
    have row := row_le sizeofUmqBuf small
    simp only [split, ClassRegion.header, ClassRegion.headerSpan, Span.stop]
    omega
  have header : 0 < sizeofUmqBuf := by decide
  refine { blocks with headerInside := ?_, headerInj := ?_ }
  · intro region mem i small
    have := within region mem i small
    have := inside region mem
    omega
  · intro one oneListed two twoListed i oneSmall j twoSmall same
    have oneWithin := within one oneListed i oneSmall
    have twoWithin := within two twoListed j twoSmall
    have regions : one = two := by
      by_contra ne
      have : Std.Symm fun one two : ClassRegion => one.headerSpan.Apart two.headerSpan := ⟨fun _ _ => Span.Apart.symm⟩
      have spans := (pairwise_map.mp apart).forall oneListed twoListed ne
      rw [Span.Apart] at spans
      omega
    subst regions
    simp only [split, ClassRegion.header, Nat.add_left_cancel_iff] at same
    exact ⟨rfl, Nat.eq_of_mul_eq_mul_right header same⟩

/-- In combined mode the headers stand at the starts of the blocks. -/
theorem PoolBlocks.laid_of_combine (blocks : PoolBlocks pool) (combine : pool.mode = .combine) : PoolLaid pool := by
  refine { blocks with headerInside := ?_, headerInj := ?_ }
  · intro region mem i small
    have inside := blocks.inside mem small
    have large := blocks.size mem
    simp only [combine, ClassRegion.header]
    omega
  · intro one oneListed two twoListed i oneSmall j twoSmall same
    have oneLarge := blocks.size oneListed
    have twoLarge := blocks.size twoListed
    simp only [combine, ClassRegion.header] at same
    obtain ⟨oneLow, oneHigh⟩ := ClassRegion.inside_of_block oneSmall (Nat.le_refl (one.block i)) (by omega)
    obtain ⟨twoLow, twoHigh⟩ := ClassRegion.inside_of_block twoSmall (Nat.le_refl (two.block j)) (by omega)
    have regions := blocks.region_unique oneListed twoListed oneLow oneHigh (same ▸ twoLow) (same ▸ twoHigh)
    subst regions
    simp only [ClassRegion.block, Nat.add_left_cancel_iff] at same
    exact ⟨rfl, Nat.eq_of_mul_eq_mul_right (by omega) same⟩

theorem poolLaid_initLayout (accepted : Accepted cfg plan) (powers : ∀ size ∈ plan.sizes, size.isPowerOfTwo)
    (aligned : 2 ^ 21 ∣ bufAddr) (top : bufAddr + plan.normalIoBufSize ≤ 2 ^ 64) (positive : 0 < bufAddr) :
    PoolLaid (initLayout cfg plan bufAddr) := by
  have blocks := poolBlocks_initLayout accepted powers aligned top positive
  have tight := accepted.placedTight powers aligned top
  have bytes := (umqQbufPoolCfgCheck_some accepted.1).2
  rw [initLayout] at blocks ⊢
  cases mode : cfg.bufMode with
  | split =>
    rw [mode] at blocks bytes
    have headers := initSplitModeLayout_headers tight (fun _ mem => accepted.blkCnt_positive mem) bytes
    exact blocks.laid_of_headers rfl headers.1 headers.2
  | combine =>
    rw [mode] at blocks
    exact blocks.laid_of_combine rfl

end Init

end UbsComm.Qbuf
