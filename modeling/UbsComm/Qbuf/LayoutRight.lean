import UbsComm.Library.Lists
import UbsComm.Library.Spans
import UbsComm.Qbuf.Layout
import Mathlib.Algebra.Group.Action.Defs
import Mathlib.Algebra.Order.BigOperators.Group.List
import Mathlib.Algebra.Order.Group.Nat
import Mathlib.Data.Nat.Prime.Basic

/-! # Which block sizes give a right layout

The two checks ask for sizes that divide each other.  The layout and the allocation align
by a mask, which rounds only for powers of two, and only the first two classes are checked
for that. -/

namespace UbsComm.Qbuf

open Library List

/-! ## What acceptance says -/

/-- What the first check asks of the class with number `i`. -/
structure ClassPlan.Checked (i : Nat) (plan : ClassPlan) : Prop where
  tls : 1 ≤ plan.tls ∧ plan.tls ≤ qbufPoolTlsDepthMax
  blkCnt : 1 ≤ plan.blkCnt ∧ plan.blkCnt ≤ qbufPoolBlockCountMax
  covers : plan.tls ≤ plan.blkCnt
  large : 2 ≤ i → plan.blkSz ≠ 0
  middle : i = 1 → (qbufPoolMiddleBlockSizeMin ≤ plan.blkSz ∧ plan.blkSz ≤ qbufPoolMiddleBlockSizeMax) ∧
    plan.blkSz % qbufPoolBlockSizeAlign = 0 ∧ umqIsPowerOf2 plan.blkSz

variable {cfg other : InitCfg} {plan : PoolPlan} {class' : ClassPlan} {i : Nat}

theorem checkSizeClass_eq_some_iff :
    checkSizeClass cfg i = some class' ↔ planSizeClass cfg i = class' ∧ class'.Checked i := by
  simp only [checkSizeClass]
  constructor
  · intro checked
    split_ifs at checked with tls blkCnt covers large range align power
    cases checked
    have min : qbufPoolTlsDepthMin = 1 ∧ qbufPoolBlockCountMin = 1 := ⟨rfl, rfl⟩
    refine ⟨rfl, ⟨?_, ?_, ?_, ?_, ?_⟩⟩
    · omega
    · omega
    · omega
    · exact fun isLarge empty => large ⟨isLarge, empty⟩
    · rintro rfl
      simp only [true_and, not_not] at range align power
      exact ⟨by omega, align, power⟩
  · rintro ⟨rfl, checked⟩
    obtain ⟨tls, blkCnt, covers, large, middle⟩ := checked
    have min : qbufPoolTlsDepthMin = 1 ∧ qbufPoolBlockCountMin = 1 := ⟨rfl, rfl⟩
    rw [if_neg (by omega), if_neg (by omega), if_neg (by omega), if_neg (fun both => large both.1 both.2),
      if_neg (fun both => by have := middle both.1; omega), if_neg (fun both => both.2 (middle both.1).2.1),
      if_neg (fun both => both.2 (middle both.1).2.2)]

/-- A list of block sizes as the second check wants it. -/
structure SizesOk (sizes : List Nat) : Prop where
  each : ∀ size ∈ sizes, 0 < size ∧ size ≤ qbufPoolMaxBlockSize ∧ size % 4096 = 0
  chain : sizes.Pairwise fun smaller larger => smaller < larger ∧ smaller ∣ larger

theorem checkBlockSizes_iff {before : Option Nat} {sizes : List Nat} :
    checkBlockSizes before sizes ↔
      SizesOk sizes ∧ ∀ smaller ∈ before, ∀ larger ∈ sizes, smaller < larger ∧ smaller ∣ larger := by
  induction sizes generalizing before with
  | nil =>
    simp only [checkBlockSizes, true_iff]
    exact ⟨⟨forall_mem_nil _, .nil⟩, fun _ _ => forall_mem_nil _⟩
  | cons size rest ih =>
    simp only [checkBlockSizes, Bool.and_eq_true, decide_eq_true_eq, ih, Option.all_eq_true]
    constructor
    · rintro ⟨⟨each, follows⟩, ⟨restOk, behind⟩⟩
      have first := behind size rfl
      constructor
      · constructor
        · exact forall_mem_cons.mpr ⟨⟨by omega, each.2⟩, restOk.each⟩
        · exact List.Pairwise.cons first restOk.chain
      · intro smaller same
        have here := follows smaller same
        rw [← Nat.dvd_iff_mod_eq_zero] at here
        refine forall_mem_cons.mpr ⟨here, fun larger listed => ?_⟩
        -- the sizes behind are multiples of this one
        exact ⟨Nat.lt_trans here.1 (first larger listed).1, Nat.dvd_trans here.2 (first larger listed).2⟩
    · rintro ⟨⟨each, chain⟩, follows⟩
      have sizeOk := each size mem_cons_self
      refine ⟨⟨⟨by omega, sizeOk.2⟩, fun smaller same => ?_⟩, ⟨fun other listed => ?_, chain.of_cons⟩,
        fun smaller same => ?_⟩
      · rw [← Nat.dvd_iff_mod_eq_zero]
        exact follows smaller same size mem_cons_self
      · exact each other (mem_cons_of_mem _ listed)
      · cases same
        exact fun larger listed => rel_of_pairwise_cons chain listed

def PoolPlan.sizes (plan : PoolPlan) : List Nat := plan.classes.map ClassPlan.blkSz

theorem initSizeClassConfig_iff :
    initSizeClassConfig cfg plan ↔
      (1 ≤ plan.sizes.length ∧ plan.sizes.length ≤ umqQbufSizeClassMax) ∧
        plan.sizes.head? = some (umqBufSizeSmall cfg) ∧
        SizesOk plan.sizes ∧ (cfg.disableScaleCap ∨ plan.sizes.getLastD 0 ≤ expansionSizeOf cfg.expansionSize) ∧
        plan.normalIoBufSize ≤
          if plan.normalPoolMaxSize = 0 then qbufPoolDefaultExpansionMemSize else plan.normalPoolMaxSize := by
  have base : 4096 ≤ umqBufSizeSmall cfg ∧ umqBufSizeSmall cfg ≤ 1024 * 1024 ∧ umqBufSizeSmall cfg % 4096 = 0 := by
    rw [umqBufSizeSmall]
    cases cfg.smallBlockSize <;> decide
  simp [initSizeClassConfig, PoolPlan.sizes, checkBlockSizes_iff, base]

/-- The bytes of the buffer: the classes, and in split mode the headers without data. -/
def poolBytes (mode : BufMode) (classes : List ClassPlan) : Nat :=
  (classes.map (ClassPlan.bytes mode)).sum + if mode = .split then qbufPoolInitialNodataBufCnt * sizeofUmqBuf else 0

theorem umqQbufPoolCfgCheck_some (checked : umqQbufPoolCfgCheck cfg = some plan) :
    (∃ count, (range count).map (checkSizeClass cfg) = plan.classes.map some) ∧
      plan.normalIoBufSize = poolBytes cfg.bufMode plan.classes := by
  simp only [umqQbufPoolCfgCheck, Option.bind_eq_bind, Option.bind_eq_some_iff, Option.ite_none_left_eq_some,
    Option.some.injEq] at checked
  obtain ⟨tinyIoBufSize, -, -, classes, mapped, -, -, -, rfl⟩ := checked
  exact ⟨⟨_, mapM_eq_some_iff.mp mapped⟩, rfl⟩

theorem Accepted.checked (accepted : Accepted cfg plan) (found : plan.classes[i]? = some class') :
    class'.Checked i := by
  obtain ⟨count, mapped⟩ := (umqQbufPoolCfgCheck_some accepted.1).1
  have here : ((range count).map (checkSizeClass cfg))[i]? = some (some class') := by
    rw [mapped, getElem?_map, found]
    rfl
  rw [getElem?_map, Option.map_eq_some_iff] at here
  obtain ⟨index, inRange, checked⟩ := here
  obtain ⟨_, rfl⟩ := List.getElem?_eq_some_iff.mp inRange
  rw [getElem_range] at checked
  exact (checkSizeClass_eq_some_iff.mp checked).2

theorem Accepted.blkCnt_positive (accepted : Accepted cfg plan) (mem : class' ∈ plan.classes) : 0 < class'.blkCnt := by
  obtain ⟨i, found⟩ := getElem?_of_mem mem
  exact (accepted.checked found).blkCnt.1

theorem Accepted.sizesOk (accepted : Accepted cfg plan) : SizesOk plan.sizes :=
  (initSizeClassConfig_iff.mp accepted.2).2.2.1

/-! ## A right layout -/

def ClassRegion.dataBlocks (region : ClassRegion) : List Span :=
  (range region.blkCnt).map fun i => ⟨region.block i, region.blkSz⟩

variable (pool : QbufPool)

def QbufPool.dataBlocks : List Span := pool.regions.flatMap ClassRegion.dataBlocks

/-- In combined mode the headers stand in the blocks. -/
def QbufPool.headerRegions : List Span :=
  match pool.mode with
  | .split =>
    (pool.regions.map fun region => ⟨region.headerStart, region.blkCnt * sizeofUmqBuf⟩) ++
      [⟨pool.extHeaderBuffer, qbufPoolInitialNodataBufCnt * sizeofUmqBuf⟩]
  | .combine => []

/-- The bytes of a block that headroom and data share. -/
def dataCapacity (mode : BufMode) (blkSz : Nat) : Nat :=
  match mode with
  | .split => blkSz
  | .combine => blkSz - sizeofUmqBuf

/-- The pointer that an allocation computes for the `i`-th block, whose stored pointer stands
`earlier` bytes into the block. -/
def QbufPool.bufDataOf (region : ClassRegion) (i earlier headroom : Nat) : Nat :=
  allocBufData pool.mode region.blkSz (region.header pool.mode i) (region.block i + earlier) headroom

structure LayoutRight : Prop where
  inside : ∀ block ∈ pool.dataBlocks,
    pool.dataBuffer ≤ block.start ∧ block.stop ≤ pool.dataBuffer + pool.totalSize
  disjoint : pool.dataBlocks.Pairwise Span.Apart
  headers : ∀ block ∈ pool.dataBlocks, ∀ headers ∈ pool.headerRegions, block.Apart headers
  pointer : ∀ region ∈ pool.regions, ∀ i < region.blkCnt, ∀ earlier < region.blkSz,
    ∀ headroom ≤ dataCapacity pool.mode region.blkSz,
      region.block i ≤ pool.bufDataOf region i earlier headroom ∧
        pool.bufDataOf region i earlier headroom ≤ region.block i + region.blkSz

/-- The layouts are right in every memory that `memalign` can return, whatever else the
configuration says. -/
def SizesLayRight (sizes : List Nat) : Prop :=
  ∀ cfg plan, Accepted cfg plan → plan.sizes = sizes → ∀ bufAddr, 2 ^ 21 ∣ bufAddr →
    bufAddr + plan.normalIoBufSize ≤ 2 ^ 64 → LayoutRight (initLayout cfg plan bufAddr)

/-! ## Powers of two -/

def ClassPlan.dataBytes (plan : ClassPlan) : Nat := plan.blkCnt * plan.blkSz

def ClassRegion.dataSpan (region : ClassRegion) : Span := ⟨region.dataStart, region.dataBytes⟩

def ClassRegion.headerSpan (region : ClassRegion) : Span := ⟨region.headerStart, region.blkCnt * sizeofUmqBuf⟩

/-- The regions follow each other without a gap, each aligned to its block size. -/
structure PlacedTight (dataPtr : Nat) (plans : List ClassPlan) (placed : List (ClassPlan × Nat) × Nat) : Prop where
  order : placed.1.map Prod.fst = plans
  aligned : ∀ entry ∈ placed.1, entry.1.blkSz ∣ entry.2
  stacked : Stacked dataPtr (placed.1.map fun entry => ⟨entry.2, entry.1.dataBytes⟩) placed.2
  stop : placed.2 = dataPtr + (plans.map ClassPlan.dataBytes).sum

/-- Powers of two that divide each other: each mask finds its pointer aligned. -/
theorem placeData_powers {plans : List ClassPlan} {dataPtr : Nat} (counts : ∀ plan ∈ plans, 0 < plan.blkCnt)
    (powers : ∀ plan ∈ plans, plan.blkSz.isPowerOfTwo)
    (chain : plans.Pairwise fun larger smaller => smaller.blkSz ∣ larger.blkSz)
    (aligned : ∀ plan ∈ plans, plan.blkSz ∣ dataPtr) (room : dataPtr + (plans.map ClassPlan.dataBytes).sum ≤ 2 ^ 64) :
    PlacedTight dataPtr plans (placeData dataPtr plans) := by
  induction plans generalizing dataPtr with
  | nil => exact ⟨rfl, forall_mem_nil _, .nil (Nat.le_refl _), rfl⟩
  | cons plan rest ih =>
    rw [forall_mem_cons] at counts powers aligned
    rw [map_cons, sum_cons] at room
    obtain ⟨k, power⟩ := powers.1
    have oneBlock : plan.blkSz ≤ plan.dataBytes := Nat.le_mul_of_pos_left _ counts.1
    have unmoved : maskUp 64 dataPtr plan.blkSz = dataPtr := by
      rw [power] at oneBlock aligned ⊢
      have fits : k ≤ 64 := (Nat.pow_le_pow_iff_right (by decide)).mp (show 2 ^ k ≤ 2 ^ 64 by omega)
      exact maskUp_two_pow_of_dvd fits aligned.1 (by omega)
    have alignedRest : ∀ smaller ∈ rest, smaller.blkSz ∣ dataPtr + plan.dataBytes := fun smaller listed =>
      Nat.dvd_add (aligned.2 smaller listed) (Nat.dvd_mul_left_of_dvd (rel_of_pairwise_cons chain listed) _)
    have tight := ih counts.2 powers.2 chain.of_cons alignedRest (by omega)
    rw [placeData, if_neg (Nat.ne_of_gt counts.1), unmoved]
    constructor
    · exact congrArg (plan :: ·) tight.order
    · exact forall_mem_cons.mpr ⟨aligned.1, tight.aligned⟩
    · exact .cons (Nat.le_refl _) tight.stacked
    · rw [map_cons, sum_cons, ← Nat.add_assoc]
      exact tight.stop

theorem placeHeaders_spec {placed : List (ClassPlan × Nat)} {headerCur : Nat}
    (counts : ∀ entry ∈ placed, 0 < entry.1.blkCnt) :
    (placeHeaders headerCur placed).map (fun region => (region.toClassPlan, region.dataStart)) = placed ∧
      Stacked headerCur ((placeHeaders headerCur placed).map ClassRegion.headerSpan)
        (headerCur + (placed.map fun entry => entry.1.blkCnt * sizeofUmqBuf).sum) := by
  induction placed generalizing headerCur with
  | nil => exact ⟨rfl, .nil (Nat.le_refl _)⟩
  | cons entry rest ih =>
    rw [forall_mem_cons] at counts
    obtain ⟨same, stacked⟩ := @ih (headerCur + entry.1.blkCnt * sizeofUmqBuf) counts.2
    rw [placeHeaders, if_neg (Nat.ne_of_gt counts.1)]
    refine ⟨congrArg (entry :: ·) same, .cons (Nat.le_refl _) ?_⟩
    rw [map_cons, sum_cons, ← Nat.add_assoc]
    exact stacked

theorem ClassRegion.dataBlocks_stacked {region : ClassRegion} :
    Stacked region.dataSpan.start region.dataBlocks region.dataSpan.stop :=
  Stacked.row

variable {region : ClassRegion} {pool} {bufAddr totalSize : Nat} {classes : List ClassPlan}

theorem ClassRegion.mem_dataBlocks {i : Nat} (small : i < region.blkCnt) :
    ⟨region.block i, region.blkSz⟩ ∈ region.dataBlocks :=
  mem_map.mpr ⟨i, mem_range.mpr small, rfl⟩

/-- For a power of two the mask brings a pointer into an aligned block back to its start. -/
theorem floorToAlign_block {i earlier : Nat} (power : region.blkSz.isPowerOfTwo)
    (aligned : region.blkSz ∣ region.dataStart) (before : earlier < region.blkSz)
    (top : region.block i + region.blkSz ≤ 2 ^ 64) :
    floorToAlign (region.block i + earlier) region.blkSz = region.block i := by
  have blockAligned : region.blkSz ∣ region.block i := Nat.dvd_add aligned (Nat.dvd_mul_left _ _)
  obtain ⟨k, power⟩ := power
  rw [power] at blockAligned before top ⊢
  have fits : k ≤ 64 := (Nat.pow_le_pow_iff_right (by decide)).mp (show 2 ^ k ≤ 2 ^ 64 by omega)
  exact maskDown_two_pow_of_dvd fits (by omega) blockAligned before (by omega)

/-- A layout whose regions and headers follow each other in the buffer, and whose regions are
aligned to powers of two, is right. -/
theorem layoutRight_of_stacked {regions : List ClassRegion} {headers : List Span} {middle : Nat}
    (order : pool.regions = regions.reverse) (data : Stacked pool.dataBuffer (regions.map ClassRegion.dataSpan) middle)
    (behind : Stacked middle headers (pool.dataBuffer + pool.totalSize))
    (headersListed : ∀ span ∈ pool.headerRegions, span ∈ headers) (top : pool.dataBuffer + pool.totalSize ≤ 2 ^ 64)
    (powers : ∀ region ∈ regions, region.blkSz.isPowerOfTwo ∧ sizeofUmqBuf ≤ region.blkSz)
    (aligned : ∀ region ∈ regions, region.blkSz ∣ region.dataStart) : LayoutRight pool := by
  have blocks := (data.flatMap fun region _ => region.dataBlocks_stacked).append behind
  have listed : pool.dataBlocks.Perm (regions.flatMap ClassRegion.dataBlocks) := by
    rw [QbufPool.dataBlocks, order]
    exact (reverse_perm _).flatMap_right _
  have pairwise := pairwise_append.mp blocks.pairwise
  constructor
  · intro block mem
    exact blocks.bounds (mem_append_left _ (listed.mem_iff.mp mem))
  · exact (listed.pairwise_iff Span.Apart.symm).mpr pairwise.1
  · intro block mem span header
    exact pairwise.2.2 block (listed.mem_iff.mp mem) span (headersListed span header)
  · intro region mem i small earlier before headroom capacity
    rw [order, mem_reverse] at mem
    have bound : region.block i + region.blkSz ≤ pool.dataBuffer + pool.totalSize :=
      (blocks.bounds (mem_append_left _ (mem_flatMap.mpr ⟨region, mem, ClassRegion.mem_dataBlocks small⟩))).2
    have floor := floorToAlign_block (powers region mem).1 (aligned region mem) before (Nat.le_trans bound top)
    have header := (powers region mem).2
    simp only [QbufPool.bufDataOf, allocBufData, dataCapacity, ClassRegion.header] at capacity ⊢
    cases mode : pool.mode with
    | split =>
      simp only [mode] at capacity ⊢
      omega
    | combine =>
      simp only [mode] at capacity ⊢
      omega

def headerBytes (classes : List ClassPlan) : Nat := (classes.map fun plan => plan.blkCnt * sizeofUmqBuf).sum

theorem poolBytes_split {classes : List ClassPlan} :
    poolBytes .split classes =
      (classes.map ClassPlan.dataBytes).sum + headerBytes classes + qbufPoolInitialNodataBufCnt * sizeofUmqBuf := by
  rw [headerBytes, ← sum_map_add]
  rfl

theorem poolBytes_combine (classes : List ClassPlan) :
    poolBytes .combine classes = (classes.map ClassPlan.dataBytes).sum := rfl

theorem dataBytes_le_poolBytes {mode : BufMode} (classes : List ClassPlan) :
    (classes.map ClassPlan.dataBytes).sum ≤ poolBytes mode classes := by
  cases mode with
  | split =>
    rw [poolBytes_split]
    omega
  | combine => exact Nat.le_refl _

theorem Accepted.placedTight (accepted : Accepted cfg plan) (powers : ∀ size ∈ plan.sizes, size.isPowerOfTwo)
    (aligned : 2 ^ 21 ∣ bufAddr) (top : bufAddr + plan.normalIoBufSize ≤ 2 ^ 64) :
    PlacedTight bufAddr plan.classes.reverse (placeData bufAddr plan.classes.reverse) := by
  have bytes := (umqQbufPoolCfgCheck_some accepted.1).2
  have sizes := accepted.sizesOk
  have size : ∀ class' ∈ plan.classes.reverse, class'.blkSz ∈ plan.sizes := fun class' mem =>
    mem_map_of_mem (mem_reverse.mp mem)
  apply placeData_powers
  · exact fun class' mem => accepted.blkCnt_positive (mem_reverse.mp mem)
  · exact fun class' mem => powers _ (size class' mem)
  · rw [pairwise_reverse]
    exact (pairwise_map.mp sizes.chain).imp And.right
  · intro class' mem
    obtain ⟨k, power⟩ := powers _ (size class' mem)
    have small : class'.blkSz ≤ 2 ^ 20 := (sizes.each _ (size class' mem)).2.1
    rw [power] at small ⊢
    have below := (Nat.pow_le_pow_iff_right (by decide)).mp small
    exact Nat.dvd_trans (Nat.pow_dvd_pow 2 (by omega)) aligned
  · rw [map_reverse, sum_reverse]
    have := @dataBytes_le_poolBytes cfg.bufMode plan.classes
    omega

section

variable (tight : PlacedTight bufAddr classes.reverse (placeData bufAddr classes.reverse))
include tight

/-- The largest classes come first in the placement, and the regions are listed from the
smallest on. -/
theorem initSplitModeLayout_right (counts : ∀ class' ∈ classes, 0 < class'.blkCnt)
    (sizes : ∀ class' ∈ classes, class'.blkSz.isPowerOfTwo ∧ sizeofUmqBuf ≤ class'.blkSz)
    (bytes : totalSize = poolBytes .split classes) (top : bufAddr + totalSize ≤ 2 ^ 64) :
    LayoutRight (initSplitModeLayout bufAddr totalSize classes) := by
  rw [initSplitModeLayout]
  generalize placeData bufAddr classes.reverse = placed at *
  have listed : ∀ entry ∈ placed.1, entry.1 ∈ classes := by
    intro entry mem
    rw [← mem_reverse, ← tight.order]
    exact mem_map_of_mem mem
  obtain ⟨same, headers⟩ := @placeHeaders_spec placed.1 placed.2 fun entry mem => counts _ (listed entry mem)
  have headerSum : (placed.1.map fun entry => entry.1.blkCnt * sizeofUmqBuf).sum = headerBytes classes := by
    have sum := congrArg headerBytes tight.order
    rw [headerBytes, headerBytes, map_map, map_reverse, sum_reverse] at sum
    exact sum
  have stop := tight.stop
  rw [map_reverse, sum_reverse] at stop
  rw [headerSum] at headers
  have entries : ∀ region ∈ placeHeaders placed.2 placed.1, (region.toClassPlan, region.dataStart) ∈ placed.1 := by
    intro region mem
    rw [← same]
    exact mem_map_of_mem mem
  have extHeaders : Stacked (placed.2 + headerBytes classes)
      [⟨placed.2 + headerBytes classes, qbufPoolInitialNodataBufCnt * sizeofUmqBuf⟩] (bufAddr + totalSize) := by
    refine Stacked.single (Nat.le_refl _) ?_
    show placed.2 + headerBytes classes + qbufPoolInitialNodataBufCnt * sizeofUmqBuf ≤ _
    rw [bytes, poolBytes_split]
    omega
  apply layoutRight_of_stacked rfl
  · have stacked := tight.stacked
    rw [← same, map_map] at stacked
    exact stacked
  · exact headers.append extHeaders
  · intro span mem
    simp only [QbufPool.headerRegions, map_reverse, mem_append, mem_reverse] at mem ⊢
    exact mem
  · exact top
  · exact fun region mem => sizes _ (listed _ (entries region mem))
  · exact fun region mem => tight.aligned _ (entries region mem)

theorem initCombineModeLayout_right
    (sizes : ∀ class' ∈ classes, class'.blkSz.isPowerOfTwo ∧ sizeofUmqBuf ≤ class'.blkSz)
    (bytes : totalSize = poolBytes .combine classes) (top : bufAddr + totalSize ≤ 2 ^ 64) :
    LayoutRight (initCombineModeLayout bufAddr totalSize classes) := by
  rw [initCombineModeLayout]
  generalize placeData bufAddr classes.reverse = placed at *
  have listed : ∀ entry ∈ placed.1, entry.1 ∈ classes := by
    intro entry mem
    rw [← mem_reverse, ← tight.order]
    exact mem_map_of_mem mem
  have stop := tight.stop
  rw [map_reverse, sum_reverse, ← poolBytes_combine, ← bytes] at stop
  apply layoutRight_of_stacked rfl
  · rw [map_map]
    exact tight.stacked
  · exact .nil (Nat.le_of_eq stop)
  · exact fun span mem => mem
  · exact top
  · intro region mem
    obtain ⟨entry, found, rfl⟩ := mem_map.mp mem
    exact sizes _ (listed entry found)
  · intro region mem
    obtain ⟨entry, found, rfl⟩ := mem_map.mp mem
    exact tight.aligned entry found

end

theorem initLayout_right (accepted : Accepted cfg plan) (powers : ∀ size ∈ plan.sizes, size.isPowerOfTwo)
    (aligned : 2 ^ 21 ∣ bufAddr) (top : bufAddr + plan.normalIoBufSize ≤ 2 ^ 64) :
    LayoutRight (initLayout cfg plan bufAddr) := by
  have bytes := (umqQbufPoolCfgCheck_some accepted.1).2
  have tight := accepted.placedTight powers aligned top
  have sizes : ∀ class' ∈ plan.classes, class'.blkSz.isPowerOfTwo ∧ sizeofUmqBuf ≤ class'.blkSz := by
    intro class' mem
    have size : class'.blkSz ∈ plan.sizes := mem_map_of_mem mem
    have := accepted.sizesOk.each _ size
    exact ⟨powers _ size, show 128 ≤ class'.blkSz by omega⟩
  rw [initLayout]
  cases mode : cfg.bufMode with
  | split =>
    rw [mode] at bytes
    exact initSplitModeLayout_right tight (fun class' mem => accepted.blkCnt_positive mem) sizes bytes top
  | combine =>
    rw [mode] at bytes
    exact initCombineModeLayout_right tight sizes bytes top

/-! ## Other sizes -/

/-- The configuration of the same block sizes in split mode, with two blocks of every class
and no other pool. -/
def twoEach (cfg : InitCfg) (sizes : List Nat) : InitCfg :=
  { cfg with
    bufMode := .split
    rxBlockCount := 0
    umqBufPoolMaxSize := 0
    sizeClassCount := sizes.length
    explicitBlockSizes := fun i => sizes.getD i 0
    perScBlockCounts := fun _ => 2
    perScTlsQbufPoolDepth := fun _ => 1
    enableTinyPool := false }

def twoEachPlan (sizes : List Nat) : PoolPlan :=
  let classes := sizes.map fun size => ⟨2, 1, size⟩
  ⟨classes, 0, 0, poolBytes .split classes, qbufPoolDefaultExpansionMemSize⟩

theorem twoEachPlan_sizes {sizes : List Nat} : (twoEachPlan sizes).sizes = sizes := by
  rw [PoolPlan.sizes, twoEachPlan, map_map]
  exact map_id _

theorem checkSizeClass_twoEach (accepted : Accepted cfg plan) {size : Nat} (found : plan.sizes[i]? = some size) :
    checkSizeClass (twoEach cfg plan.sizes) i = some ⟨2, 1, size⟩ := by
  have pos := (accepted.sizesOk.each size (mem_of_getElem? found)).1
  have explicit : (twoEach cfg plan.sizes).explicitBlockSizes i = size := by
    show plan.sizes.getD i 0 = size
    rw [getD_eq_getElem?_getD, found]
    rfl
  obtain ⟨class', classFound, rfl⟩ := Option.map_eq_some_iff.mp ((getElem?_map ..).symm.trans found)
  apply checkSizeClass_eq_some_iff.mpr
  constructor
  · rw [planSizeClass, if_neg (by simp [twoEach]), if_neg (by simp [twoEach]), if_neg (by omega), if_neg (by omega),
      explicit]
    rfl
  · have counts : (1 ≤ 1 ∧ 1 ≤ qbufPoolTlsDepthMax) ∧ (1 ≤ 2 ∧ 2 ≤ qbufPoolBlockCountMax) ∧ 1 ≤ 2 := by decide
    exact ⟨counts.1, counts.2.1, counts.2.2, fun _ => Nat.ne_of_gt pos, (accepted.checked classFound).middle⟩

theorem normalIoBufSize_twoEach {sizes : List Nat} (ok : SizesOk sizes) (short : sizes.length ≤ umqQbufSizeClassMax) :
    (twoEachPlan sizes).normalIoBufSize ≤ 2 ^ 24 := by
  have bytes : ∀ class' ∈ (twoEachPlan sizes).classes, class'.bytes .split ≤ 2 * (2 ^ 20 + 128) := by
    intro class' mem
    obtain ⟨size, listed, rfl⟩ := mem_map.mp mem
    have small : size ≤ 2 ^ 20 := (ok.each size listed).2.1
    show 2 * size + 2 * 128 ≤ _
    omega
  have sum := sum_le_card_nsmul _ _ (forall_mem_map.mpr bytes)
  have few : (twoEachPlan sizes).classes.length ≤ 5 := (length_map _).trans_le short
  rw [length_map, smul_eq_mul] at sum
  show ((twoEachPlan sizes).classes.map (ClassPlan.bytes .split)).sum + 32768 * 128 ≤ _
  omega

theorem accepted_twoEach (accepted : Accepted cfg plan) :
    Accepted (twoEach cfg plan.sizes) (twoEachPlan plan.sizes) := by
  obtain ⟨⟨nonempty, short⟩, base, ok, last, -⟩ := initSizeClassConfig_iff.mp accepted.2
  have bytes := normalIoBufSize_twoEach ok short
  constructor
  · have mapped : (range plan.sizes.length).mapM (checkSizeClass (twoEach cfg plan.sizes)) =
        some (twoEachPlan plan.sizes).classes := by
      apply mapM_eq_some_iff.mpr
      apply ext_getElem?
      intro i
      rw [twoEachPlan, getElem?_map, getElem?_map, getElem?_map]
      by_cases inside : i < plan.sizes.length
      · rw [getElem?_range inside, getElem?_eq_getElem inside]
        exact congrArg some (checkSizeClass_twoEach accepted (getElem?_eq_getElem inside))
      · rw [getElem?_eq_none (by simpa using inside), getElem?_eq_none (by simpa using inside)]
        rfl
    have count : (if (twoEach cfg plan.sizes).sizeClassCount = 0 then qbufPoolDefaultSizeClassCount
        else (twoEach cfg plan.sizes).sizeClassCount) = plan.sizes.length :=
      if_neg (show plan.sizes.length ≠ 0 by omega)
    have noRx : (twoEach cfg plan.sizes).rxBlockCount * (umqBufSizeSmall (twoEach cfg plan.sizes) + sizeofUmqBuf) = 0 :=
      Nat.zero_mul _
    simp only [umqQbufPoolCfgCheck, Option.bind_eq_bind, Option.bind_eq_some_iff, Option.ite_none_left_eq_some,
      count, noRx]
    refine ⟨0, rfl, Nat.not_lt.mpr short, _, mapped, ?_, ?_, ?_, rfl⟩
    · -- the first class has two blocks
      intro empty
      obtain ⟨size, listed⟩ := exists_mem_of_length_pos nonempty
      have zero := List.sum_eq_zero_iff_forall_eq_nat.mp empty _
        (mem_map_of_mem (mem_map_of_mem listed))
      have header : (⟨2, 1, size⟩ : ClassPlan).bytes .split = 2 * size + 2 * 128 := rfl
      exact absurd (header.symm.trans zero) (by omega)
    · exact fun large => absurd large.2 (Nat.not_lt_zero _)
    · have capped : (twoEachPlan plan.sizes).normalIoBufSize ≤ qbufPoolDefaultExpansionMemSize :=
        Nat.le_trans bytes (by decide)
      rw [Nat.zero_add]
      exact Nat.not_lt.mpr capped
  · apply initSizeClassConfig_iff.mpr
    rw [twoEachPlan_sizes]
    refine ⟨⟨nonempty, short⟩, base, ok, last, ?_⟩
    exact Nat.le_trans bytes (show 2 ^ 24 ≤ qbufPoolDefaultExpansionMemSize by decide)

/-- The second block of the first region: the mask takes its pointer into the first one. -/
theorem bufDataOf_second_lt (split : pool.mode = .split)
    (pos : 0 < region.blkSz) (small : region.blkSz ≤ 2 ^ 20) (odd : ¬ region.blkSz.isPowerOfTwo)
    (start : region.dataStart = 2 ^ 21) : pool.bufDataOf region 1 0 0 < region.block 1 := by
  have moved := @maskDown_self_lt 64 region.blkSz pos (by omega) odd
  have floor : pool.bufDataOf region 1 0 0 = 2 ^ 21 + maskDown 64 region.blkSz region.blkSz := by
    rw [QbufPool.bufDataOf, split, ClassRegion.block, start, Nat.one_mul]
    exact maskDown_add (n := 21) pos (by omega) (Nat.dvd_refl _) (by omega) (by decide) (by decide)
  rw [ClassRegion.block]
  omega

theorem not_layoutRight_twoEach {sizes rest : List Nat} {last : Nat} (same : sizes.reverse = last :: rest)
    (ok : SizesOk sizes) (odd : ¬ last.isPowerOfTwo) :
    ¬ LayoutRight (initLayout (twoEach cfg sizes) (twoEachPlan sizes) (2 ^ 21)) := by
  intro right
  have bounds := ok.each last (mem_reverse.mp (same ▸ mem_cons_self))
  have small : last ≤ 2 ^ 20 := bounds.2.1
  have start : maskUp 64 (2 ^ 21) last = 2 ^ 21 :=
    maskUp_base (n := 21) bounds.1 (by omega) (Nat.dvd_refl _) (by decide) (by omega)
  -- the largest class is placed first
  have listed : ∃ headerStart, (⟨⟨2, 1, last⟩, 2 ^ 21, headerStart⟩ : ClassRegion) ∈
      (initLayout (twoEach cfg sizes) (twoEachPlan sizes) (2 ^ 21)).regions := by
    simp only [initLayout, twoEach, initSplitModeLayout, twoEachPlan, ← map_reverse, same, map_cons, placeData,
      start, mem_reverse]
    exact ⟨_, mem_cons_self⟩
  obtain ⟨headerStart, listed⟩ := listed
  have pointer := right.pointer _ listed 1 (Nat.lt_succ_self 1) 0 bounds.1 0 (Nat.zero_le _)
  exact absurd pointer.1 (Nat.not_le.mpr (bufDataOf_second_lt rfl bounds.1 small odd rfl))

/-- For the block sizes of an accepted configuration: every accepted configuration with these
sizes, in either mode and with any numbers of blocks, is laid out right in every memory,
exactly when the sizes are powers of two. -/
theorem sizesLayRight_iff_isPowerOfTwo (accepted : Accepted cfg plan) :
    SizesLayRight plan.sizes ↔ ∀ size ∈ plan.sizes, size.isPowerOfTwo := by
  constructor
  · intro right size mem
    by_contra odd
    have ok := accepted.sizesOk
    cases same : plan.sizes.reverse with
    | nil => simp_all
    | cons last rest =>
      have bounds := normalIoBufSize_twoEach ok (initSizeClassConfig_iff.mp accepted.2).1.2
      -- the largest size is a multiple of this one
      have lastOdd : ¬ last.isPowerOfTwo := by
        rintro ⟨k, rfl⟩
        have divides : size ∣ 2 ^ k := by
          have chain := ok.chain
          rw [← reverse_reverse plan.sizes, same, reverse_cons] at chain mem
          rcases mem_append.mp mem with inRest | isLast
          · exact ((pairwise_append.mp chain).2.2 _ inRest _ mem_cons_self).2
          · exact (mem_singleton.mp isLast).dvd
        obtain ⟨j, -, rfl⟩ := (Nat.dvd_prime_pow Nat.prime_two).mp divides
        exact odd ⟨j, rfl⟩
      exact not_layoutRight_twoEach same ok lastOdd
        (right _ _ (accepted_twoEach accepted) twoEachPlan_sizes (2 ^ 21) (Nat.dvd_refl _) (by omega))
  · intro powers other otherPlan otherAccepted same bufAddr aligned top
    exact initLayout_right otherAccepted (same ▸ powers) aligned top

/-- Everything left to the defaults: 1536 blocks of 4096 and of 65536 bytes. -/
def defaultCfg : InitCfg where
  bufMode := .split
  smallBlockSize := .k4
  rxBlockCount := 0
  umqBufPoolMaxSize := 0
  sizeClassCount := 0
  explicitBlockSizes := fun _ => 0
  perScBlockCounts := fun _ => 0
  perScTlsQbufPoolDepth := fun _ => 0
  expansionSize := 0
  disableScaleCap := false
  enableTinyPool := false
  tinyPoolBlockSize := none
  tinyPoolBlockCount := 0
  tlsTinyPoolDepth := 0

def defaultPlan : PoolPlan where
  classes := [⟨1536, 1024, 4096⟩, ⟨1536, 1024, 65536⟩]
  tinyIoBufSize := 0
  rxIoBufSize := 0
  normalIoBufSize := 111542272
  normalPoolMaxSize := 2147483648

theorem sizesLayRight_default : Accepted defaultCfg defaultPlan ∧ SizesLayRight defaultPlan.sizes := by
  have accepted : Accepted defaultCfg defaultPlan := ⟨by decide, by decide⟩
  have powers : ∀ size ∈ defaultPlan.sizes, size.isPowerOfTwo :=
    forall_mem_cons.mpr ⟨⟨12, rfl⟩, forall_mem_singleton.mpr ⟨16, rfl⟩⟩
  exact ⟨accepted, (sizesLayRight_iff_isPowerOfTwo accepted).mpr powers⟩

/-- A third class of three times 8192 bytes. -/
def thirdClassCfg : InitCfg :=
  { defaultCfg with
    sizeClassCount := 3
    explicitBlockSizes := fun i => [4096, 8192, 24576].getD i 0
    perScBlockCounts := fun _ => 2
    perScTlsQbufPoolDepth := fun _ => 1 }

def thirdClassPlan : PoolPlan where
  classes := [⟨2, 1, 4096⟩, ⟨2, 1, 8192⟩, ⟨2, 1, 24576⟩]
  tinyIoBufSize := 0
  rxIoBufSize := 0
  normalIoBufSize := 4268800
  normalPoolMaxSize := 2147483648

/-- The second block of the third class starts 24576 bytes into the buffer, and its data
pointer 8192 bytes into the buffer: in the first block. -/
theorem thirdClass_pointer_in_other_block :
    Accepted thirdClassCfg thirdClassPlan ∧
      ∃ region, (initLayout thirdClassCfg thirdClassPlan (2 ^ 21)).regions[2]? = some region ∧
        region.block 1 = 2 ^ 21 + 24576 ∧
        (initLayout thirdClassCfg thirdClassPlan (2 ^ 21)).bufDataOf region 1 0 0 = 2 ^ 21 + 8192 ∧
        ¬ LayoutRight (initLayout thirdClassCfg thirdClassPlan (2 ^ 21)) := by
  refine ⟨⟨by decide, by decide⟩, ⟨⟨2, 1, 24576⟩, 2 ^ 21, 2 ^ 21 + 73728⟩, by decide, by decide, by decide, ?_⟩
  intro right
  have pointer :=
    right.pointer ⟨⟨2, 1, 24576⟩, 2 ^ 21, 2 ^ 21 + 73728⟩ (by decide) 1 (by decide) 0 (by decide) 0 (by decide)
  exact absurd pointer.1 (by decide)

end UbsComm.Qbuf
