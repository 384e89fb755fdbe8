import UbsComm.Library.Masks
import UbsComm.Qbuf.Basic

/-! # Which configurations are accepted, and how the pool is laid out

`umq_qbuf_pool_cfg_check` fills in the defaults and plans the pool, `init_size_class_config`
checks the block sizes once more, and the layout functions cut the buffer into regions, one
for each size class, the largest blocks first. -/

namespace UbsComm.Qbuf

open Library

/-! ## The configuration -/

/-- `umq_buf_block_size_t` -/
inductive BlockSize where
  | k4 | k8 | k16 | k32 | k64 | k128 | k256 | k512 | m1

/-- `umq_buf_size_pow_small` -/
def BlockSize.pow : BlockSize → Nat
  | .k4 => 12
  | .k8 => 13
  | .k16 => 14
  | .k32 => 15
  | .k64 => 16
  | .k128 => 17
  | .k256 => 18
  | .k512 => 19
  | .m1 => 20

/-- `umq_tiny_buf_block_size_t` -/
inductive TinyBlockSize where
  | b512 | k1 | k2 | k4 | k8

def TinyBlockSize.bytes : TinyBlockSize → Nat
  | .b512 => 512
  | .k1 => 1024
  | .k2 => 2048
  | .k4 => 4096
  | .k8 => 8192

/-- What `umq_init_cfg_t` says about the pools.  A `tinyPoolBlockSize` of `none` is a value
outside the enumeration.  The counts of the tiny and receive pools have 32 bits in the
source, so their bytes fit a word and the overflow check on them never fires. -/
structure InitCfg where
  bufMode : BufMode
  smallBlockSize : BlockSize
  rxBlockCount : Nat
  umqBufPoolMaxSize : Nat
  sizeClassCount : Nat
  explicitBlockSizes : Nat → Nat
  perScBlockCounts : Nat → Nat
  perScTlsQbufPoolDepth : Nat → Nat
  expansionSize : Nat
  disableScaleCap : Bool
  enableTinyPool : Bool
  tinyPoolBlockSize : Option TinyBlockSize
  tinyPoolBlockCount : Nat
  tlsTinyPoolDepth : Nat

variable (cfg : InitCfg)

def umqBufSizeSmall : Nat := 2 ^ cfg.smallBlockSize.pow

structure ClassPlan where
  blkCnt : Nat
  tls : Nat
  blkSz : Nat
  deriving DecidableEq

/-- `umq_qbuf_pool_plan_t` -/
structure PoolPlan where
  classes : List ClassPlan
  tinyIoBufSize : Nat
  rxIoBufSize : Nat
  normalIoBufSize : Nat
  normalPoolMaxSize : Nat
  deriving DecidableEq

def qbufPoolDefaultSizeClassCount : Nat := 2
def qbufPoolTlsDepthDefault : Nat := 1024
def qbufPoolTlsDepthMin : Nat := 1
def qbufPoolTlsDepthMax : Nat := 15360
def qbufPoolBlockCountDefault : Nat := 1536
def qbufPoolBlockCountMin : Nat := 1
def qbufPoolBlockCountMax : Nat := 30720
def qbufPoolMiddleBlockSizeDefault : Nat := 64 * 1024
def qbufPoolMiddleBlockSizeMin : Nat := 8 * 1024
def qbufPoolMiddleBlockSizeMax : Nat := 1024 * 1024
def qbufPoolBlockSizeAlign : Nat := 4096
def qbufPoolMaxBlockSize : Nat := 1024 * 1024
def qbufPoolInitialNodataBufCnt : Nat := 32768
def qbufPoolMemSizeMax : Nat := 6 * 1024 * 1024 * 1024
def qbufPoolDefaultExpansionMemSize : Nat := 2 * 1024 * 1024 * 1024
def qbufPoolDefaultExpansionSize : Nat := 32 * 1024 * 1024
def qbufPoolMinExpansionSize : Nat := 2 * 1024 * 1024
def qbufPoolMaxExpansionSize : Nat := 128 * 1024 * 1024
def tinyQbufPoolDefaultBlockCount : Nat := 8192
def umqTinyQbufPoolMaxSize : Nat := 128 * 1024 * 1024

def umqIsPowerOf2 (x : Nat) : Bool := x > 0 ∧ x &&& (x - 1) = 0

/-- `umq_tiny_pool_cfg_check`: the bytes of the tiny pool. -/
def umqTinyPoolCfgCheck : Option Nat :=
  if ¬ cfg.enableTinyPool then some 0
  else
    let count := if cfg.tinyPoolBlockCount = 0 then tinyQbufPoolDefaultBlockCount else cfg.tinyPoolBlockCount
    if count < qbufPoolBatchCnt ∨ count < cfg.tlsTinyPoolDepth then none
    else
      match cfg.tinyPoolBlockSize with
      | none => none
      | some size =>
        let bytes := count * size.bytes + if cfg.bufMode = .split then count * sizeofUmqBuf else 0
        if size.bytes > umqBufSizeSmall cfg ∨ bytes > umqTinyQbufPoolMaxSize then none else some bytes

/-- The defaults of a size class: the first class takes the small block size, the second the
default of the middle class, and the others have none. -/
def planSizeClass (i : Nat) : ClassPlan where
  blkCnt := if cfg.perScBlockCounts i = 0 then qbufPoolBlockCountDefault else cfg.perScBlockCounts i
  tls := if cfg.perScTlsQbufPoolDepth i = 0 then qbufPoolTlsDepthDefault else cfg.perScTlsQbufPoolDepth i
  blkSz :=
    if i = 0 ∧ cfg.explicitBlockSizes i = 0 then umqBufSizeSmall cfg
    else if i = 1 ∧ cfg.explicitBlockSizes i = 0 then qbufPoolMiddleBlockSizeDefault
    else cfg.explicitBlockSizes i

/-- The body of the loop over the size classes. -/
def checkSizeClass (i : Nat) : Option ClassPlan :=
  let plan := planSizeClass cfg i
  if plan.tls < qbufPoolTlsDepthMin ∨ plan.tls > qbufPoolTlsDepthMax then none
  else if plan.blkCnt < qbufPoolBlockCountMin ∨ plan.blkCnt > qbufPoolBlockCountMax then none
  else if plan.blkCnt < plan.tls then none
  else if i ≥ 2 ∧ plan.blkSz = 0 then none
  else if i = 1 ∧ (plan.blkSz < qbufPoolMiddleBlockSizeMin ∨ plan.blkSz > qbufPoolMiddleBlockSizeMax) then none
  else if i = 1 ∧ plan.blkSz % qbufPoolBlockSizeAlign ≠ 0 then none
  else if i = 1 ∧ ¬ umqIsPowerOf2 plan.blkSz then none
  else some plan

/-- The bytes of a class: its blocks, and in split mode their headers. -/
def ClassPlan.bytes (mode : BufMode) (plan : ClassPlan) : Nat :=
  plan.blkCnt * plan.blkSz + if mode = .split then plan.blkCnt * sizeofUmqBuf else 0

def umqQbufPoolCfgCheck : Option PoolPlan := do
  let tinyIoBufSize ← umqTinyPoolCfgCheck cfg
  let rxIoBufSize := cfg.rxBlockCount * (umqBufSizeSmall cfg + sizeofUmqBuf)
  let count := if cfg.sizeClassCount = 0 then qbufPoolDefaultSizeClassCount else cfg.sizeClassCount
  if count > umqQbufSizeClassMax then none
  else
    let classes ← (List.range count).mapM (checkSizeClass cfg)
    let blocks := (classes.map (ClassPlan.bytes cfg.bufMode)).sum
    if blocks = 0 then none
    else
      let normalIoBufSize := blocks + if cfg.bufMode = .split then qbufPoolInitialNodataBufCnt * sizeofUmqBuf else 0
      if ¬ cfg.disableScaleCap ∧ cfg.umqBufPoolMaxSize > qbufPoolMemSizeMax then none
      else
        let maxSize := if cfg.umqBufPoolMaxSize = 0 then qbufPoolDefaultExpansionMemSize else cfg.umqBufPoolMaxSize
        if maxSize < tinyIoBufSize + rxIoBufSize + normalIoBufSize then none
        else some ⟨classes, tinyIoBufSize, rxIoBufSize, normalIoBufSize, maxSize - tinyIoBufSize - rxIoBufSize⟩

/-- The loop of `init_size_class_config`; `before` is the block size before. -/
def checkBlockSizes : Option Nat → List Nat → Bool
  | _, [] => true
  | before, bs :: rest =>
    decide (bs ≠ 0 ∧ bs ≤ qbufPoolMaxBlockSize ∧ bs % 4096 = 0) &&
      before.all (fun before => before < bs ∧ bs % before = 0) && checkBlockSizes (some bs) rest

/-- `exp_size`: a size out of range becomes the default. -/
def expansionSizeOf (expansionSize : Nat) : Nat :=
  let size := if expansionSize = 0 then qbufPoolDefaultExpansionSize else expansionSize
  if size < qbufPoolMinExpansionSize ∨ size > qbufPoolMaxExpansionSize ∨ size % qbufPoolMinExpansionSize ≠ 0 then
    qbufPoolDefaultExpansionSize
  else size

/-- Whether `init_size_class_config` accepts what was planned. -/
def initSizeClassConfig (plan : PoolPlan) : Bool :=
  let sizes := plan.classes.map ClassPlan.blkSz
  let base := umqBufSizeSmall cfg
  let maxSize := if plan.normalPoolMaxSize = 0 then qbufPoolDefaultExpansionMemSize else plan.normalPoolMaxSize
  (1 ≤ sizes.length ∧ sizes.length ≤ umqQbufSizeClassMax) ∧ (4096 ≤ base ∧ base ≤ 1024 * 1024 ∧ base % 4096 = 0) ∧
    sizes.head? = some base ∧ checkBlockSizes none sizes ∧
    (cfg.disableScaleCap ∨ sizes.getLastD 0 ≤ expansionSizeOf cfg.expansionSize) ∧ plan.normalIoBufSize ≤ maxSize

/-- Both checks pass. -/
def Accepted (plan : PoolPlan) : Prop :=
  umqQbufPoolCfgCheck cfg = some plan ∧ initSizeClassConfig cfg plan

/-! ## The layout -/

/-- A size class in the buffer. -/
structure ClassRegion extends ClassPlan where
  dataStart : Nat
  headerStart : Nat
  deriving DecidableEq

/-- The part of `g_qbuf_pool` that the layout fills in; `regions` is indexed by the size class. -/
structure QbufPool where
  mode : BufMode
  dataBuffer : Nat
  totalSize : Nat
  regions : List ClassRegion
  headerBuffer : Nat
  extHeaderBuffer : Nat

/-- The loop over the classes in descending order: where each region starts, and the end.
A class without blocks has no region. -/
def placeData : Nat → List ClassPlan → List (ClassPlan × Nat) × Nat
  | dataPtr, [] => ([], dataPtr)
  | dataPtr, plan :: rest =>
    if plan.blkCnt = 0 then
      let after := placeData dataPtr rest
      ((plan, 0) :: after.1, after.2)
    else
      let start := maskUp 64 dataPtr plan.blkSz
      let after := placeData (start + plan.blkCnt * plan.blkSz) rest
      ((plan, start) :: after.1, after.2)

/-- The header regions in the same order. -/
def placeHeaders : Nat → List (ClassPlan × Nat) → List ClassRegion
  | _, [] => []
  | headerCur, (plan, dataStart) :: rest =>
    if plan.blkCnt = 0 then ⟨plan, dataStart, 0⟩ :: placeHeaders headerCur rest
    else ⟨plan, dataStart, headerCur⟩ :: placeHeaders (headerCur + plan.blkCnt * sizeofUmqBuf) rest

def initSplitModeLayout (bufAddr totalSize : Nat) (classes : List ClassPlan) : QbufPool :=
  let placed := placeData bufAddr classes.reverse
  { mode := .split
    dataBuffer := bufAddr
    totalSize := totalSize
    regions := (placeHeaders placed.2 placed.1).reverse
    headerBuffer := placed.2
    extHeaderBuffer := placed.2 + (classes.map fun plan => plan.blkCnt * sizeofUmqBuf).sum }

def initCombineModeLayout (bufAddr totalSize : Nat) (classes : List ClassPlan) : QbufPool :=
  { mode := .combine
    dataBuffer := bufAddr
    totalSize := totalSize
    regions := ((placeData bufAddr classes.reverse).1.map fun placed => ⟨placed.1, placed.2, 0⟩).reverse
    headerBuffer := 0
    extHeaderBuffer := 0 }

/-- The layout that `umq_qbuf_pool_init` makes in the buffer at `bufAddr`. -/
def initLayout (plan : PoolPlan) (bufAddr : Nat) : QbufPool :=
  match cfg.bufMode with
  | .split => initSplitModeLayout bufAddr plan.normalIoBufSize plan.classes
  | .combine => initCombineModeLayout bufAddr plan.normalIoBufSize plan.classes

/-! ## Its blocks -/

def ClassRegion.block (region : ClassRegion) (i : Nat) : Nat := region.dataStart + i * region.blkSz

def ClassRegion.header (mode : BufMode) (region : ClassRegion) (i : Nat) : Nat :=
  match mode with
  | .split => region.headerStart + i * sizeofUmqBuf
  | .combine => region.block i

def floorToAlign (ptr align : Nat) : Nat := maskDown 64 ptr align

/-- `buf_data` after an allocation: in split mode from the pointer stored in the header, in
combined mode from the header's own place. -/
def allocBufData (mode : BufMode) (blkSz header stored headroom : Nat) : Nat :=
  match mode with
  | .split => floorToAlign stored blkSz + headroom
  | .combine => header + sizeofUmqBuf + headroom

end UbsComm.Qbuf
