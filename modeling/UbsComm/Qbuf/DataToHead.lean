import UbsComm.Library.Run
import UbsComm.Qbuf.Expansion
import UbsComm.Qbuf.Free

/-! # From a data pointer to its header

`umq_data_to_head` asks the main pool, the expansion slots, the registry of escape blocks, the tiny
pool and the receive pool.  A state holds what these lookups read and the blocks that are allocated;
its steps are the allocations, the frees, the writes to headers and the growing and shrinking of the
expansion pools. -/

namespace UbsComm.Qbuf

open Library Function

/-! ## Expansion slots -/

/-- `qbuf_expansion_pool_slot_t`, as far as the lookup reads it. -/
structure ExpSlot where
  sizeClass : Nat
  buffer : Nat
  totalBlockCnt : Nat
  deriving DecidableEq

namespace ExpSlot

variable (slot : ExpSlot) (mode : BufMode) (blkSize i : Nat)

def subSlotCount : Nat :=
  (slot.totalBlockCnt + subSlotBlkCount mode blkSize - 1) / subSlotBlkCount mode blkSize

/-- The slot's memory, from `buffer` to `header_buffer`. -/
def span : Span := ⟨slot.buffer, qbufMemalignSize * slot.subSlotCount mode blkSize⟩

/-- Where the sub slot with the `i`-th block starts. -/
def subSlot : Nat := slot.buffer + i / subSlotBlkCount mode blkSize * qbufMemalignSize

def block : Nat := slot.subSlot mode blkSize i + i % subSlotBlkCount mode blkSize * blkSize

def header : Nat :=
  match mode with
  | .split =>
    slot.subSlot mode blkSize i + subSlotDataBufSize mode blkSize + i % subSlotBlkCount mode blkSize * sizeofUmqBuf
  | .combine => slot.block mode blkSize i

end ExpSlot

/-! ## The other pools -/

/-- `qbuf_pool_base_t`, which the tiny pool is. -/
structure BasePool where
  inited : Bool
  mode : BufMode
  dataBuffer : Nat
  headerBuffer : Nat
  totalSize : Nat
  blockSize : Nat

def BasePool.span (base : BasePool) : Span := ⟨base.dataBuffer, base.totalSize⟩

def umqQbufBaseDataToHead (base : BasePool) (data : Nat) : Option Nat :=
  if !base.inited || data = 0 then none
  else
    let id := (data - base.dataBuffer) / base.blockSize
    match base.mode with
    | .split =>
      if data < base.dataBuffer ∨ data ≥ base.headerBuffer then none else some (base.headerBuffer + id * sizeofUmqBuf)
    | .combine =>
      if data < base.dataBuffer ∨ data ≥ base.dataBuffer + base.totalSize then none
      else some (base.dataBuffer + id * base.blockSize)

def umqRxQbufBlockSize : Nat := 2 ^ 12

structure RxPool where
  inited : Bool
  bufferAddr : Nat
  totalLen : Nat

def RxPool.span (rx : RxPool) : Span := ⟨rx.bufferAddr, rx.totalLen⟩

def RxPool.dataBufEnd (rx : RxPool) : Nat :=
  rx.bufferAddr + rx.totalLen / (umqRxQbufBlockSize + sizeofUmqBuf) * umqRxQbufBlockSize

def umqRxQbufDataToHead (headers : Nat → Buf) (rx : RxPool) (data : Nat) : Option Nat :=
  if !rx.inited || data = 0 then none
  else
    let blkStart := maskDown 64 data umqRxQbufBlockSize
    if blkStart < rx.bufferAddr ∨ blkStart ≥ rx.dataBufEnd then none
    else
      let qbuf := rx.dataBufEnd + (blkStart - rx.bufferAddr) / umqRxQbufBlockSize * sizeofUmqBuf
      if (headers qbuf).bufData ≥ blkStart ∧ (headers qbuf).bufData < blkStart + umqRxQbufBlockSize then some qbuf
      else none

/-! ## Blocks -/

def QbufPool.sizes (pool : QbufPool) : List Nat := pool.regions.map fun region => region.blkSz

/-- `block_sizes[sc]` -/
def QbufPool.blockSize (pool : QbufPool) (sc : Nat) : Nat := pool.sizes.getD sc 0

/-- A block that can be allocated: of the main pool, of an expansion slot, or an escape block. -/
inductive PoolBlock where
  | main (region : ClassRegion) (i : Nat)
  | slot (expSlot : ExpSlot) (i : Nat)
  | escape (sc start : Nat)
  deriving DecidableEq

/-- The data area of a block of a pool: in combined mode the header stands before it. -/
def dataArea (mode : BufMode) (start blkSize : Nat) : Span :=
  match mode with
  | .split => ⟨start, blkSize⟩
  | .combine => ⟨start + sizeofUmqBuf, blkSize - sizeofUmqBuf⟩

namespace PoolBlock

variable (pool : QbufPool)

def header : PoolBlock → Nat
  | .main region i => region.header pool.mode i
  | .slot expSlot i => expSlot.header pool.mode (pool.blockSize expSlot.sizeClass) i
  | .escape sc start => start + pool.blockSize sc

/-- Its data area, including the headroom. -/
def area : PoolBlock → Span
  | .main region i => dataArea pool.mode (region.block i) region.blkSz
  | .slot expSlot i =>
    dataArea pool.mode (expSlot.block pool.mode (pool.blockSize expSlot.sizeClass) i) (pool.blockSize expSlot.sizeClass)
  | .escape sc start => ⟨start, pool.blockSize sc⟩

def blkSize : PoolBlock → Nat
  | .main region _ => region.blkSz
  | .slot expSlot _ => pool.blockSize expSlot.sizeClass
  | .escape sc _ => pool.blockSize sc

def bufSize (block : PoolBlock) : Nat :=
  match block, pool.mode with
  | .escape _ _, _ | _, .split => block.blkSize pool + sizeofUmqBuf
  | _, .combine => block.blkSize pool

def isEscape (sc : Nat) : PoolBlock → Bool
  | .escape other _ => other == sc
  | _ => false

end PoolBlock

/-! ## The state -/

structure QbufMap where
  umqInited : Bool
  inited : Bool
  pool : QbufPool
  slots : List ExpSlot
  escape : EscapeState
  tiny : BasePool
  rx : RxPool
  /-- The headers by their addresses. -/
  headers : Nat → Buf
  /-- The blocks that are allocated. -/
  held : List PoolBlock

namespace QbufMap

variable (map : QbufMap)

/-! ## The lookups -/

/-- `buf_data_to_size_class`, with the region of the class. -/
def bufDataToSizeClass (data : Nat) : Option ClassRegion :=
  map.pool.regions.find? fun region =>
    decide (region.blkCnt ≠ 0 ∧ region.dataStart ≤ data ∧ data < region.dataStart + region.dataBytes)

def anyEscapeBufExists : Bool := (List.range map.pool.sizes.length).any fun sc => map.escape.bufCnt sc ≠ 0

def escapeRegistryLookup (data : Nat) : Option Nat :=
  if !map.anyEscapeBufExists then none
  else
    (List.range map.pool.sizes.length).findSome? fun sc =>
      let blkSize := map.pool.blockSize sc
      if blkSize = 0 then none
      else
        let candidateData := maskDown 64 data blkSize
        ((map.escape.registry sc (escapeBufHash candidateData)).find? fun node =>
          decide (node.bufData = candidateData ∧ node.bufData ≤ data ∧ data < node.bufData + node.blkSize)).map
          (·.qbuf)

def findSlot (data : Nat) : Option ExpSlot :=
  (List.range map.pool.sizes.length).findSome? fun sc =>
    map.slots.find? fun slot =>
      decide (slot.sizeClass = sc ∧ slot.buffer ≤ data ∧ data < (slot.span map.pool.mode (map.pool.blockSize sc)).stop)

def umqQbufDataToHeadEscape (data : Nat) : Option Nat :=
  match map.findSlot data with
  | none => map.escapeRegistryLookup data
  | some slot =>
    let blkSize := map.pool.blockSize slot.sizeClass
    let bufferHead := maskDown 64 data qbufMemalignSize
    let id := (data - bufferHead) / blkSize
    match map.pool.mode with
    | .split => some (bufferHead + subSlotDataBufSize map.pool.mode blkSize + id * sizeofUmqBuf)
    | .combine => some (bufferHead + id * blkSize)

/-- The fast path for the main pool. -/
def mainCandidate (data : Nat) : Option Nat :=
  if map.pool.dataBuffer ≤ data ∧ data < map.pool.dataBuffer + map.pool.totalSize then
    match map.bufDataToSizeClass data with
    | none => none
    | some region =>
      let id := (data - region.dataStart) / region.blkSz
      match map.pool.mode with
      | .split =>
        if id < region.blkCnt then
          let candidate := region.headerStart + id * sizeofUmqBuf
          let blkStart := region.dataStart + id * region.blkSz
          if blkStart ≤ data ∧ data < blkStart + region.blkSz ∧ blkStart ≤ (map.headers candidate).bufData ∧
              (map.headers candidate).bufData < blkStart + region.blkSz then
            some candidate
          else none
        else none
      | .combine =>
        let candidate := region.dataStart + id * region.blkSz
        if region.dataStart ≤ candidate ∧ candidate + region.blkSz ≤ region.dataStart + region.dataBytes ∧
            (map.headers candidate).bufData ≠ 0 ∧ (map.headers candidate).bufData ≤ data ∧
            data < (map.headers candidate).bufData + region.blkSz then
          some candidate
        else none
  else none

/-- In split mode what the second lookup finds is compared with its own data pointer. -/
def umqQbufDataToHead (data : Nat) : Option Nat :=
  if !map.inited || data = 0 then none
  else
    match map.mainCandidate data with
    | some candidate => some candidate
    | none =>
      match map.pool.mode with
      | .split =>
        (map.umqQbufDataToHeadEscape data).filter fun esc =>
          decide ((map.headers esc).bufData ≠ 0 ∧ (map.headers esc).bufData ≤ data ∧
            data < (map.headers esc).bufData + (map.headers esc).bufSize)
      | .combine => map.umqQbufDataToHeadEscape data

def umqQbufExpansionDataToHead (data : Nat) : Option Nat :=
  if !map.inited || data = 0 then none else map.umqQbufDataToHeadEscape data

def umqDataToHead (data : Nat) : Option Nat :=
  if !map.umqInited || data = 0 then none
  else
    (map.umqQbufDataToHead data).or <| (umqQbufBaseDataToHead map.tiny data).or <|
      (map.umqQbufExpansionDataToHead data).or (umqRxQbufDataToHead map.headers map.rx data)

/-! ## The memory of the pools -/

end QbufMap

/-- A piece of memory that belongs to a pool. -/
inductive Area where
  | main
  | tiny
  | rx
  | slot (expSlot : ExpSlot)
  | escape (sc start : Nat)
  deriving DecidableEq

def PoolBlock.escapeArea : PoolBlock → Option Area
  | .escape sc start => some (.escape sc start)
  | _ => none

namespace QbufMap

variable (map : QbufMap)

def areas : List Area :=
  [.main, .tiny, .rx] ++ map.slots.map .slot ++ map.held.filterMap PoolBlock.escapeArea

def areaSpan : Area → Span
  | .main => ⟨map.pool.dataBuffer, map.pool.totalSize⟩
  | .tiny => map.tiny.span
  | .rx => map.rx.span
  | .slot slot => slot.span map.pool.mode (map.pool.blockSize slot.sizeClass)
  | .escape sc start => ⟨start, map.pool.blockSize sc + sizeofUmqBuf⟩

def Within (area : Area) (data : Nat) : Prop :=
  (map.areaSpan area).start ≤ data ∧ data < (map.areaSpan area).stop

/-- The address belongs to none of the pools. -/
def Outside (data : Nat) : Prop := ∀ area ∈ map.areas, ¬ map.Within area data

instance (data : Nat) : Decidable (map.Outside data) := inferInstanceAs (Decidable (∀ area ∈ map.areas, ¬ (_ ∧ _)))

/-- Every address of the data area of an allocated block leads to its own header, and an address
outside of all pools to none. -/
structure Right : Prop where
  own : ∀ block ∈ map.held, ∀ data, (block.area map.pool).start ≤ data → data < (block.area map.pool).stop →
    map.umqDataToHead data = some (block.header map.pool)
  outside : ∀ data < 2 ^ 64, map.Outside data → map.umqDataToHead data = none

end QbufMap

/-! ## Steps -/

inductive MapAction where
  | alloc (block : PoolBlock) (headroom dataSize : Nat)
  | allocEscape (sc start : Nat)
  /-- `umq_qbuf_headroom_reset`, or the owner sets the data size. -/
  | setHeader (block : PoolBlock) (headroom dataSize : Nat)
  | free (block : PoolBlock)
  | expand (slot : ExpSlot)
  | shrink (slot : ExpSlot)

namespace QbufMap

variable (map : QbufMap)

/-- The headers once the data pointer of a block stands behind `headroom` bytes. -/
def withHeader (block : PoolBlock) (headroom dataSize : Nat) : Nat → Buf :=
  update map.headers (block.header map.pool)
    { map.headers (block.header map.pool) with
      addr := block.header map.pool
      bufData := (block.area map.pool).start + headroom
      bufSize := block.bufSize map.pool
      headroomSize := headroom
      dataSize := dataSize }

/-- `umq_qbuf_alloc_escape` -/
def umqQbufAllocEscape (sc start : Nat) : EscapeState :=
  let blkSize := map.pool.blockSize sc
  let bucket := escapeBufHash start
  { registry := update map.escape.registry sc
      (update (map.escape.registry sc) bucket
        (⟨start + blkSize, start, blkSize⟩ :: map.escape.registry sc bucket))
    bufCnt := update map.escape.bufCnt sc (map.escape.bufCnt sc + 1)
    heap := ⟨start, blkSize + sizeofUmqBuf⟩ :: map.escape.heap }

def step : MapAction → QbufMap
  | .alloc block headroom dataSize =>
    { map with headers := map.withHeader block headroom dataSize, held := block :: map.held }
  | .allocEscape sc start =>
    { map with
      headers := map.withHeader (.escape sc start) 0 (map.pool.blockSize sc)
      escape := map.umqQbufAllocEscape sc start
      held := .escape sc start :: map.held }
  | .setHeader block headroom dataSize => { map with headers := map.withHeader block headroom dataSize }
  | .free (.escape sc start) =>
    { map with
      escape := escapeFree map.pool.sizes map.escape
        { map.headers (start + map.pool.blockSize sc) with addr := start + map.pool.blockSize sc }
      held := map.held.erase (.escape sc start) }
  | .free block => { map with held := map.held.erase block }
  | .expand slot => { map with slots := slot :: map.slots }
  | .shrink slot => { map with slots := map.slots.erase slot }

/-- Memory that `memalign` returns: none that is in use, and not the null pointer. -/
def Fresh (span : Span) : Prop :=
  0 < span.start ∧ span.stop ≤ 2 ^ 64 ∧ ∀ area ∈ map.areas, span.Apart (map.areaSpan area)

instance (span : Span) : Decidable (map.Fresh span) := inferInstanceAs (Decidable (_ ∧ _ ∧ _))

/-- What the free lists and `memalign` see to: only free blocks are allocated and only allocated
ones freed, memory is fresh and aligned (to a power of two), and a slot is given up when all its
blocks are free. -/
def Possible : MapAction → Prop
  | .alloc block _ _ =>
    block ∉ map.held ∧
      match block with
      | .main region i => region ∈ map.pool.regions ∧ i < region.blkCnt
      | .slot slot i => slot ∈ map.slots ∧ i < slot.totalBlockCnt
      | .escape _ _ => False
  | .allocEscape sc start =>
    sc < map.pool.sizes.length ∧ map.Fresh ⟨start, map.pool.blockSize sc + sizeofUmqBuf⟩ ∧
      ((map.pool.blockSize sc).isPowerOfTwo → map.pool.blockSize sc ∣ start)
  | .setHeader block _ _ | .free block => block ∈ map.held
  | .expand slot =>
    slot.sizeClass < map.pool.sizes.length ∧ 0 < slot.totalBlockCnt ∧ qbufMemalignSize ∣ slot.buffer ∧
      map.Fresh (slot.span map.pool.mode (map.pool.blockSize slot.sizeClass))
  | .shrink slot => slot ∈ map.slots ∧ ∀ i < slot.totalBlockCnt, PoolBlock.slot slot i ∉ map.held

instance (action) : Decidable (map.Possible action) := by
  unfold Possible
  split <;> first | infer_instance | (split <;> infer_instance)

/-- A headroom with which the main pool finds a block from every address of its data area. -/
def HeadroomOk (block : PoolBlock) (headroom : Nat) : Prop :=
  match block with
  | .main region _ =>
    match map.pool.mode with
    | .split => headroom < region.blkSz
    | .combine => headroom = 0
  | .slot _ _ | .escape _ _ => True

instance (block : PoolBlock) (headroom : Nat) : Decidable (map.HeadroomOk block headroom) := by
  unfold HeadroomOk
  repeat' split
  all_goals infer_instance

/-- Blocks of the main pool get no headroom in combined mode and less than the block in split mode,
and an escape block is freed with the data pointer and the data size it was allocated with. -/
def Careful : MapAction → Prop
  | .alloc block headroom _ | .setHeader block headroom _ => map.HeadroomOk block headroom
  | .free (.escape sc start) =>
    (map.headers (start + map.pool.blockSize sc)).bufData = start ∧
      (map.headers (start + map.pool.blockSize sc)).dataSize = map.pool.blockSize sc
  | .allocEscape _ _ | .free _ | .expand _ | .shrink _ => True

instance (action) : Decidable (map.Careful action) := by
  unfold Careful
  split <;> infer_instance

/-- The state after `umq_init`: the main pool is laid out at `bufAddr`, no block is allocated, and
the three buffers lie apart. -/
structure Opened (cfg : InitCfg) (plan : PoolPlan) (bufAddr : Nat) : Prop where
  umqInited : map.umqInited = true
  inited : map.inited = true
  pool : map.pool = initLayout cfg plan bufAddr
  positive : 0 < bufAddr
  slots : map.slots = []
  held : map.held = []
  registry : ∀ sc bucket, map.escape.registry sc bucket = []
  bufCnt : ∀ sc, map.escape.bufCnt sc = 0
  tiny : map.tiny.mode = .split → map.tiny.headerBuffer ≤ map.tiny.span.stop
  rx : umqRxQbufBlockSize ∣ map.rx.bufferAddr
  rxTop : map.rx.span.stop ≤ 2 ^ 64
  apart : map.areas.Pairwise fun one two => (map.areaSpan one).Apart (map.areaSpan two)

end QbufMap

end UbsComm.Qbuf
