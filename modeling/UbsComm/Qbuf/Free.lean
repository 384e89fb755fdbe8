import UbsComm.Qbuf.Basic

/-! # `umq_buf_free`

A chain of buffers is cut into runs of one kind of pool, and each run is handed to the
pool's own free function. -/

namespace UbsComm.Qbuf

open Library Function

inductive PoolType where
  | normal | tiny | huge | escape | rx
  deriving DecidableEq

def isHugeMempoolPool (mempoolId : Nat) : Bool :=
  mempoolId > umqQbufDefaultMempoolId ∧ mempoolId < hugeQbufPoolMempoolIdMax

def umqPoolTypeGet (mempoolId : Nat) : PoolType :=
  if mempoolId = umqTinyQbufMempoolId then .tiny
  else if mempoolId = umqRxQbufMempoolId then .rx
  else if mempoolId = qbufPoolMempoolIdMax then .escape
  else if isHugeMempoolPool mempoolId then .huge
  else .normal

/-- What is fixed when the pools are set up.  `hugePoolIdxShift` are the first mempool
ids of the huge pools above the first one. -/
structure PoolConfig where
  mode : BufMode
  blockSizes : List Nat
  perScBlockCounts : Nat → Nat
  disableScaleCap : Bool
  disableMallocEscape : Bool
  tinyDepth : Nat
  tinyBatchCount : Nat
  hugePoolIdxShift : List Nat
  umqInited : Bool
  qbufInited : Bool
  tinyInited : Bool
  rxInited : Bool
  hugeInited : Bool

/-! ## Escape buffers -/

/-- `escape_buf_node_t` -/
structure EscapeNode where
  qbuf : Nat
  bufData : Nat
  blkSize : Nat
  deriving DecidableEq

/-- A block that `memalign` has handed out. -/
structure HeapBlock where
  start : Nat
  size : Nat
  deriving DecidableEq

structure EscapeState where
  registry : Nat → Nat → List EscapeNode
  bufCnt : Nat → Int
  heap : List HeapBlock

def escapeHashGoldenRatio : UInt64 := 0x9E3779B97F4A7C15

/-- `escape_buf_hash`, with `ESCAPE_REGISTRY_HASH_BUCKETS` = 64. -/
def escapeBufHash (bufData : Nat) : Nat :=
  let page := UInt64.ofNat bufData >>> 12
  let mixed := (page ^^^ (page >>> 21)) * escapeHashGoldenRatio
  (mixed ^^^ (mixed >>> 33)).toNat % 64

/-- `blk_size_to_sc` -/
def blkSizeToSc (blockSizes : List Nat) (blkSize : Nat) : Nat :=
  if blkSize = 0 then umqQbufSizeClassMax
  else (blockSizes.findIdx? (· = blkSize)).getD umqQbufSizeClassMax

def escapeRegistryRemove (registry : Nat → Nat → List EscapeNode) (buf : Buf) (sc : Nat) :
    Nat → Nat → List EscapeNode :=
  if sc ≥ umqQbufSizeClassMax then registry
  else
    let bucket := escapeBufHash buf.bufData
    update registry sc
      (update (registry sc) bucket ((registry sc bucket).eraseP (·.qbuf = buf.addr)))

/-- `free`: the block that starts at the pointer is given back. -/
def heapFree (heap : List HeapBlock) (pointer : Nat) : List HeapBlock := heap.filter (·.start ≠ pointer)

/-- The escape branch of `umq_qbuf_free`. -/
def escapeFree (blockSizes : List Nat) (state : EscapeState) (buf : Buf) : EscapeState :=
  let sc := blkSizeToSc blockSizes buf.dataSize
  { registry := escapeRegistryRemove state.registry buf sc
    heap := heapFree state.heap buf.bufData
    bufCnt := if sc < umqQbufSizeClassMax then update state.bufCnt sc (state.bufCnt sc - 1) else state.bufCnt }

/-! ## The pools -/

/-- The pools, with the caches of the calling thread. -/
structure Pools where
  withData : Nat → ClassPool
  withoutData : ClassPool
  freeCount : Nat → Nat
  nodataFreeCount : Nat
  rxFallbackOutstanding : Int
  escape : EscapeState
  tinyCache : Cache
  tinyGlobal : BufList
  tinyFreeCount : Nat
  rx : BufList
  rxFreeCount : Nat
  huge : Nat → BufList

variable (config : PoolConfig)

def qbufPoolBatchCntMin : Nat := 4
def qbufPoolBatchCntDivisor : Nat := 24

def getBatchCount (sc : Nat) : Nat :=
  if sc ≥ config.blockSizes.length ∨ config.perScBlockCounts sc = 0 then qbufPoolBatchCntMin
  else min qbufPoolBatchCnt (max qbufPoolBatchCntMin (config.perScBlockCounts sc / qbufPoolBatchCntDivisor % 2 ^ 32))

variable (pools : Pools)

/-- Buffers without data go to their own cache; `shrink` says whether the cache shrinks
itself afterwards. -/
def freeWithoutData (batch : List Buf) (shrink : Bool) : Pools :=
  let cap := if config.disableScaleCap then qbufPoolTlsMax else pools.withoutData.cache.capacity % 2 ^ 32
  let class' := (pools.withoutData.releaseBatch batch).returnAbove cap qbufPoolBatchCnt
  { pools with
    withoutData := if shrink then class'.selfShrinkWithoutData else class'
    nodataFreeCount := pools.nodataFreeCount + batch.length }

/-- The buffers of a run by where they go; a buffer of no known size is left out. -/
structure Sorted where
  nodata : List Buf
  classes : Nat → List Buf
  rxFallback : Nat

def Sorted.empty : Sorted := ⟨[], fun _ => [], 0⟩

/-- The block size a buffer's header tells, if it can. -/
def blkSizeOf (buf : Buf) : Option Nat :=
  match config.mode with
  | .split => if buf.bufSize < sizeofUmqBuf then none else some (buf.bufSize - sizeofUmqBuf)
  | .combine => some buf.bufSize

/-- The body of the loop over a run. -/
def sortBuf (sorted : Sorted) (cur : Buf) : Sorted :=
  if config.mode = .split ∧ cur.mempoolWithoutData then { sorted with nodata := sorted.nodata ++ [cur] }
  else
    match blkSizeOf config cur with
    | none => sorted
    | some blkSize =>
      let sc := blkSizeToSc config.blockSizes blkSize
      if sc ≥ config.blockSizes.length then sorted
      else
        { sorted with
          classes := update sorted.classes sc (sorted.classes sc ++ [cur])
          rxFallback := sorted.rxFallback + if cur.rxFallback then 1 else 0 }

def releaseClass (classes : Nat → List Buf) (pools : Pools) (sc : Nat) : Pools :=
  if classes sc = [] then pools
  else
    let cap := if config.disableScaleCap then qbufPoolTlsMax else (pools.withData sc).cache.capacity
    let class' := ((pools.withData sc).releaseBatch (classes sc)).returnAbove cap (getBatchCount config sc)
    { pools with
      withData := update pools.withData sc class'.selfShrinkWithData
      freeCount := update pools.freeCount sc (pools.freeCount sc + (classes sc).length) }

/-- The part of `umq_qbuf_free` behind the escape and the no-data shortcut. -/
def freeSorted (run : List Buf) : Pools :=
  let sorted := run.foldl (sortBuf config) .empty
  let pools := { pools with rxFallbackOutstanding := pools.rxFallbackOutstanding - sorted.rxFallback }
  let pools := if sorted.nodata = [] then pools else freeWithoutData config pools sorted.nodata false
  (List.range config.blockSizes.length).foldl (releaseClass config sorted.classes) pools

/-- Only the head of a list of escape buffers is freed. -/
def umqQbufFree (run : List Buf) : Pools :=
  match run with
  | [] => pools
  | first :: _ =>
    if ¬ config.qbufInited then pools
    else if first.mempoolId = qbufPoolMempoolIdMax ∧ ¬ config.disableMallocEscape then
      { pools with escape := escapeFree config.blockSizes pools.escape first }
    else if config.mode = .split ∧ first.mempoolWithoutData then freeWithoutData config pools run true
    else freeSorted config pools run

/-- The tiny pool has no slots of its own; the code it shares with the classes would use
those of the first class. -/
def Pools.tiny : ClassPool := ⟨pools.tinyCache, pools.tinyGlobal, (pools.withData 0).expansion⟩

def Pools.setTiny (tiny : ClassPool) : Pools :=
  { pools with
    tinyCache := tiny.cache
    tinyGlobal := tiny.global
    withData := update pools.withData 0 { pools.withData 0 with expansion := tiny.expansion } }

def umqTinyQbufFree (run : List Buf) : Pools :=
  let batchCnt := if config.tinyBatchCount = 0 then qbufPoolBatchCnt else config.tinyBatchCount
  let pools :=
    if config.tinyInited then
      pools.setTiny ((pools.tiny.releaseBatch run).returnAbove (config.tinyDepth % 2 ^ 32) batchCnt)
    else pools
  { pools with tinyFreeCount := pools.tinyFreeCount + run.length }

def umqRxQbufFree (run : List Buf) : Pools :=
  if config.rxInited then
    { pools with rx := pools.rx.prepend run, rxFreeCount := pools.rxFreeCount + run.length }
  else pools

/-- `umq_huge_qbuf_get_type_by_mempool_id` -/
def hugeTypeOf (mempoolId : Nat) : Nat :=
  (config.hugePoolIdxShift.findIdx? (mempoolId < ·)).getD config.hugePoolIdxShift.length

/-- A run goes to the pool of its first buffer. -/
def umqHugeQbufFree (run : List Buf) : Pools :=
  match run with
  | [] => pools
  | first :: _ =>
    if config.hugeInited then
      let type := hugeTypeOf config first.mempoolId
      { pools with huge := update pools.huge type ((pools.huge type).prepend run) }
    else pools

def umqInvalidHandleBufFree (run : List Buf) : Pools :=
  match run with
  | [] => pools
  | first :: _ =>
    match umqPoolTypeGet first.mempoolId with
    | .tiny => umqTinyQbufFree config pools run
    | .rx => umqRxQbufFree config pools run
    | .huge => umqHugeQbufFree config pools run
    | .normal | .escape => umqQbufFree config pools run

/-- Neighbours with the same pool type and the same kind of memory are freed together. -/
def runKey (buf : Buf) : PoolType × Bool := (umqPoolTypeGet buf.mempoolId, buf.mempoolWithoutData)

/-- Every buffer of a pool has the handle `UMQ_INVALID_HANDLE`.  The shortcut for a single
buffer is the loop on a chain of one. -/
def umqBufFree (chain : List Buf) : Pools :=
  if config.umqInited then visitRuns runKey (umqInvalidHandleBufFree config) chain pools else pools

end UbsComm.Qbuf
