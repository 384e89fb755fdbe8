import UbsComm.Library.Segments

/-! # Buffers and the lists they wait in

Free buffers of one size class wait in three kinds of lists: the cache of a thread, the
global list, and the free lists of the expansion slots.  A linked list of headers is a
list of buffers here. -/

namespace UbsComm.Qbuf

open Library

inductive BufMode where
  | split | combine
  deriving DecidableEq

/-- `umq_buf_t`, with its address. -/
structure Buf where
  addr : Nat
  mempoolId : Nat
  mempoolWithoutData : Bool
  bufSize : Nat
  dataSize : Nat
  totalDataSize : Nat
  headroomSize : Nat
  firstFragment : Bool
  bufData : Nat
  rxFallback : Bool
  deriving DecidableEq

def sizeofUmqBuf : Nat := 128

def umqQbufDefaultMempoolId : Nat := 0
def hugeQbufPoolMempoolIdMax : Nat := 257
def qbufPoolExpSlotIdMin : Nat := 257
def qbufPoolExpSlotTableSize : Nat := 764
def umqRxQbufMempoolId : Nat := 1021
def umqTinyQbufMempoolId : Nat := 1022
def qbufPoolMempoolIdMax : Nat := 1023
def umqQbufSizeClassMax : Nat := 5

/-- A list of buffers with its counter. -/
structure BufList where
  head : List Buf
  cnt : Nat

/-- The list of a thread, which may hold `capacity` buffers. -/
structure Cache extends BufList where
  capacity : Nat

/-- `qbuf_expansion_pool_slot_t` -/
structure Slot where
  slotId : Nat
  freeBlockList : List Buf
  freeBlockCnt : Nat
  totalBlockCnt : Nat
  shrinkPending : Bool

/-- `shrinkTasks` holds the ids of the slots the shrink thread is to look at. -/
structure ExpansionPool where
  slotList : List Slot
  expTotalBlockNum : Nat
  triggerShrinkBlockNum : Nat
  shrinkTasks : List Nat
  disableScaleCap : Bool

/-- The lists of one size class, seen by one thread. -/
structure ClassPool where
  cache : Cache
  global : BufList
  expansion : ExpansionPool

/-! ## Returning buffers -/

/-- Change the first slot with the id. -/
def modifySlot (slotId : Nat) (change : Slot → Slot) : List Slot → List Slot
  | [] => []
  | slot :: slots => if slot.slotId = slotId then change slot :: slots else slot :: modifySlot slotId change slots

/-- `mempool_id - QBUF_POOL_EXP_SLOT_ID_MIN`, an unsigned difference. -/
def slotIdOf (mempoolId : Nat) : Nat := (mempoolId + 2 ^ 32 - qbufPoolExpSlotIdMin) % 2 ^ 32

/-- A batch whose slot is not in this pool is dropped. -/
def returnBatchToExpansionPool (expansion : ExpansionPool) (mempoolId : Nat) (batch : List Buf) : ExpansionPool :=
  let slotId := slotIdOf mempoolId
  if slotId ≥ qbufPoolExpSlotTableSize then expansion
  else
    match expansion.slotList.find? (·.slotId = slotId) with
    | none => expansion
    | some slot =>
      let total := expansion.expTotalBlockNum + batch.length
      let needShrink := slot.freeBlockCnt + batch.length = slot.totalBlockCnt ∧ ¬ slot.shrinkPending ∧
        total ≥ expansion.triggerShrinkBlockNum
      { expansion with
        slotList := modifySlot slotId (fun slot =>
          { slot with
            freeBlockList := batch ++ slot.freeBlockList
            freeBlockCnt := slot.freeBlockCnt + batch.length
            shrinkPending := decide (slot.shrinkPending ∨ needShrink) }) expansion.slotList
        expTotalBlockNum := total
        shrinkTasks :=
          if needShrink ∧ ¬ expansion.disableScaleCap then expansion.shrinkTasks ++ [slotId]
          else expansion.shrinkTasks }

def BufList.prepend (list : BufList) (batch : List Buf) : BufList := ⟨batch ++ list.head, list.cnt + batch.length⟩

/-- Where `return_list_to_pools` puts a batch of one mempool. -/
def returnBatch (pools : BufList × ExpansionPool) (batch : List Buf) : BufList × ExpansionPool :=
  match batch with
  | [] => pools
  | first :: _ =>
    if first.mempoolId ≠ umqQbufDefaultMempoolId ∧ first.mempoolId ≠ umqTinyQbufMempoolId then
      (pools.1, returnBatchToExpansionPool pools.2 first.mempoolId batch)
    else (pools.1.prepend batch, pools.2)

/-- The length of the list is returned too. -/
def returnListToPools (list : List Buf) (pools : BufList × ExpansionPool) : (BufList × ExpansionPool) × Nat :=
  (visitRuns Buf.mempoolId returnBatch list pools, list.length)

variable (pool : ClassPool)

/-- The cache keeps its first `threshold` buffers. -/
def ClassPool.returnToGlobal (threshold : Nat) : ClassPool :=
  if threshold = 0 then
    let returned := returnListToPools pool.cache.head (pool.global, pool.expansion)
    { cache := { pool.cache with head := [], cnt := 0 }, global := returned.1.1, expansion := returned.1.2 }
  else if threshold < pool.cache.head.length then
    let returned := returnListToPools (pool.cache.head.drop threshold) (pool.global, pool.expansion)
    { cache := { pool.cache with head := pool.cache.head.take threshold, cnt := pool.cache.cnt - returned.2 }
      global := returned.1.1, expansion := returned.1.2 }
  else pool

/-- `release_batch` into the cache, and its counter. -/
def ClassPool.releaseBatch (batch : List Buf) : ClassPool :=
  { pool with cache := { pool.cache with head := batch ++ pool.cache.head, cnt := pool.cache.cnt + batch.length } }

def qbufPoolTlsMax : Nat := 2048
def qbufPoolBatchCnt : Nat := 64
def qbufPoolShrinkThreshold : Nat := 64
def qbufPoolSelfShrinkRatio : Nat := 4

/-- A cache above its cap gives back all but a batch less than the cap, a 32-bit number. -/
def ClassPool.returnAbove (cap batchCnt : Nat) : ClassPool :=
  if pool.cache.cnt > cap then pool.returnToGlobal ((if cap > batchCnt then cap - batchCnt else 0) % 2 ^ 32) else pool

/-- Lower the capacity by a quarter of what the cache holds, and return what is above it. -/
def ClassPool.lowerCapacity : ClassPool :=
  let remaining := pool.cache.cnt
  let capacity := pool.cache.capacity - min (remaining / qbufPoolSelfShrinkRatio) pool.cache.capacity
  let pool := { pool with cache := { pool.cache with capacity := capacity } }
  if capacity < remaining then pool.returnToGlobal (capacity % 2 ^ 32) else pool

/-- `thread_cache_self_shrink(true, sc)` -/
def ClassPool.selfShrinkWithData : ClassPool :=
  if pool.expansion.disableScaleCap then pool
  else if pool.cache.cnt / qbufPoolSelfShrinkRatio < qbufPoolShrinkThreshold ∨ pool.cache.capacity = 0 then pool
  else pool.lowerCapacity

/-- `thread_cache_self_shrink(false, 0)`: with no capacity everything is returned. -/
def ClassPool.selfShrinkWithoutData : ClassPool :=
  if pool.expansion.disableScaleCap then pool
  else if pool.cache.cnt / qbufPoolSelfShrinkRatio < qbufPoolShrinkThreshold ∨ pool.cache.cnt = 0 then pool
  else if pool.cache.capacity = 0 ∧ pool.cache.cnt > 0 then pool.returnToGlobal 0
  else pool.lowerCapacity

end UbsComm.Qbuf
