import UbsComm.Library.Run
import UbsComm.Qbuf.Expansion

/-! # The pools of the size classes, shared by any number of threads

Every thread has a cache for each size class.  A class has a global list behind a mutex
and an expansion pool behind a lock of its own, so a step here is what a thread does
without letting go of a lock: the return of a list takes the mutex once, but each of its
batches takes the expansion lock anew, and other threads may fetch in between. -/

namespace UbsComm.Qbuf

open Library Function

/-- What a header in the hands of a caller still tells: its place and its pool. -/
structure Block where
  addr : Nat
  mempoolId : Nat
  deriving DecidableEq

def Buf.block (buf : Buf) : Block := ⟨buf.addr, buf.mempoolId⟩

/-! ## The functions under the locks -/

/-- `allocate_batch` is `take` and `drop`; the batch goes in front of the output. -/
def allocateBatch (input : BufList) (n : Nat) (output : Cache) : BufList × Cache × Nat :=
  let batch := input.head.take n
  (⟨input.head.drop n, input.cnt - batch.length⟩,
    { output with head := batch ++ output.head, cnt := output.cnt + batch.length }, batch.length)

/-- The loop over the slots: the slots, the cache's list and what was taken. -/
def fetchFromSlots : List Slot → Nat → List Buf → List Slot × List Buf × Nat
  | [], _, head => ([], head, 0)
  | slot :: slots, request, head =>
    if request = 0 then (slot :: slots, head, 0)
    else
      let takeCnt := min request slot.freeBlockCnt
      let batch := slot.freeBlockList.take takeCnt
      -- a list shorter than its counter is realigned
      let freeBlockCnt := if batch.length < takeCnt then 0 else slot.freeBlockCnt - batch.length
      let after := fetchFromSlots slots (request - batch.length) (batch ++ head)
      ({ slot with freeBlockList := slot.freeBlockList.drop takeCnt, freeBlockCnt := freeBlockCnt } :: after.1,
        after.2.1, batch.length + after.2.2)

def fetchFromExpansionPools (expansion : ExpansionPool) (need : Nat) (cache : Cache) : ExpansionPool × Cache × Nat :=
  let after := fetchFromSlots expansion.slotList need cache.head
  ({ expansion with slotList := after.1, expTotalBlockNum := expansion.expTotalBlockNum - after.2.2 },
    { cache with head := after.2.1, cnt := cache.cnt + after.2.2 }, after.2.2)

/-- The loop of `umq_qbuf_alloc_data_with_split` and `umq_qbuf_alloc_data_with_combine` over
the cache: it stops after `n` blocks or at the end of the list, and never for `n = 0`. -/
def allocData (cache : Cache) (n : Nat) : Cache × List Buf :=
  let taken := if n = 0 then cache.head else cache.head.take n
  if taken = [] then ({ cache with cnt := 0 }, [])
  else ({ cache with head := cache.head.drop taken.length, cnt := cache.cnt - taken.length }, taken)

/-- Head and counter of a cache before a fetch. -/
structure Saved where
  head : List Buf
  cnt : Nat

/-- `thread_local_pool_rollback` up to the mutex, and the list it is to return. -/
def threadLocalPoolRollback (cache : Cache) (old : Saved) : Cache × Option (List Buf) :=
  if cache.cnt ≤ old.cnt then (cache, none)
  else if cache.head = [] then ({ cache with cnt := old.cnt }, none)
  else ({ cache with head := old.head }, some (cache.head.take (cache.cnt - old.cnt)))

/-- One task of the shrink thread. -/
def asyncShrink (expansion : ExpansionPool) (slotId : Nat) : ExpansionPool :=
  let expansion := { expansion with shrinkTasks := expansion.shrinkTasks.erase slotId }
  if slotId ≥ qbufPoolExpSlotTableSize then expansion
  else
    match expansion.slotList.find? (·.slotId = slotId) with
    | none => expansion
    | some slot =>
      if slot.freeBlockCnt ≠ slot.totalBlockCnt then
        { expansion with
          slotList := modifySlot slotId (fun slot => { slot with shrinkPending := false }) expansion.slotList }
      else
        { expansion with
          slotList := expansion.slotList.eraseP (·.slotId = slotId)
          expTotalBlockNum := expansion.expTotalBlockNum - slot.totalBlockCnt }

def ExpansionPool.push (expansion : ExpansionPool) (slot : Slot) : ExpansionPool :=
  { expansion with
    slotList := expansion.slotList ++ [slot]
    expTotalBlockNum := expansion.expTotalBlockNum + slot.totalBlockCnt }

/-! ## The state of a size class -/

/-- Where a thread is in `umq_qbuf_local_pool_fetch_and_expand`: between two calls of
`fetch_from_global`, inside one behind its locked part, or on its way to the rollback. -/
inductive Phase where
  | idle
  | fetching (needed fetched : Nat) (start : Saved)
  | taking (needed fetched : Nat) (start : Saved) (count : Nat) (before : Saved)
  | failed (start : Saved)

structure Thread where
  cache : Cache
  inited : Bool
  phase : Phase

/-- `return_list_to_pools` under the mutex, for the cache of `thread`.  `cleared` says that
the counter of the cache was set to zero at the start. -/
structure Returning where
  thread : Nat
  rest : List Buf
  returned : Nat
  cleared : Bool

/-- `caller` holds the blocks that are allocated, `main` and `memory` the blocks in the
memory of the class and of each slot id. -/
structure ClassState where
  threadCount : Nat
  threads : Nat → Thread
  global : BufList
  expansion : ExpansionPool
  returning : Option Returning
  caller : List Block
  main : List Block
  memory : Nat → List Block

def ClassState.setThread (state : ClassState) (t : Nat) (thread : Thread) : ClassState :=
  { state with threads := update state.threads t thread }

/-- Take the mutex, if there is a list to return. -/
def ClassState.beginReturn (state : ClassState) (t : Nat) : Option (List Buf) → ClassState
  | none => state
  | some list => { state with returning := some ⟨t, list, 0, false⟩ }

def Thread.withCache (thread : Thread) (cache : Cache) : Thread := { thread with cache := cache }

def Thread.withPhase (thread : Thread) (phase : Phase) : Thread := { thread with phase := phase }

inductive ClassAction where
  | getThreadCache (t : Nat)
  | alloc (t n : Nat)
  | free (t : Nat) (batch : List Buf)
  | startFetch (t needed : Nat)
  | fetchFromGlobal (t : Nat)
  | fetchFromExpansion (t : Nat)
  | endTake (t : Nat)
  | failTake (t : Nat)
  | rollback (t : Nat)
  | endFetch (t capacity : Nat)
  | lowerCapacity (t capacity : Nat)
  | startReturn (t threshold : Nat)
  | returnBatch
  | endReturn
  | releaseThreadCache (t : Nat)
  | expand (slotId buffer : Nat)
  | shrink (slotId : Nat)

def ClassState.blocks (state : ClassState) : List Block :=
  state.main ++ state.expansion.slotList.flatMap fun slot => state.memory slot.slotId

/-! ## The steps -/

variable (config : ClassConfig)

/-- How much `umq_qbuf_local_pool_fetch_and_expand` fetches, a 32-bit number. -/
def fetchTarget (needed : Nat) : Nat :=
  if config.disableScaleCap then needed
  else (needed + config.batchCnt - 1) % 2 ^ 32 / config.batchCnt * config.batchCnt

/-- The locked part of `fetch_from_global`. -/
def fetchFromGlobal (global : BufList) (thread : Thread) (needed fetched : Nat) (start : Saved) : BufList × Thread :=
  if global.cnt ≥ config.batchCnt then
    let after := allocateBatch global config.batchCnt thread.cache
    (after.1, { thread with
      cache := after.2.1
      phase := if after.2.2 = 0 then .failed start else .fetching needed (fetched + after.2.2) start })
  else if config.disableScaleCap then (global, { thread with phase := .idle })
  else
    let before : Saved := ⟨thread.cache.head, thread.cache.cnt⟩
    let after := if global.cnt > 0 then allocateBatch global global.cnt thread.cache else (global, thread.cache, 0)
    (after.1, { thread with cache := after.2.1, phase := .taking needed fetched start after.2.2 before })

/-- `return_to_global` up to the call of `return_list_to_pools`. -/
def startReturn (cache : Cache) (t threshold : Nat) : Cache × Option Returning :=
  if threshold = 0 then
    ({ cache with head := [], cnt := 0 }, some ⟨t, cache.head, 0, true⟩)
  else if threshold < cache.head.length then
    ({ cache with head := cache.head.take threshold }, some ⟨t, cache.head.drop threshold, 0, false⟩)
  else (cache, none)

/-- The next batch of the list: what stands at its front from one pool. -/
def Returning.batch (returning : Returning) : List Buf :=
  match returning.rest with
  | [] => []
  | first :: _ => returning.rest.takeWhile (·.mempoolId = first.mempoolId)

def Returning.pop (returning : Returning) : Returning :=
  { returning with
    rest := returning.rest.drop returning.batch.length
    returned := returning.returned + returning.batch.length }

def ClassState.step (state : ClassState) : ClassAction → ClassState
  | .getThreadCache t => state.setThread t ⟨⟨⟨[], 0⟩, 0⟩, true, .idle⟩
  | .alloc t n =>
    let after := allocData (state.threads t).cache n
    { state.setThread t ((state.threads t).withCache after.1) with caller := after.2.map Buf.block ++ state.caller }
  | .free t batch =>
    let cache := (state.threads t).cache
    let cache := { cache with head := batch ++ cache.head, cnt := cache.cnt + batch.length }
    { state.setThread t ((state.threads t).withCache cache) with caller := state.caller.diff (batch.map Buf.block) }
  | .startFetch t needed =>
    let thread := state.threads t
    state.setThread t (thread.withPhase (.fetching (fetchTarget config needed) 0 ⟨thread.cache.head, thread.cache.cnt⟩))
  | .fetchFromGlobal t =>
    match (state.threads t).phase with
    | .fetching needed fetched start =>
      let after := fetchFromGlobal config state.global (state.threads t) needed fetched start
      { state.setThread t after.2 with global := after.1 }
    | _ => state
  | .fetchFromExpansion t =>
    match (state.threads t).phase with
    | .taking needed fetched start count before =>
      let after := fetchFromExpansionPools state.expansion (config.batchCnt - count) (state.threads t).cache
      { state.setThread t { (state.threads t) with
          cache := after.2.1, phase := .taking needed fetched start (count + after.2.2) before } with
        expansion := after.1 }
    | _ => state
  | .endTake t =>
    match (state.threads t).phase with
    | .taking needed fetched start count _ =>
      state.setThread t ((state.threads t).withPhase (.fetching needed (fetched + count) start))
    | _ => state
  | .failTake t =>
    match (state.threads t).phase with
    | .taking _ _ start _ before =>
      let after := threadLocalPoolRollback (state.threads t).cache before
      (state.setThread t ⟨after.1, (state.threads t).inited, .failed start⟩).beginReturn t after.2
    | _ => state
  | .rollback t =>
    match (state.threads t).phase with
    | .failed start =>
      let after := threadLocalPoolRollback (state.threads t).cache start
      (state.setThread t ⟨after.1, (state.threads t).inited, .idle⟩).beginReturn t after.2
    | _ => state
  | .endFetch t capacity | .lowerCapacity t capacity =>
    state.setThread t ⟨{ (state.threads t).cache with capacity := capacity }, (state.threads t).inited, .idle⟩
  | .startReturn t threshold =>
    let after := startReturn (state.threads t).cache t threshold
    { state.setThread t ((state.threads t).withCache after.1) with returning := after.2 }
  | .returnBatch =>
    match state.returning with
    | some returning =>
      let after := returnBatch (state.global, state.expansion) returning.batch
      { state with global := after.1, expansion := after.2, returning := some returning.pop }
    | none => state
  | .endReturn =>
    match state.returning with
    | some returning =>
      let thread := state.threads returning.thread
      let cnt := if returning.cleared then thread.cache.cnt else thread.cache.cnt - returning.returned
      { state.setThread returning.thread (thread.withCache { thread.cache with cnt := cnt }) with returning := none }
    | none => state
  | .releaseThreadCache t =>
    -- the head is left as it is; nothing reads it before the cache is set up again
    let head := (state.threads t).cache.head
    (state.setThread t { (state.threads t) with inited := false }).beginReturn t (if head = [] then none else some head)
  | .expand slotId buffer =>
    let slot := slotWithDataInit config state.expansion.slotList.length slotId buffer
    { state with
      expansion := state.expansion.push slot
      memory := update state.memory slotId (slot.freeBlockList.map Buf.block) }
  | .shrink slotId => { state with expansion := asyncShrink state.expansion slotId }

/-! ## When they are taken -/

/-- The thread runs, and is not inside a return. -/
structure ClassState.Runs (state : ClassState) (t : Nat) : Prop where
  known : t < state.threadCount
  inited : (state.threads t).inited
  free : ∀ returning ∈ state.returning, returning.thread ≠ t

/-- The control flow of the threads, the mutex, the callers who free what they have been
given, and `memalign` and the generator of slot ids, who give out what is not in use. -/
def ClassState.Allowed (state : ClassState) : ClassAction → Prop
  | .getThreadCache t => t < state.threadCount ∧ (state.threads t).inited = false ∧
      ∀ returning ∈ state.returning, returning.thread ≠ t
  | .alloc t _ | .startFetch t _ | .lowerCapacity t _ => state.Runs t ∧ (state.threads t).phase = .idle
  | .free t batch => state.Runs t ∧ (state.threads t).phase = .idle ∧ (batch.map Buf.block).Subperm state.caller
  | .fetchFromGlobal t => state.Runs t ∧ state.returning = none ∧
      ∃ needed fetched start, (state.threads t).phase = .fetching needed fetched start ∧ fetched < needed
  | .fetchFromExpansion t => state.Runs t ∧
      ∃ needed fetched start count before, (state.threads t).phase = .taking needed fetched start count before ∧
        count < config.batchCnt
  | .endTake t => state.Runs t ∧
      ∃ needed fetched start count before, (state.threads t).phase = .taking needed fetched start count before ∧
        0 < count
  | .failTake t => state.Runs t ∧
      ∃ needed fetched start before, (state.threads t).phase = .taking needed fetched start 0 before ∧
        ((threadLocalPoolRollback (state.threads t).cache before).2.isSome → state.returning = none)
  | .rollback t => state.Runs t ∧ ∃ start, (state.threads t).phase = .failed start ∧
      ((threadLocalPoolRollback (state.threads t).cache start).2.isSome → state.returning = none)
  | .endFetch t _ => state.Runs t ∧
      ∃ needed fetched start, (state.threads t).phase = .fetching needed fetched start ∧ needed ≤ fetched
  | .startReturn t _ => state.Runs t ∧ (state.threads t).phase = .idle ∧ state.returning = none
  | .releaseThreadCache t => state.Runs t ∧ (state.threads t).phase = .idle ∧
      ((state.threads t).cache.head ≠ [] → state.returning = none)
  | .returnBatch => ∃ returning ∈ state.returning, returning.rest ≠ []
  | .endReturn => ∃ returning ∈ state.returning, returning.rest = []
  | .expand slotId buffer => slotId < qbufPoolExpSlotTableSize ∧ slotId ∉ state.expansion.slotList.map Slot.slotId ∧
      ∀ block ∈ state.blocks, block.addr < buffer ∨
        buffer + slotTotalSize config state.expansion.slotList.length ≤ block.addr
  | .shrink slotId => slotId ∈ state.expansion.shrinkTasks

/-! ## All size classes -/

abbrev System := Nat → ClassState

def System.step (configs : Nat → ClassConfig) (system : System) (action : Nat × ClassAction) : System :=
  update system action.1 ((system action.1).step (configs action.1) action.2)

/-- A new slot's memory and id are not in use by any class. -/
def System.Allowed (configs : Nat → ClassConfig) (system : System) (action : Nat × ClassAction) : Prop :=
  (system action.1).Allowed (configs action.1) action.2 ∧
    match action.2 with
    | .expand slotId buffer => ∀ sc, slotId ∉ (system sc).expansion.slotList.map Slot.slotId ∧
        ∀ block ∈ (system sc).blocks, block.addr < buffer ∨
          buffer + slotTotalSize (configs action.1) (system action.1).expansion.slotList.length ≤ block.addr
    | _ => True

end UbsComm.Qbuf
