import UbsComm.Qbuf.Pool
import Mathlib.Algebra.BigOperators.Group.Finset.Basic

/-! # No block is lost or doubled

The blocks of a class are counted over all the places they can be in.  Every step moves
some of them and keeps the sum; an expansion brings in new ones, and a slot that is taken
out has all of its own in its free list. -/

namespace UbsComm.Qbuf

open Library List Function

/-! ## Where the blocks are -/

/-- The blocks in the cache of a thread.  A cache that is not set up holds nothing. -/
def Thread.held (thread : Thread) : List Block := if thread.inited then thread.cache.head.map Buf.block else []

/-- The blocks on their way back under the mutex. -/
def pending : Option Returning → List Block
  | none => []
  | some returning => returning.rest.map Buf.block

def pooled (global : BufList) (expansion : ExpansionPool) : List Block := (poolsBufs (global, expansion)).map Buf.block

variable (state : ClassState)

/-- How often the block is found outside the caches. -/
def ClassState.elsewhere (block : Block) : Nat :=
  (pending state.returning).count block + (pooled state.global state.expansion).count block + state.caller.count block

def ClassState.count (block : Block) : Nat :=
  ∑ t ∈ Finset.range state.threadCount, (state.threads t).held.count block + state.elsewhere block

/-- How far the counter of a thread's cache is ahead of its list. -/
def due (t : Nat) : Option Returning → Nat
  | none => 0
  | some returning =>
    if returning.thread = t ∧ ¬ returning.cleared then returning.returned + returning.rest.length else 0

/-- The list has been fetched in front of the one that was saved. -/
def Saved.Under (saved : Saved) (head : List Buf) : Prop :=
  saved.cnt = saved.head.length ∧ ∃ fetched, head = fetched ++ saved.head

def Phase.Valid (head : List Buf) : Phase → Prop
  | .idle => True
  | .fetching _ _ start | .failed start => start.Under head
  | .taking _ _ start count before => start.Under head ∧ before.cnt = before.head.length ∧
      ∃ got, head = got ++ before.head ∧ got.length = count

structure ClassState.ThreadValid (t : Nat) : Prop where
  counted : (state.threads t).inited →
    (state.threads t).cache.cnt = (state.threads t).cache.head.length + due t state.returning
  phase : (state.threads t).phase.Valid (state.threads t).cache.head

/-- What of a slot never changes. -/
def Slot.shape (slot : Slot) : Nat × Nat := (slot.slotId, slot.totalBlockCnt)

structure ClassState.Valid : Prop where
  pools : PoolsValid umqQbufDefaultMempoolId (state.global, state.expansion)
  mainHomed : ∀ block ∈ state.main, block.mempoolId = umqQbufDefaultMempoolId
  memoryRouted : ∀ slot ∈ state.expansion.slotList, ∀ block ∈ state.memory slot.slotId, block.mempoolId = slot.mempoolId
  totals : ∀ slot ∈ state.expansion.slotList, slot.totalBlockCnt = (state.memory slot.slotId).length
  distinct : (state.blocks.map Block.addr).Nodup
  conserved : ∀ block, state.count block = state.blocks.count block
  threads : ∀ t, state.ThreadValid t
  returning : ∀ returning ∈ state.returning, returning.thread < state.threadCount

variable {config : ClassConfig} {state after : ClassState} {t : Nat} {block : Block}

/-! ## The slots keep their shape -/

variable {action : ClassAction} {slot : Slot} {start before : Saved} {current : Returning} {slots one two : List Slot}
  {phase : Phase} {expansion : ExpansionPool} {slotId buffer : Nat}

theorem map_modifySlot {α : Type*} {f : Slot → α} {slotId : Nat} {change : Slot → Slot}
    (keeps : ∀ slot, f (change slot) = f slot) : (modifySlot slotId change slots).map f = slots.map f := by
  induction slots with
  | nil => rfl
  | cons slot slots ih =>
    rw [modifySlot]
    split
    · simp [keeps]
    · simp [ih]

theorem returnBatch_shapes (pools : BufList × ExpansionPool) (batch : List Buf) :
    (returnBatch pools batch).2.slotList.map Slot.shape = pools.2.slotList.map Slot.shape := by
  cases batch with
  | nil => rfl
  | cons first rest =>
    rw [returnBatch]
    split
    · simp only [returnBatchToExpansionPool]
      split
      · rfl
      · split
        · rfl
        · exact map_modifySlot fun _ => rfl
    · rfl

theorem map_slotId_of_shapes (shapes : one.map Slot.shape = two.map Slot.shape) :
    one.map Slot.slotId = two.map Slot.slotId := by
  have firsts := congrArg (map Prod.fst) shapes
  rwa [map_map, map_map] at firsts

theorem forall_of_shapes (shapes : one.map Slot.shape = two.map Slot.shape) {p : Nat × Nat → Prop}
    (all : ∀ slot ∈ two, p slot.shape) : ∀ slot ∈ one, p slot.shape := by
  have mapped : ∀ shape ∈ two.map Slot.shape, p shape := forall_mem_map.mpr all
  rw [← shapes] at mapped
  exact forall_mem_map.mp mapped

section Shapes

variable (main : after.main = state.main) (memory : after.memory = state.memory)
  (shapes : after.expansion.slotList.map Slot.shape = state.expansion.slotList.map Slot.shape)
include main memory shapes

theorem blocks_of_shapes : after.blocks = state.blocks := by
  have ids := congrArg (flatMap state.memory) (map_slotId_of_shapes shapes)
  rw [flatMap_map, flatMap_map] at ids
  rw [ClassState.blocks, main, memory, ids, ClassState.blocks]

/-- A step that keeps the shapes has to keep the counts, and to leave the pools and the threads valid. -/
theorem valid_of_shapes (valid : state.Valid)
    (pools : PoolsValid umqQbufDefaultMempoolId (after.global, after.expansion))
    (counts : ∀ block, after.count block = state.count block) (threads : ∀ t, after.ThreadValid t)
    (returning : ∀ returning ∈ after.returning, returning.thread < after.threadCount) : after.Valid := by
  have same := blocks_of_shapes main memory shapes
  refine ⟨pools, ?_, ?_, ?_, ?_, ?_, threads, returning⟩
  · rw [main]
    exact valid.mainHomed
  · rw [memory]
    exact forall_of_shapes shapes (p := fun shape => ∀ block ∈ state.memory shape.1,
      block.mempoolId = shape.1 + qbufPoolExpSlotIdMin) valid.memoryRouted
  · rw [memory]
    exact forall_of_shapes shapes (p := fun shape => shape.2 = (state.memory shape.1).length) valid.totals
  · rw [same]
    exact valid.distinct
  · intro block
    rw [same, counts, valid.conserved]

end Shapes

/-! ## A move of one thread -/

/-- The thread `t` has moved blocks between its cache and the rest of the class. -/
structure Moves (t : Nat) (state after : ClassState) : Prop where
  known : t < state.threadCount
  threadCount : after.threadCount = state.threadCount
  main : after.main = state.main
  memory : after.memory = state.memory
  shapes : after.expansion.slotList.map Slot.shape = state.expansion.slotList.map Slot.shape
  pools : PoolsValid umqQbufDefaultMempoolId (after.global, after.expansion)
  others : ∀ other ≠ t, after.threads other = state.threads other
  dueOthers : ∀ other ≠ t, due other after.returning = due other state.returning
  balance : ∀ block, (after.threads t).held.count block + after.elsewhere block =
    (state.threads t).held.count block + state.elsewhere block
  thread : after.ThreadValid t
  returning : ∀ returning ∈ after.returning, returning.thread < state.threadCount

theorem Moves.blocks (moves : Moves t state after) : after.blocks = state.blocks :=
  blocks_of_shapes moves.main moves.memory moves.shapes

theorem count_eq_of_known (known : t < state.threadCount) (block : Block) :
    state.count block = (state.threads t).held.count block +
      ∑ other ∈ (Finset.range state.threadCount).erase t, (state.threads other).held.count block +
        state.elsewhere block := by
  rw [ClassState.count, ← Finset.add_sum_erase _ _ (Finset.mem_range.mpr known)]

theorem Moves.valid (moves : Moves t state after) (valid : state.Valid) : after.Valid := by
  refine valid_of_shapes moves.main moves.memory moves.shapes valid moves.pools ?_ ?_ ?_
  · intro block
    have known : t < after.threadCount := by
      rw [moves.threadCount]
      exact moves.known
    rw [count_eq_of_known moves.known, count_eq_of_known known, moves.threadCount]
    have others : ∑ other ∈ (Finset.range state.threadCount).erase t, (after.threads other).held.count block =
        ∑ other ∈ (Finset.range state.threadCount).erase t, (state.threads other).held.count block :=
      Finset.sum_congr rfl fun other mem => by rw [moves.others other (Finset.ne_of_mem_erase mem)]
    have := moves.balance block
    omega
  · intro other
    by_cases same : other = t
    · rw [same]
      exact moves.thread
    · have before := valid.threads other
      constructor
      · rw [moves.others other same, moves.dueOthers other same]
        exact before.counted
      · rw [moves.others other same]
        exact before.phase
  · rw [moves.threadCount]
    exact moves.returning

/-! ## The thread that moves -/

theorem due_eq_zero (free : ∀ returning ∈ state.returning, returning.thread ≠ t) : due t state.returning = 0 := by
  cases same : state.returning with
  | none => rfl
  | some returning => exact if_neg fun own => free returning same own.1

theorem ClassState.Runs.counted (runs : state.Runs t) (valid : state.Valid) :
    (state.threads t).cache.cnt = (state.threads t).cache.head.length := by
  rw [(valid.threads t).counted runs.inited, due_eq_zero runs.free, Nat.add_zero]

theorem ClassState.Valid.phaseValid (valid : state.Valid) (same : (state.threads t).phase = phase) :
    phase.Valid (state.threads t).cache.head := same ▸ (valid.threads t).phase

section Step

variable {thread : Thread} {global : BufList} {expansion : ExpansionPool} {returning : Option Returning}
  {caller : List Block} {cache : Cache}

/-- A move is known by what it does to the thread and to the pools. -/
theorem moves_of (known : t < state.threadCount)
    (shapes : expansion.slotList.map Slot.shape = state.expansion.slotList.map Slot.shape)
    (pools : PoolsValid umqQbufDefaultMempoolId (global, expansion))
    (dueOthers : ∀ other ≠ t, due other returning = due other state.returning)
    (balance : ∀ block, thread.held.count block + ((pending returning).count block +
      (pooled global expansion).count block + caller.count block) =
        (state.threads t).held.count block + state.elsewhere block)
    (counted : thread.inited → thread.cache.cnt = thread.cache.head.length + due t returning)
    (phase : thread.phase.Valid thread.cache.head)
    (returningKnown : ∀ current ∈ returning, current.thread < state.threadCount) :
    Moves t state ⟨state.threadCount, update state.threads t thread, global, expansion, returning, caller,
      state.main, state.memory⟩ where
  known := known
  threadCount := rfl
  main := rfl
  memory := rfl
  shapes := shapes
  pools := pools
  others _ ne := update_of_ne ne ..
  dueOthers := dueOthers
  balance block := by
    simp only [update_self]
    exact balance block
  thread := by
    constructor
    · simp only [update_self]
      exact counted
    · simp only [update_self]
      exact phase
  returning := returningKnown

/-- A move that leaves the blocks where they are. -/
theorem moves_local (valid : state.Valid) (known : t < state.threadCount) (held : thread.held = (state.threads t).held)
    (counted : thread.inited → thread.cache.cnt = thread.cache.head.length + due t state.returning)
    (phase : thread.phase.Valid thread.cache.head) : Moves t state (state.setThread t thread) := by
  apply moves_of known rfl valid.pools (fun _ _ => rfl) _ counted phase valid.returning
  intro block
  rw [held]
  rfl

/-- A move between the cache and the caller. -/
theorem moves_caller (valid : state.Valid) (runs : state.Runs t) (counted : cache.cnt = cache.head.length)
    (balance : ∀ block, (cache.head.map Buf.block).count block + caller.count block =
      ((state.threads t).cache.head.map Buf.block).count block + state.caller.count block)
    (idle : (state.threads t).phase = .idle) :
    Moves t state { state.setThread t ((state.threads t).withCache cache) with caller := caller } := by
  apply moves_of runs.known rfl valid.pools (fun _ _ => rfl) _ _ _ valid.returning
  · intro block
    have moved := balance block
    simp only [Thread.held, Thread.withCache, runs.inited, if_true, ClassState.elsewhere]
    omega
  · intro _
    rw [due_eq_zero runs.free]
    exact counted
  · simp only [Thread.withCache, idle]
    trivial

/-! ### Allocating and freeing -/

theorem allocData_spec (counted : cache.cnt = cache.head.length) (n : Nat) :
    cache.head = (allocData cache n).2 ++ (allocData cache n).1.head ∧
      (allocData cache n).1.cnt = (allocData cache n).1.head.length := by
  have front : ∃ count, (if n = 0 then cache.head else cache.head.take n) = cache.head.take count ∧
      (cache.head.take count = [] → cache.head = []) := by
    split
    · exact ⟨cache.head.length, take_length.symm, by rw [take_length]; exact id⟩
    · rename_i pos
      exact ⟨n, rfl, fun none => (take_eq_nil_iff.mp none).resolve_left pos⟩
  obtain ⟨count, taken, allTaken⟩ := front
  simp only [allocData, taken]
  split
  · rename_i none
    exact ⟨rfl, by rw [allTaken none]; rfl⟩
  · constructor
    · have rest : cache.head.drop (min count cache.head.length) = cache.head.drop count := by
        rw [drop_eq_drop_iff]
        omega
      simp [rest]
    · simp [counted]

section

variable (valid : state.Valid)
include valid

theorem alloc_moves (runs : state.Runs t) (idle : (state.threads t).phase = .idle) {n : Nat} :
    Moves t state (state.step config (.alloc t n)) := by
  obtain ⟨taken, counted⟩ := allocData_spec (runs.counted valid) n
  apply moves_caller valid runs counted _ idle
  intro block
  rw [taken, map_append, count_append, count_append]
  omega

theorem free_moves (runs : state.Runs t) (idle : (state.threads t).phase = .idle) {batch : List Buf}
    (live : (batch.map Buf.block).Subperm state.caller) : Moves t state (state.step config (.free t batch)) := by
  apply moves_caller valid runs _ _ idle
  · rw [length_append, runs.counted valid, Nat.add_comm]
  · intro block
    have available := live.count_le block
    rw [map_append, count_append, count_diff]
    omega

/-! ### Setting up, and the ends of a fetch -/

theorem getThreadCache_moves (known : t < state.threadCount) (fresh : (state.threads t).inited = false)
    (free : ∀ returning ∈ state.returning, returning.thread ≠ t) :
    Moves t state (state.step config (.getThreadCache t)) := by
  refine moves_local valid known ?_ ?_ trivial
  · rw [Thread.held, Thread.held, fresh]
    rfl
  · intro _
    rw [due_eq_zero free]
    rfl

theorem phase_moves (runs : state.Runs t) (capacity : Nat) (phaseValid : phase.Valid (state.threads t).cache.head) :
    Moves t state
      (state.setThread t ⟨{ (state.threads t).cache with capacity := capacity }, (state.threads t).inited, phase⟩) :=
  moves_local valid runs.known rfl (valid.threads t).counted phaseValid

theorem startFetch_moves (runs : state.Runs t) {needed : Nat} :
    Moves t state (state.step config (.startFetch t needed)) :=
  phase_moves valid runs _ ⟨runs.counted valid, [], rfl⟩

theorem endTake_moves (runs : state.Runs t) {needed fetched count : Nat}
    (taking : (state.threads t).phase = .taking needed fetched start count before) :
    Moves t state (state.step config (.endTake t)) := by
  simp only [ClassState.step, taking]
  exact phase_moves valid runs _ (valid.phaseValid taking).1

end

/-! ### Fetching -/

variable {saved start : Saved} {needed fetched : Nat}

theorem Saved.Under.append {head : List Buf} (under : saved.Under head) {batch : List Buf} :
    saved.Under (batch ++ head) := by
  obtain ⟨counted, fetched, rfl⟩ := under
  exact ⟨counted, batch ++ fetched, (append_assoc ..).symm⟩

theorem takeGlobal_moves (valid : state.Valid) (runs : state.Runs t) (n : Nat)
    (phaseValid : ∀ batch, (allocateBatch state.global n (state.threads t).cache).2.2 = batch.length →
      phase.Valid (batch ++ (state.threads t).cache.head)) :
    Moves t state { state.setThread t
      ⟨(allocateBatch state.global n (state.threads t).cache).2.1, (state.threads t).inited, phase⟩ with
      global := (allocateBatch state.global n (state.threads t).cache).1 } := by
  have split := (take_append_drop n state.global.head).symm
  have phaseAfter := phaseValid (state.global.head.take n) rfl
  dsimp only [allocateBatch]
  generalize state.global.head.take n = batch, state.global.head.drop n = left at split phaseAfter ⊢
  apply moves_of runs.known rfl _ (fun _ _ => rfl) _ _ _ valid.returning
  · constructor
    · rw [valid.pools.counted, split, length_append]
      exact Nat.add_sub_cancel_left ..
    · intro buf mem
      apply valid.pools.homed
      rw [split]
      exact mem_append_right _ mem
    · exact valid.pools.expansion
  · intro block
    have poolSplit : pooled state.global state.expansion = batch.map Buf.block ++
        pooled ⟨left, state.global.cnt - batch.length⟩ state.expansion := by
      simp only [pooled, poolsBufs, split, map_append, append_assoc]
    simp only [Thread.held, runs.inited, if_true, ClassState.elsewhere, poolSplit, map_append, count_append]
    show _ + (_ + _ + state.caller.count block) = _
    omega
  · intro _
    rw [due_eq_zero runs.free, runs.counted valid, length_append, Nat.add_comm, Nat.add_zero]
  · exact phaseAfter

theorem fetchFromGlobal_moves (valid : state.Valid) (runs : state.Runs t)
    (fetching : (state.threads t).phase = .fetching needed fetched start) :
    Moves t state (state.step config (.fetchFromGlobal t)) := by
  have under : start.Under (state.threads t).cache.head := valid.phaseValid fetching
  simp only [ClassState.step, fetching, fetchFromGlobal]
  split
  · apply takeGlobal_moves valid runs
    intro batch taken
    split
    · exact under.append
    · exact under.append
  · split
    · exact phase_moves valid runs _ trivial
    · split
      · apply takeGlobal_moves valid runs
        intro batch taken
        exact ⟨under.append, runs.counted valid, batch, rfl, taken.symm⟩
      · exact phase_moves valid runs _ ⟨under, runs.counted valid, [], rfl, rfl⟩

/-- What the loop over the slots has done: `got` was taken from their lists. -/
structure SlotsGive (slots : List Slot) (got : List Buf) (after : List Slot) : Prop where
  shapes : after.map Slot.shape = slots.map Slot.shape
  valid : ∀ slot ∈ after, slot.Valid
  total : (after.map Slot.freeBlockCnt).sum + got.length = (slots.map Slot.freeBlockCnt).sum
  perm : (got ++ after.flatMap Slot.freeBlockList).Perm (slots.flatMap Slot.freeBlockList)

theorem SlotsGive.cons {slots after : List Slot} {got : List Buf} (valid : slot.Valid) {takeCnt : Nat}
    (few : takeCnt ≤ slot.freeBlockCnt) (rest : SlotsGive slots got after) :
    SlotsGive (slot :: slots) (got ++ slot.freeBlockList.take takeCnt)
      ({ slot with freeBlockList := slot.freeBlockList.drop takeCnt, freeBlockCnt := slot.freeBlockCnt - takeCnt } ::
        after) where
  shapes := by
    rw [map_cons, rest.shapes]
    rfl
  valid := by
    refine forall_mem_cons.mpr ⟨⟨valid.small, ?_, ?_⟩, rest.valid⟩
    · intro buf mem
      exact valid.routed buf (mem_of_mem_drop mem)
    · rw [length_drop, valid.counted]
  total := by
    have := rest.total
    have counted := valid.counted
    simp only [map_cons, sum_cons, length_append, length_take]
    omega
  perm := by
    rw [perm_iff_count]
    intro buf
    have moved := rest.perm.count_eq buf
    have cut := congrArg (count buf) (take_append_drop takeCnt slot.freeBlockList)
    simp only [flatMap_cons, count_append] at moved cut ⊢
    omega

theorem fetchFromSlots_spec (valid : ∀ slot ∈ slots, slot.Valid) (request : Nat) (head : List Buf) :
    ∃ got, (fetchFromSlots slots request head).2.1 = got ++ head ∧
      (fetchFromSlots slots request head).2.2 = got.length ∧
      SlotsGive slots got (fetchFromSlots slots request head).1 := by
  induction slots generalizing request head with
  | nil => exact ⟨[], rfl, rfl, rfl, forall_mem_nil _, rfl, .refl _⟩
  | cons slot slots ih =>
    rw [fetchFromSlots]
    split
    · exact ⟨[], rfl, rfl, rfl, valid, rfl, .refl _⟩
    · rw [forall_mem_cons] at valid
      have few : min request slot.freeBlockCnt ≤ slot.freeBlockCnt := Nat.min_le_right ..
      -- the counter is right, so the list is never shorter than what is taken
      have length : (slot.freeBlockList.take (min request slot.freeBlockCnt)).length =
          min request slot.freeBlockCnt := by
        rw [length_take, ← valid.1.counted, Nat.min_eq_left few]
      obtain ⟨got, headAfter, countAfter, gives⟩ := ih valid.2
        (request - min request slot.freeBlockCnt) (slot.freeBlockList.take (min request slot.freeBlockCnt) ++ head)
      refine ⟨got ++ slot.freeBlockList.take (min request slot.freeBlockCnt), ?_, ?_, ?_⟩
      · simp only [length, headAfter, append_assoc]
      · simp only [length, countAfter, length_append, Nat.add_comm]
      · simp only [length, Nat.lt_irrefl]
        exact gives.cons valid.1 few

theorem fetchFromExpansion_moves (valid : state.Valid) (runs : state.Runs t) {needed fetched count : Nat}
    (taking : (state.threads t).phase = .taking needed fetched start count before) :
    Moves t state (state.step config (.fetchFromExpansion t)) := by
  obtain ⟨under, counted, earlier, grown, earlierLength⟩ := valid.phaseValid taking
  obtain ⟨got, headAfter, countAfter, gives⟩ := fetchFromSlots_spec valid.pools.expansion.slots
    (config.batchCnt - count) (state.threads t).cache.head
  simp only [ClassState.step, taking, fetchFromExpansionPools]
  generalize fetchFromSlots state.expansion.slotList (config.batchCnt - count) (state.threads t).cache.head = after at *
  apply moves_of runs.known gives.shapes _ (fun _ _ => rfl) _ _ _ valid.returning
  · refine ⟨valid.pools.counted, valid.pools.homed, ?_, gives.valid, ?_⟩
    · rw [map_slotId_of_shapes gives.shapes]
      exact valid.pools.expansion.distinct
    · have total := gives.total
      have before : state.expansion.expTotalBlockNum = _ := valid.pools.expansion.total
      show state.expansion.expTotalBlockNum - after.2.2 = (after.1.map Slot.freeBlockCnt).sum
      omega
  · intro block
    have moved := (gives.perm.map Buf.block).count_eq block
    simp only [Thread.held, runs.inited, if_true, ClassState.elsewhere, pooled, poolsBufs, ExpansionPool.bufs,
      headAfter, ClassState.setThread, map_append, count_append] at moved ⊢
    omega
  · intro _
    rw [due_eq_zero runs.free, headAfter, countAfter, runs.counted valid, length_append, Nat.add_comm, Nat.add_zero]
  · rw [headAfter]
    refine ⟨under.append, counted, got ++ earlier, ?_, ?_⟩
    · rw [grown, append_assoc]
    · rw [length_append, earlierLength, countAfter, Nat.add_comm]

/-! ### Returning -/

/-- A part of the cache starts on its way back. -/
theorem beginReturn_moves (valid : state.Valid) (runs : state.Runs t) (unlocked : state.returning = none)
    {list : List Buf}
    {cleared : Bool}
    (balance : ∀ block, thread.held.count block + (list.map Buf.block).count block = (state.threads t).held.count block)
    (counted : thread.inited → thread.cache.cnt = thread.cache.head.length + if cleared then 0 else list.length)
    (phase : thread.phase.Valid thread.cache.head) :
    Moves t state { state.setThread t thread with returning := some ⟨t, list, 0, cleared⟩ } := by
  refine moves_of runs.known rfl valid.pools ?_ ?_ ?_ phase ?_
  · intro other ne
    rw [unlocked]
    exact if_neg fun own => ne own.1.symm
  · intro block
    have moved := balance block
    simp only [ClassState.elsewhere, unlocked, pending, ClassState.setThread, count_nil]
    omega
  · intro inited
    rw [counted inited]
    cases cleared <;> simp [due]
  · rintro _ ⟨⟩
    exact runs.known

/-- A rollback brings the list back to the one that was saved. -/
theorem threadLocalPoolRollback_spec (counted : cache.cnt = cache.head.length) (under : saved.Under cache.head) :
    threadLocalPoolRollback cache saved = (cache, none) ∧ cache.head = saved.head ∨
      ∃ fetched, cache.head = fetched ++ saved.head ∧
        threadLocalPoolRollback cache saved = ({ cache with head := saved.head }, some fetched) := by
  obtain ⟨savedCounted, fetched, grown⟩ := under
  have length : cache.cnt = fetched.length + saved.cnt := by
    rw [counted, grown, length_append, savedCounted]
  rw [threadLocalPoolRollback]
  split
  · rename_i nothing
    have none : fetched = [] := length_eq_zero_iff.mp (by omega)
    left
    exact ⟨rfl, by rw [grown, none]; rfl⟩
  · rename_i something
    have nonempty : cache.head ≠ [] := by
      intro empty
      rw [counted, empty] at something
      exact something (Nat.zero_le _)
    right
    refine ⟨fetched, grown, ?_⟩
    rw [if_neg nonempty, length, Nat.add_sub_cancel, grown, take_left']
    rfl

section

variable (valid : state.Valid)
include valid

section

variable (runs : state.Runs t)
include runs

theorem rollback_moves_of (under : saved.Under (state.threads t).cache.head) (phaseValid : phase.Valid saved.head)
    (unlocked : (threadLocalPoolRollback (state.threads t).cache saved).2.isSome → state.returning = none) :
    Moves t state ((state.setThread t
      ⟨(threadLocalPoolRollback (state.threads t).cache saved).1, (state.threads t).inited, phase⟩).beginReturn
      t (threadLocalPoolRollback (state.threads t).cache saved).2) := by
  rcases threadLocalPoolRollback_spec (runs.counted valid) under with ⟨unchanged, same⟩ | ⟨fetched, grown, rolledBack⟩
  · rw [unchanged]
    rw [← same] at phaseValid
    exact phase_moves valid runs _ phaseValid
  · rw [rolledBack] at unlocked ⊢
    refine beginReturn_moves valid runs (unlocked rfl) ?_ ?_ phaseValid
    · intro block
      simp only [Thread.held, runs.inited, if_true, grown, map_append, count_append]
      omega
    · intro _
      show (state.threads t).cache.cnt = saved.head.length + fetched.length
      rw [runs.counted valid, grown, length_append, Nat.add_comm]

theorem failTake_moves (taking : (state.threads t).phase = .taking needed fetched start 0 before)
    (unlocked : (threadLocalPoolRollback (state.threads t).cache before).2.isSome → state.returning = none) :
    Moves t state (state.step config (.failTake t)) := by
  obtain ⟨under, counted, got, grown, gotNothing⟩ := valid.phaseValid taking
  have none : got = [] := length_eq_zero_iff.mp gotNothing
  simp only [ClassState.step, taking]
  apply rollback_moves_of valid runs ⟨counted, got, grown⟩ _ unlocked
  rw [grown, none] at under
  exact under

theorem rollback_moves (failed : (state.threads t).phase = .failed start)
    (unlocked : (threadLocalPoolRollback (state.threads t).cache start).2.isSome → state.returning = none) :
    Moves t state (state.step config (.rollback t)) := by
  simp only [ClassState.step, failed]
  exact rollback_moves_of valid runs (valid.phaseValid failed) trivial unlocked

theorem startReturn_moves (idle : (state.threads t).phase = .idle)
    (unlocked : state.returning = none) {threshold : Nat} :
    Moves t state (state.step config (.startReturn t threshold)) := by
  have idleValid : ∀ head, (state.threads t).phase.Valid head := by
    rw [idle]
    exact fun _ => trivial
  simp only [ClassState.step, startReturn, Thread.withCache]
  split
  · refine beginReturn_moves valid runs unlocked ?_ (fun _ => rfl) (idleValid _)
    intro block
    simp only [Thread.held, runs.inited, if_true, map_nil, count_nil, Nat.zero_add]
  · split
    · rename_i above
      refine beginReturn_moves valid runs unlocked ?_ ?_ (idleValid _)
      · intro block
        have cut := congrArg (fun list => (list.map Buf.block).count block)
          (take_append_drop threshold (state.threads t).cache.head)
        simp only [map_append, count_append] at cut
        simp only [Thread.held, runs.inited]
        exact cut
      · intro _
        simp only [runs.counted valid, length_take, length_drop, Bool.false_eq_true, if_false]
        omega
    · -- the mutex is taken and let go
      have moves := phase_moves valid runs (state.threads t).cache.capacity (idleValid _)
      rw [← unlocked]
      exact moves

theorem releaseThreadCache_moves (idle : (state.threads t).phase = .idle)
    (unlocked : (state.threads t).cache.head ≠ [] → state.returning = none) :
    Moves t state (state.step config (.releaseThreadCache t)) := by
  have idleValid : (state.threads t).phase.Valid (state.threads t).cache.head := by
    rw [idle]
    trivial
  simp only [ClassState.step]
  split
  · rename_i empty
    refine moves_local valid runs.known ?_ (fun inited => ?_) idleValid
    · simp only [Thread.held, runs.inited, empty]
      rfl
    · cases inited
  · rename_i nonempty
    refine beginReturn_moves valid runs (unlocked nonempty) ?_ (fun inited => ?_) idleValid
    · intro block
      simp only [Thread.held, runs.inited, if_true, Bool.false_eq_true, if_false, count_nil, Nat.zero_add]
    · cases inited

end

theorem belongs_of_count_pos {buf : Buf} (found : 0 < state.count buf.block) :
    Belongs umqQbufDefaultMempoolId state.expansion buf := by
  rw [valid.conserved, count_pos_iff] at found
  rcases mem_append.mp found with inMain | inSlot
  · exact .inl (valid.mainHomed _ inMain)
  · obtain ⟨slot, mem, inMemory⟩ := mem_flatMap.mp inSlot
    exact .inr ⟨slot, mem, (valid.memoryRouted slot mem _ inMemory).symm⟩

end

/-- The next batch is the front of the list, of one pool. -/
theorem Returning.batch_spec (more : current.rest ≠ []) :
    current.rest = current.batch ++ current.pop.rest ∧ current.batch ≠ [] ∧
      ∃ mempoolId, ∀ buf ∈ current.batch, buf.mempoolId = mempoolId := by
  rw [Returning.pop]
  cases same : current.rest with
  | nil => exact absurd same more
  | cons first rest =>
    have batch : current.batch = (first :: rest).takeWhile (·.mempoolId = first.mempoolId) := by
      rw [Returning.batch]
      simp only [same]
    have whole :=
      @takeWhile_append_dropWhile _ (fun buf : Buf => decide (buf.mempoolId = first.mempoolId)) (first :: rest)
    refine ⟨?_, ?_, first.mempoolId, ?_⟩
    · have tail := congrArg (drop current.batch.length) whole
      rw [batch, drop_left] at tail
      rw [batch, ← tail]
      exact whole.symm
    · rw [batch, takeWhile_cons_of_pos (by simp)]
      exact cons_ne_nil _ _
    · intro buf mem
      rw [batch] at mem
      exact of_decide_eq_true (all_eq_true.mp all_takeWhile buf mem)

theorem returnBatch_moves (valid : state.Valid) (locked : state.returning = some current)
    (more : current.rest ≠ []) : Moves current.thread state (state.step config .returnBatch) := by
  obtain ⟨split, nonempty, mempoolId, same⟩ := Returning.batch_spec more
  have belongs : ∀ buf ∈ current.batch, Belongs umqQbufDefaultMempoolId state.expansion buf := by
    intro buf mem
    apply belongs_of_count_pos valid
    have inRest : buf.block ∈ pending state.returning := by
      rw [locked, pending, split]
      exact mem_map_of_mem (mem_append_left _ mem)
    have counted := count_pos_iff.mpr inRest
    simp only [ClassState.count, ClassState.elsewhere]
    omega
  have returned := returnBatch_returned (.inl rfl) valid.pools nonempty same belongs
  have shapes := returnBatch_shapes (state.global, state.expansion) current.batch
  have length := congrArg length split
  rw [length_append] at length
  have dues : ∀ t, due t (some current.pop) = due t state.returning := by
    intro t
    have sum : current.pop.returned + current.pop.rest.length = current.returned + current.rest.length := by
      rw [length]
      exact Nat.add_assoc ..
    show (if current.thread = t ∧ ¬ current.cleared then current.pop.returned + current.pop.rest.length else 0) = _
    rw [sum, locked]
    rfl
  simp only [ClassState.step, locked]
  generalize returnBatch (state.global, state.expansion) current.batch = after at *
  obtain ⟨global, expansion⟩ := after
  have known := valid.returning current locked
  -- no thread changes
  rw [← update_eq_self current.thread state.threads]
  refine moves_of known shapes returned.valid (fun other _ => dues other) ?_ ?_ (valid.threads current.thread).phase ?_
  · intro block
    have moved := (returned.perm.map Buf.block).count_eq block
    have inRest := congrArg (fun list => (list.map Buf.block).count block) split
    simp only [ClassState.elsewhere, locked, pending, pooled, map_append, count_append] at moved inRest ⊢
    omega
  · rw [dues]
    exact (valid.threads current.thread).counted
  · rintro _ ⟨⟩
    exact known

theorem endReturn_moves (valid : state.Valid) (locked : state.returning = some current)
    (done : current.rest = []) : Moves current.thread state (state.step config .endReturn) := by
  have counted := (valid.threads current.thread).counted
  rw [locked, due, done] at counted
  simp only [ClassState.step, locked, Thread.withCache]
  refine moves_of (valid.returning current locked) rfl valid.pools ?_ ?_ ?_ (valid.threads current.thread).phase
    (fun _ mem => by cases mem)
  · intro other ne
    rw [locked]
    exact (if_neg fun own => ne own.1.symm).symm
  · intro block
    simp only [ClassState.elsewhere, locked, pending, done, ClassState.setThread, Thread.held, map_nil]
  · intro inited
    have before := counted inited
    cases cleared : current.cleared with
    | true => simpa [cleared, due] using before
    | false =>
      simp only [cleared, due] at before ⊢
      simp only [Bool.false_eq_true, not_false_eq_true, and_self, if_true, if_false, length_nil] at before ⊢
      omega

end Step

/-! ## Expanding -/

theorem flatMap_memory_update {memory : Nat → List Block} {slotId : Nat} (fresh : slotId ∉ slots.map Slot.slotId)
    (new : List Block) :
    slots.flatMap (fun slot => update memory slotId new slot.slotId) = slots.flatMap
      fun slot => memory slot.slotId := by
  have same : ∀ slot ∈ slots, update memory slotId new slot.slotId = memory slot.slotId := by
    intro slot mem
    apply update_of_ne
    intro equal
    rw [← equal] at fresh
    exact fresh (mem_map_of_mem mem)
  exact flatMap_congr same

theorem ExpansionPool.Valid.push (valid : expansion.Valid)
    (fresh : slot.slotId ∉ expansion.slotList.map Slot.slotId) (slotValid : slot.Valid)
    (full : slot.totalBlockCnt = slot.freeBlockCnt) : (expansion.push slot).Valid where
  distinct := by
    rw [ExpansionPool.push, map_append, nodup_append]
    refine ⟨valid.distinct, nodup_singleton _, ?_⟩
    rintro id old _ new rfl
    rw [map_singleton, mem_singleton] at new
    rw [new] at old
    exact fresh old
  slots := by
    exact forall_mem_append.mpr ⟨valid.slots, forall_mem_singleton.mpr slotValid⟩
  total := by
    rw [ExpansionPool.push, map_append, sum_append, valid.total, full]
    rfl

theorem expand_blocks (allowed : state.Allowed config (.expand slotId buffer)) :
    (state.step config (.expand slotId buffer)).blocks = state.blocks ++
      (slotWithDataInit config state.expansion.slotList.length slotId buffer).freeBlockList.map Buf.block := by
  have sameId : (slotWithDataInit config state.expansion.slotList.length slotId buffer).slotId = slotId := rfl
  simp only [ClassState.step, ClassState.blocks, ExpansionPool.push, flatMap_append, flatMap_singleton,
    flatMap_memory_update allowed.2.1, sameId, update_self, append_assoc]

theorem expand_valid (configValid : config.Valid) (valid : state.Valid)
    (allowed : state.Allowed config (.expand slotId buffer)) : (state.step config (.expand slotId buffer)).Valid := by
  have blocksAfter := expand_blocks allowed
  obtain ⟨small, fresh, apart⟩ := allowed
  obtain ⟨length, placed⟩ := slotWithDataInit_placed configValid state.expansion.slotList.length slotId buffer
  simp only [ClassState.step] at blocksAfter ⊢
  generalize slotEq : slotWithDataInit config state.expansion.slotList.length slotId buffer = slot at *
  obtain rfl : slot.slotId = slotId := slotEq ▸ rfl
  have full : slot.totalBlockCnt = slot.freeBlockCnt := slotEq ▸ rfl
  have counted : slot.freeBlockCnt = slot.freeBlockList.length := length ▸ slotEq ▸ rfl
  have others : ∀ old ∈ state.expansion.slotList, old.slotId ≠ slot.slotId :=
    fun old mem => ne_of_mem_of_not_mem (mem_map_of_mem mem) fresh
  constructor
  · exact ⟨valid.pools.counted, valid.pools.homed,
      ExpansionPool.Valid.push valid.pools.expansion fresh ⟨small, placed.routed, counted⟩ full⟩
  · exact valid.mainHomed
  · simp only [ExpansionPool.push, forall_mem_append, forall_mem_singleton]
    constructor
    · intro old mem
      rw [update_of_ne (others old mem)]
      exact valid.memoryRouted old mem
    · simp only [update_self, forall_mem_map]
      exact placed.routed
  · simp only [ExpansionPool.push, forall_mem_append, forall_mem_singleton]
    constructor
    · intro old mem
      rw [update_of_ne (others old mem)]
      exact valid.totals old mem
    · rw [update_self, length_map, full, counted]
  · rw [blocksAfter, map_append, nodup_append]
    refine ⟨valid.distinct, ?_, ?_⟩
    · rw [map_map]
      exact placed.distinct
    · rintro _ old _ new rfl
      obtain ⟨block, known, rfl⟩ := mem_map.mp old
      rw [map_map] at new
      obtain ⟨buf, mem, same⟩ := mem_map.mp new
      have same : buf.addr = block.addr := same
      have := placed.low buf mem
      have := placed.high buf mem
      rcases apart block known with below | above <;> omega
  · intro block
    have before := valid.conserved block
    rw [blocksAfter, count_append, ← before]
    simp only [ClassState.count, ClassState.elsewhere, pooled, poolsBufs, ExpansionPool.bufs, ExpansionPool.push,
      flatMap_append, flatMap_singleton, map_append, count_append]
    omega
  · exact fun t => ⟨(valid.threads t).counted, (valid.threads t).phase⟩
  · exact valid.returning

/-! ## Shrinking -/

theorem blocks_nodup (valid : state.Valid) : state.blocks.Nodup := valid.distinct.of_map

/-- A slot whose counter says so has all its blocks in its own list. -/
theorem freeBlockList_perm_memory (valid : state.Valid) (mem : slot ∈ state.expansion.slotList)
    (full : slot.freeBlockCnt = slot.totalBlockCnt) :
    (slot.freeBlockList.map Buf.block).Perm (state.memory slot.slotId) := by
  have slotValid := valid.pools.expansion.slots slot mem
  have counted : ∀ block, (slot.freeBlockList.map Buf.block).count block ≤ state.blocks.count block := by
    intro block
    obtain ⟨before, after, split⟩ := append_of_mem mem
    rw [← valid.conserved]
    simp only [ClassState.count, ClassState.elsewhere, pooled, poolsBufs, ExpansionPool.bufs, split, flatMap_append,
      flatMap_cons, map_append, count_append]
    omega
  have nodup : (slot.freeBlockList.map Buf.block).Nodup :=
    nodup_iff_count_le_one.mpr fun block =>
      Nat.le_trans (counted block) (nodup_iff_count_le_one.mp (blocks_nodup valid) block)
  have inside : slot.freeBlockList.map Buf.block ⊆ state.memory slot.slotId := by
    intro block found
    have mempool : block.mempoolId = slot.mempoolId := by
      obtain ⟨buf, inList, rfl⟩ := mem_map.mp found
      exact slotValid.routed buf inList
    have known := count_pos_iff.mp (Nat.lt_of_lt_of_le (count_pos_iff.mpr found) (counted block))
    rcases mem_append.mp known with inMain | inSlot
    · have home := valid.mainHomed block inMain
      rw [mempool] at home
      cases home
    · obtain ⟨other, otherListed, inMemory⟩ := mem_flatMap.mp inSlot
      have same : other.slotId = slot.slotId := by
        have routed := valid.memoryRouted other otherListed block inMemory
        rw [mempool] at routed
        exact Nat.add_right_cancel routed.symm
      rwa [same] at inMemory
  apply (subperm_of_subset nodup inside).perm_of_length_le
  rw [length_map, ← slotValid.counted, full, valid.totals slot mem]

/-- What of a slot counts for the blocks. -/
def Slot.content (slot : Slot) : (Nat × Nat) × List Buf × Nat := (slot.shape, slot.freeBlockList, slot.freeBlockCnt)

theorem asyncShrink_cases (expansion : ExpansionPool) (slotId : Nat) :
    ((asyncShrink expansion slotId).slotList.map Slot.content = expansion.slotList.map Slot.content ∧
      (asyncShrink expansion slotId).expTotalBlockNum = expansion.expTotalBlockNum) ∨
    ∃ slot before after, expansion.slotList = before ++ slot :: after ∧ slot.slotId = slotId ∧
      slot.freeBlockCnt = slot.totalBlockCnt ∧ (asyncShrink expansion slotId).slotList = before ++ after ∧
      (asyncShrink expansion slotId).expTotalBlockNum = expansion.expTotalBlockNum - slot.totalBlockCnt := by
  simp only [asyncShrink]
  split
  · exact .inl ⟨rfl, rfl⟩
  · split
    · exact .inl ⟨rfl, rfl⟩
    · rename_i slot found
      split
      · exact .inl ⟨map_modifySlot fun _ => rfl, rfl⟩
      · rename_i full
        obtain ⟨same, before, after, split, none⟩ := find?_eq_some_iff_append.mp found
        right
        refine ⟨slot, before, after, split, of_decide_eq_true same, not_not.mp full, ?_, rfl⟩
        rw [split, eraseP_append_right _ fun other mem => by simpa using none other mem]
        simp [same]

theorem contents_valid {expansion after : ExpansionPool} (valid : expansion.Valid)
    (contents : after.slotList.map Slot.content = expansion.slotList.map Slot.content)
    (total : after.expTotalBlockNum = expansion.expTotalBlockNum) :
    after.slotList.map Slot.shape = expansion.slotList.map Slot.shape ∧ after.bufs = expansion.bufs ∧ after.Valid := by
  have mapped : ∀ {α : Type} (f : (Nat × Nat) × List Buf × Nat → α),
      after.slotList.map (f ∘ Slot.content) = expansion.slotList.map (f ∘ Slot.content) := by
    intro α f
    rw [← map_map, ← map_map, contents]
  have shapes := mapped fun content => content.1
  refine ⟨shapes, ?_, ?_, ?_, ?_⟩
  · have lists := congrArg flatten (mapped fun content => content.2.1)
    exact lists
  · rw [map_slotId_of_shapes shapes]
    exact valid.distinct
  · -- whether a slot is valid is told by its content
    have all : ∀ content ∈ expansion.slotList.map Slot.content, content.1.1 < qbufPoolExpSlotTableSize ∧
        (∀ buf ∈ content.2.1, buf.mempoolId = content.1.1 + qbufPoolExpSlotIdMin) ∧ content.2.2 = content.2.1.length :=
      forall_mem_map.mpr fun slot mem =>
        ⟨(valid.slots slot mem).small, (valid.slots slot mem).routed, (valid.slots slot mem).counted⟩
    rw [← contents] at all
    intro slot mem
    obtain ⟨small, routed, counted⟩ := forall_mem_map.mp all slot mem
    exact ⟨small, routed, counted⟩
  · rw [total, valid.total]
    exact congrArg sum (mapped fun content => content.2.2).symm

section

variable (valid : state.Valid)
include valid

theorem removeSlot_valid {front back : List Slot}
    (split : state.expansion.slotList = front ++ slot :: back) (full : slot.freeBlockCnt = slot.totalBlockCnt)
    (left : expansion.slotList = front ++ back)
    (total : expansion.expTotalBlockNum = state.expansion.expTotalBlockNum - slot.totalBlockCnt) :
    ClassState.Valid { state with expansion := expansion } := by
  have own := freeBlockList_perm_memory valid (split ▸ mem_append_right _ mem_cons_self) full
  have part : expansion.slotList.Sublist state.expansion.slotList := by
    rw [left, split]
    exact (sublist_cons_self slot back).append_left front
  have kept : (ClassState.blocks { state with expansion := expansion }).Sublist state.blocks :=
    (part.flatMap _).append_left _
  constructor
  · refine ⟨valid.pools.counted, valid.pools.homed, ?_,
      fun other mem => valid.pools.expansion.slots other (part.mem mem), ?_⟩
    · exact (part.map _).nodup valid.pools.expansion.distinct
    · have before : state.expansion.expTotalBlockNum = (state.expansion.slotList.map Slot.freeBlockCnt).sum :=
        valid.pools.expansion.total
      simp only [split, map_append, map_cons, sum_append, sum_cons] at before
      simp only [left, map_append, sum_append]
      omega
  · exact valid.mainHomed
  · exact fun other mem => valid.memoryRouted other (part.mem mem)
  · exact fun other mem => valid.totals other (part.mem mem)
  · exact (kept.map _).nodup valid.distinct
  · intro block
    have before := valid.conserved block
    have gone := own.count_eq block
    simp only [ClassState.count, ClassState.elsewhere, ClassState.blocks, pooled, poolsBufs, ExpansionPool.bufs, split,
      left, flatMap_append, flatMap_cons, map_append, count_append] at before ⊢
    omega
  · exact fun t => ⟨(valid.threads t).counted, (valid.threads t).phase⟩
  · exact valid.returning

theorem shrink_blocks {slotId : Nat} : (state.step config (.shrink slotId)).blocks.Sublist state.blocks := by
  rw [ClassState.step]
  rcases asyncShrink_cases state.expansion slotId with ⟨contents, total⟩ |
    ⟨slot, front, back, split, same, full, left, total⟩
  · have same : ClassState.blocks { state with expansion := asyncShrink state.expansion slotId } = state.blocks :=
      blocks_of_shapes rfl rfl (contents_valid valid.pools.expansion contents total).1
    rw [same]
  · simp only [ClassState.blocks, split, left]
    exact (((sublist_cons_self slot back).append_left front).flatMap _).append_left _

theorem shrink_valid {slotId : Nat} : (state.step config (.shrink slotId)).Valid := by
  rcases asyncShrink_cases state.expansion slotId with
    ⟨contents, total⟩ | ⟨slot, front, back, split, same, full, left, total⟩
  · obtain ⟨shapes, bufs, expansionValid⟩ := contents_valid valid.pools.expansion contents total
    refine @valid_of_shapes state { state with expansion := _ } rfl rfl shapes valid
      ⟨valid.pools.counted, valid.pools.homed, expansionValid⟩ ?_
      (fun t => ⟨(valid.threads t).counted, (valid.threads t).phase⟩) valid.returning
    intro block
    simp only [ClassState.count, ClassState.elsewhere, pooled, poolsBufs, bufs]
  · exact removeSlot_valid valid split full left total

/-! ## All steps -/

/-- Every step but an expansion and a shrink is a move of one thread. -/
theorem step_cases (allowed : state.Allowed config action) :
    (∃ t, Moves t state (state.step config action)) ∨ (∃ slotId buffer, action = .expand slotId buffer) ∨
      ∃ slotId, action = .shrink slotId := by
  cases action with
  | getThreadCache t => exact .inl ⟨t, getThreadCache_moves valid allowed.1 allowed.2.1 allowed.2.2⟩
  | alloc t n => exact .inl ⟨t, alloc_moves valid allowed.1 allowed.2⟩
  | free t batch => exact .inl ⟨t, free_moves valid allowed.1 allowed.2.1 allowed.2.2⟩
  | startFetch t needed => exact .inl ⟨t, startFetch_moves valid allowed.1⟩
  | fetchFromGlobal t =>
    obtain ⟨runs, -, needed, fetched, start, fetching, -⟩ := allowed
    exact .inl ⟨t, fetchFromGlobal_moves valid runs fetching⟩
  | fetchFromExpansion t =>
    obtain ⟨runs, needed, fetched, start, count, before, taking, -⟩ := allowed
    exact .inl ⟨t, fetchFromExpansion_moves valid runs taking⟩
  | endTake t =>
    obtain ⟨runs, needed, fetched, start, count, before, taking, -⟩ := allowed
    exact .inl ⟨t, endTake_moves valid runs taking⟩
  | failTake t =>
    obtain ⟨runs, needed, fetched, start, before, taking, unlocked⟩ := allowed
    exact .inl ⟨t, failTake_moves valid runs taking unlocked⟩
  | rollback t =>
    obtain ⟨runs, start, failed, unlocked⟩ := allowed
    exact .inl ⟨t, rollback_moves valid runs failed unlocked⟩
  | endFetch t capacity | lowerCapacity t capacity =>
    exact .inl ⟨t, phase_moves valid allowed.1 capacity (show Phase.Valid _ .idle from trivial)⟩
  | startReturn t threshold => exact .inl ⟨t, startReturn_moves valid allowed.1 allowed.2.1 allowed.2.2⟩
  | returnBatch =>
    obtain ⟨returning, locked, more⟩ := allowed
    exact .inl ⟨returning.thread, returnBatch_moves valid locked more⟩
  | endReturn =>
    obtain ⟨returning, locked, done⟩ := allowed
    exact .inl ⟨returning.thread, endReturn_moves valid locked done⟩
  | releaseThreadCache t => exact .inl ⟨t, releaseThreadCache_moves valid allowed.1 allowed.2.1 allowed.2.2⟩
  | expand slotId buffer => exact .inr (.inl ⟨slotId, buffer, rfl⟩)
  | shrink slotId => exact .inr (.inr ⟨slotId, rfl⟩)

end

section

variable (allowed : state.Allowed config action)
include allowed

theorem ClassState.Valid.step (configValid : config.Valid) (valid : state.Valid) :
    (state.step config action).Valid := by
  rcases step_cases valid allowed with ⟨t, moves⟩ | ⟨slotId, buffer, rfl⟩ | ⟨slotId, rfl⟩
  · exact moves.valid valid
  · exact expand_valid configValid valid allowed
  · exact shrink_valid valid

/-- The blocks after a step: the old ones, or some of them, or those of a new slot too. -/
theorem step_blocks (configValid : config.Valid) (valid : state.Valid) {block : Block}
    (known : block ∈ (state.step config action).blocks) :
    block ∈ state.blocks ∨ ∃ slotId buffer, action = .expand slotId buffer ∧ buffer ≤ block.addr ∧
      block.addr < buffer + slotTotalSize config state.expansion.slotList.length := by
  rcases step_cases valid allowed with ⟨t, moves⟩ | ⟨slotId, buffer, rfl⟩ | ⟨slotId, rfl⟩
  · left
    rwa [moves.blocks] at known
  · rw [expand_blocks allowed, mem_append] at known
    rcases known with old | new
    · exact .inl old
    · right
      obtain ⟨buf, mem, rfl⟩ := mem_map.mp new
      have placed := (slotWithDataInit_placed configValid state.expansion.slotList.length slotId buffer).2
      exact ⟨slotId, buffer, rfl, placed.low buf mem, placed.high buf mem⟩
  · left
    exact (shrink_blocks valid).mem known

/-- A slot that a step takes out has all its blocks in its own list. -/
theorem step_removed (valid : state.Valid) (mem : slot ∈ state.expansion.slotList)
    (gone : slot.slotId ∉ (state.step config action).expansion.slotList.map Slot.slotId) :
    (slot.freeBlockList.map Buf.block).Perm (state.memory slot.slotId) := by
  rcases step_cases valid allowed with ⟨t, moves⟩ | ⟨slotId, buffer, rfl⟩ | ⟨slotId, rfl⟩
  · rw [map_slotId_of_shapes moves.shapes] at gone
    exact absurd (mem_map_of_mem mem) gone
  · simp only [ClassState.step, ExpansionPool.push, map_append] at gone
    exact absurd (mem_append_left _ (mem_map_of_mem mem)) gone
  · rcases asyncShrink_cases state.expansion slotId with ⟨contents, total⟩ |
      ⟨out, front, back, split, same, full, left, total⟩
    · have shapes := (contents_valid valid.pools.expansion contents total).1
      rw [ClassState.step, map_slotId_of_shapes shapes] at gone
      exact absurd (mem_map_of_mem mem) gone
    · rw [ClassState.step, left] at gone
      rw [split, mem_append, mem_cons] at mem
      have isOut : slot = out := by
        rcases mem with inFront | isOut | inBack
        · exact absurd (mem_map_of_mem (mem_append_left _ inFront)) gone
        · exact isOut
        · exact absurd (mem_map_of_mem (mem_append_right _ inBack)) gone
      rw [isOut]
      exact freeBlockList_perm_memory valid (split ▸ mem_append_right _ mem_cons_self) full

end

end UbsComm.Qbuf
