import UbsComm.Qbuf.PoolInvariant
import Mathlib.Algebra.BigOperators.Group.Finset.Piecewise

/-! # Every block is in exactly one place

The count of the blocks read as a statement about places: in every run of every number of
threads each block is in one cache, in the global list, in the free list of one slot or
with a caller. -/

namespace UbsComm.Qbuf

open Library List Function

inductive Place where
  | cache (sc t : Nat)
  | global (sc : Nat)
  | slot (sc slotId : Nat)
  | caller (sc : Nat)

/-- What of the cache of a thread is on its way back. -/
def pendingOf (t : Nat) : Option Returning → List Block
  | none => []
  | some returning => if returning.thread = t then returning.rest.map Buf.block else []

def ClassState.cached (state : ClassState) (t : Nat) : List Block :=
  if t < state.threadCount then (state.threads t).held ++ pendingOf t state.returning else []

def ClassState.slotFree (state : ClassState) (slotId : Nat) : List Block :=
  match state.expansion.slotList.find? (·.slotId = slotId) with
  | none => []
  | some slot => slot.freeBlockList.map Buf.block

def System.blocksAt (system : System) : Place → List Block
  | .cache sc t => (system sc).cached t
  | .global sc => (system sc).global.head.map Buf.block
  | .slot sc slotId => (system sc).slotFree slotId
  | .caller sc => (system sc).caller

def Place.sc : Place → Nat
  | .cache sc _ | .global sc | .slot sc _ | .caller sc => sc

def System.places (system : System) (sc : Nat) : List Place :=
  (range (system sc).threadCount).map (.cache sc) ++ .global sc :: .caller sc ::
    (system sc).expansion.slotList.map fun slot => .slot sc slot.slotId

variable {configs : Nat → ClassConfig} {system : System} {state : ClassState} {sc t : Nat} {block : Block}
  {place : Place}

/-! ## Adding up the places -/

theorem sum_pendingOf (known : ∀ returning ∈ state.returning, returning.thread < state.threadCount) :
    ∑ t ∈ Finset.range state.threadCount, (pendingOf t state.returning).count block =
      (pending state.returning).count block := by
  cases same : state.returning with
  | none => simp [pendingOf, pending]
  | some returning =>
    have only : ∀ t, (pendingOf t (some returning)).count block =
        if returning.thread = t then (returning.rest.map Buf.block).count block else 0 := by
      intro t
      rw [pendingOf]
      split <;> rfl
    simp only [only, Finset.sum_ite_eq, Finset.mem_range, known returning same, if_true, pending]

theorem sum_cached (known : ∀ returning ∈ state.returning, returning.thread < state.threadCount) :
    ((range state.threadCount).map fun t => (state.cached t).count block).sum =
      ∑ t ∈ Finset.range state.threadCount,
        (state.threads t).held.count block + (pending state.returning).count block := by
  have each : ∀ t ∈ Finset.range state.threadCount, (state.cached t).count block =
      (state.threads t).held.count block + (pendingOf t state.returning).count block := by
    intro t mem
    rw [ClassState.cached, if_pos (Finset.mem_range.mp mem), count_append]
  rw [← sum_pendingOf known, ← Finset.sum_add_distrib, ← Finset.sum_congr rfl each]
  rfl

theorem sum_slotFree (valid : state.Valid) :
    (state.expansion.slotList.map fun slot => (state.slotFree slot.slotId).count block).sum =
      (state.expansion.bufs.map Buf.block).count block := by
  have each : state.expansion.slotList.map (fun slot => (state.slotFree slot.slotId).count block) =
      state.expansion.slotList.map fun slot => (slot.freeBlockList.map Buf.block).count block := by
    apply map_congr_left
    intro slot mem
    rw [ClassState.slotFree, ExpansionPool.Valid.find? valid.pools.expansion mem]
  rw [each, ExpansionPool.bufs, map_flatMap, count_flatMap]
  rfl

theorem sum_places (valid : (system sc).Valid) :
    ((system.places sc).map fun place => (system.blocksAt place).count block).sum = (system sc).blocks.count block := by
  have caches := @sum_cached (system sc) block valid.returning
  have slots := @sum_slotFree (system sc) block valid
  rw [← valid.conserved]
  simp only [System.places, map_map, map_cons, sum_append, sum_cons, comp_def, System.blocksAt, ClassState.count,
    ClassState.elsewhere, pooled, poolsBufs, map_append, count_append]
  omega

theorem mem_places (found : block ∈ system.blocksAt place) : place ∈ system.places place.sc := by
  rw [System.places, mem_append, mem_cons, mem_cons]
  cases place with
  | cache sc t =>
    have known : t < (system sc).threadCount := by
      by_contra unknown
      rw [System.blocksAt, ClassState.cached, if_neg unknown] at found
      cases found
    exact .inl (mem_map_of_mem (mem_range.mpr known))
  | global sc => exact .inr (.inl rfl)
  | caller sc => exact .inr (.inr (.inl rfl))
  | slot sc slotId =>
    rw [System.blocksAt, ClassState.slotFree] at found
    split at found
    · cases found
    · rename_i slot same
      have sameId : slot.slotId = slotId := by simpa using find?_some same
      rw [← sameId]
      exact .inr (.inr (.inr (mem_map_of_mem (mem_of_find?_eq_some same))))

/-! ## All classes -/

/-- The pools as `umq_qbuf_pool_init` leaves them, for any number of threads. -/
structure ClassState.Initial (state : ClassState) : Prop where
  threads : ∀ t, (state.threads t).inited = false ∧ (state.threads t).phase = .idle
  counted : state.global.cnt = state.global.head.length
  homed : ∀ buf ∈ state.global.head, buf.mempoolId = umqQbufDefaultMempoolId
  main : state.main = state.global.head.map Buf.block
  distinct : (state.global.head.map Buf.addr).Nodup
  slotList : state.expansion.slotList = []
  expTotalBlockNum : state.expansion.expTotalBlockNum = 0
  returning : state.returning = none
  caller : state.caller = []

def System.Apart (system : System) : Prop :=
  ∀ one two, one ≠ two → ∀ first ∈ (system one).blocks, ∀ second ∈ (system two).blocks, first.addr ≠ second.addr

structure System.Initial (system : System) : Prop where
  classes : ∀ sc, (system sc).Initial
  apart : system.Apart

structure System.Valid (system : System) : Prop where
  classes : ∀ sc, (system sc).Valid
  apart : system.Apart

theorem ClassState.Initial.valid (initial : state.Initial) : state.Valid := by
  have blocks : state.blocks = state.global.head.map Buf.block := by
    rw [ClassState.blocks, initial.slotList, initial.main]
    exact append_nil _
  constructor
  · refine ⟨initial.counted, initial.homed, ?_⟩
    constructor
    · rw [initial.slotList]
      exact nodup_nil
    · rw [initial.slotList]
      exact forall_mem_nil _
    · rw [initial.slotList, initial.expTotalBlockNum]
      rfl
  · rw [initial.main]
    exact forall_mem_map.mpr initial.homed
  · rw [initial.slotList]
    exact forall_mem_nil _
  · rw [initial.slotList]
    exact forall_mem_nil _
  · rw [blocks, map_map]
    exact initial.distinct
  · intro block
    have none : ∀ t, (state.threads t).held = [] := by
      intro t
      rw [Thread.held, (initial.threads t).1]
      rfl
    simp [blocks, ClassState.count, ClassState.elsewhere, none, initial.returning, initial.caller, initial.slotList,
      pending, pooled, poolsBufs, ExpansionPool.bufs]
  · intro t
    constructor
    · intro inited
      rw [(initial.threads t).1] at inited
      cases inited
    · rw [(initial.threads t).2]
      trivial
  · rw [initial.returning]
    rintro _ ⟨⟩

theorem System.Initial.valid (initial : system.Initial) : system.Valid :=
  ⟨fun sc => (initial.classes sc).valid, initial.apart⟩

theorem System.Valid.step (configsValid : ∀ sc, (configs sc).Valid) (valid : system.Valid) {action : Nat × ClassAction}
    (allowed : system.Allowed configs action) : (system.step configs action).Valid := by
  obtain ⟨sc, action⟩ := action
  have stepped := (valid.classes sc).step allowed.1 (configsValid sc)
  -- a block of the class that moved is old, or in memory that no class was using
  have fresh : ∀ other ≠ sc, ∀ first ∈ ((system sc).step (configs sc) action).blocks, ∀ second ∈ (system other).blocks,
      first.addr ≠ second.addr := by
    intro other ne first known second otherKnown same
    rcases step_blocks allowed.1 (configsValid sc) (valid.classes sc) known with old | ⟨slotId, buffer, rfl, low, high⟩
    · exact valid.apart sc other (Ne.symm ne) first old second otherKnown same
    · have free := (allowed.2 other).2 second otherKnown
      dsimp only at free high
      omega
  constructor
  · intro other
    rw [System.step]
    by_cases same : other = sc
    · rw [same, update_self]
      exact stepped
    · rw [update_of_ne same]
      exact valid.classes other
  · intro one two ne
    rw [System.step]
    by_cases first : one = sc
    · have other : two ≠ sc := fun second => ne (first.trans second.symm)
      rw [first, update_self, update_of_ne other]
      exact fresh two other
    · by_cases second : two = sc
      · rw [second, update_self, update_of_ne first]
        exact fun old known new newKnown same => fresh one first new newKnown old known same.symm
      · rw [update_of_ne first, update_of_ne second]
        exact valid.apart one two ne

/-- Every block there is, is in one place and once; the counters are right. -/
structure System.Placed (system : System) : Prop where
  place : ∀ sc, ∀ block ∈ (system sc).blocks, ∃! place, block ∈ system.blocksAt place
  once : ∀ place, ((system.blocksAt place).map Block.addr).Nodup
  known : ∀ place, ∀ block ∈ system.blocksAt place, block ∈ (system place.sc).blocks
  distinct : ∀ sc, ((system sc).blocks.map Block.addr).Nodup
  apart : system.Apart
  cacheCounted : ∀ sc t, (system sc).Runs t →
    ((system sc).threads t).cache.cnt = ((system sc).threads t).cache.head.length
  globalCounted : ∀ sc, (system sc).global.cnt = (system sc).global.head.length
  slotCounted : ∀ sc, ∀ slot ∈ (system sc).expansion.slotList, slot.freeBlockCnt = slot.freeBlockList.length
  totalCounted : ∀ sc, (system sc).expansion.expTotalBlockNum = (system sc).expansion.bufs.length

theorem count_blocksAt_le (valid : (system place.sc).Valid) :
    (system.blocksAt place).count block ≤ (system place.sc).blocks.count block := by
  by_cases found : block ∈ system.blocksAt place
  · rw [← sum_places valid]
    exact single_le_sum (fun _ _ => Nat.zero_le _) _ (mem_map_of_mem (mem_places found))
  · rw [count_eq_zero_of_not_mem found]
    exact Nat.zero_le _

theorem mem_blocks_of_mem_blocksAt (valid : (system place.sc).Valid) (found : block ∈ system.blocksAt place) :
    block ∈ (system place.sc).blocks :=
  count_pos_iff.mp (Nat.lt_of_lt_of_le (count_pos_iff.mpr found) (count_blocksAt_le valid))

theorem System.Valid.placed (valid : system.Valid) : system.Placed where
  place := by
    intro sc block known
    have one : ((system.places sc).map fun place => (system.blocksAt place).count block).sum = 1 := by
      rw [sum_places (valid.classes sc)]
      exact count_eq_one_of_mem (blocks_nodup (valid.classes sc)) known
    obtain ⟨place, -, isOne, unique⟩ := exists_of_sum_map_eq_one one
    refine ⟨place, count_pos_iff.mp (isOne ▸ Nat.one_pos), ?_⟩
    intro other found
    -- another place is one of the same class, since classes do not share blocks
    have same : other.sc = sc := by
      by_contra ne
      exact valid.apart _ _ ne block (mem_blocks_of_mem_blocksAt (valid.classes _) found) block known rfl
    have mem := mem_places found
    rw [same] at mem
    exact unique other mem (Nat.ne_of_gt (count_pos_iff.mpr found))
  once := by
    intro place
    obtain ⟨mem, same, part⟩ : (system.blocksAt place).Subperm (system place.sc).blocks :=
      subperm_iff_count.mpr fun block => count_blocksAt_le (valid.classes _)
    exact (same.map Block.addr).nodup_iff.mp ((part.map Block.addr).nodup (valid.classes _).distinct)
  known place block found := mem_blocks_of_mem_blocksAt (valid.classes _) found
  distinct sc := (valid.classes sc).distinct
  apart := valid.apart
  cacheCounted sc t runs := runs.counted (valid.classes sc)
  globalCounted sc := (valid.classes sc).pools.counted
  slotCounted sc slot mem := ((valid.classes sc).pools.expansion.slots slot mem).counted
  totalCounted := by
    intro sc
    have total : (system sc).expansion.expTotalBlockNum = _ := (valid.classes sc).pools.expansion.total
    rw [total, ExpansionPool.bufs, length_flatMap]
    congr 1
    exact map_congr_left fun slot mem => ((valid.classes sc).pools.expansion.slots slot mem).counted

/-- In every state that any number of threads can reach, every block is in exactly one
place and the counters are right, and a slot that a step from there removes has all its
blocks in its own list. -/
theorem blocks_in_one_place (configsValid : ∀ sc, (configs sc).Valid) {start finish : System} (initial : start.Initial)
    (run : Run (System.step configs) (System.Allowed configs) start finish) :
    finish.Placed ∧ ∀ action, finish.Allowed configs action → ∀ sc, ∀ slot ∈ (finish sc).expansion.slotList,
      slot.slotId ∉ ((finish.step configs action) sc).expansion.slotList.map Slot.slotId →
        (slot.freeBlockList.map Buf.block).Perm ((finish sc).memory slot.slotId) := by
  have valid : finish.Valid := run.invariant initial.valid fun _ _ before allowed => before.step configsValid allowed
  refine ⟨valid.placed, ?_⟩
  rintro ⟨moved, action⟩ allowed sc slot mem gone
  by_cases same : sc = moved
  · rw [System.step, same, update_self] at gone
    rw [same] at mem ⊢
    exact step_removed allowed.1 (valid.classes moved) mem gone
  · rw [System.step, update_of_ne same] at gone
    exact absurd (mem_map_of_mem mem) gone

/-! ### Two threads and one expansion -/

def sampleConfigs : Nat → ClassConfig := fun _ => ⟨.split, 1048576, 1048576, 2, false⟩

def sampleBlock (addr : Nat) : Buf :=
  { addr := addr, mempoolId := 0, mempoolWithoutData := false, bufSize := 1048704, dataSize := 1048576
    totalDataSize := 1048576, headroomSize := 0, firstFragment := false, bufData := 0, rxFallback := false }

/-- The first class has three blocks, the others none. -/
def sampleSystem : System := fun sc =>
  let head := if sc = 0 then [sampleBlock 128, sampleBlock 256, sampleBlock 384] else []
  { threadCount := 2
    threads := fun _ => ⟨⟨⟨[], 0⟩, 0⟩, false, .idle⟩
    global := ⟨head, head.length⟩
    expansion := ⟨[], 0, 1, [], false⟩
    returning := none
    caller := []
    main := head.map Buf.block
    memory := fun _ => [] }

/-- Thread 0 fetches two blocks and allocates one, a slot is added, and the thread gives
the other block back. -/
def sampleRun : List (Nat × ClassAction) :=
  [(0, .getThreadCache 0), (0, .startFetch 0 1), (0, .fetchFromGlobal 0), (0, .endFetch 0 2), (0, .alloc 0 1),
    (0, .expand 5 4194304), (0, .startReturn 0 0), (0, .returnBatch), (0, .endReturn)]

theorem sampleSystem_initial : sampleSystem.Initial := by
  have blocks : ∀ sc, sc ≠ 0 → (sampleSystem sc).blocks = [] := by
    intro sc ne
    simp [ClassState.blocks, sampleSystem, ne]
  constructor
  · intro sc
    constructor
    · exact fun _ => ⟨rfl, rfl⟩
    · rfl
    · by_cases zero : sc = 0 <;> simp [sampleSystem, zero, sampleBlock, umqQbufDefaultMempoolId]
    · rfl
    · by_cases zero : sc = 0 <;> simp [sampleSystem, zero, sampleBlock]
    · rfl
    · rfl
    · rfl
    · rfl
  · intro one two ne first known second otherKnown
    by_cases zero : one = 0
    · rw [blocks two fun same => ne (zero.trans same.symm)] at otherKnown
      cases otherKnown
    · rw [blocks one zero] at known
      cases known

theorem sampleRun_allowed :
    AllAllowed (System.step sampleConfigs) (System.Allowed sampleConfigs) sampleSystem sampleRun := by
  have unlocked : ∀ returning : Returning, returning ∈ (none : Option Returning) → returning.thread ≠ 0 := by
    rintro _ ⟨⟩
  refine ⟨⟨⟨by decide, rfl, unlocked⟩, trivial⟩, ⟨⟨⟨by decide, rfl, unlocked⟩, rfl⟩, trivial⟩,
    ⟨⟨⟨by decide, rfl, unlocked⟩, rfl, 2, 0, ⟨[], 0⟩, rfl, by decide⟩, trivial⟩,
    ⟨⟨⟨by decide, rfl, unlocked⟩, 2, 2, ⟨[], 0⟩, rfl, by decide⟩, trivial⟩,
    ⟨⟨⟨by decide, rfl, unlocked⟩, rfl⟩, trivial⟩,
    ⟨⟨by decide, by decide, by decide⟩, ?_⟩,
    ⟨⟨⟨by decide, rfl, unlocked⟩, rfl, rfl⟩, trivial⟩,
    ⟨⟨_, rfl, cons_ne_nil _ _⟩, trivial⟩, ⟨⟨_, rfl, rfl⟩, trivial⟩, trivial⟩
  intro sc
  by_cases zero : sc = 0
  · subst zero
    exact ⟨by decide, by decide⟩
  · simp [System.step, sampleSystem, ClassState.blocks, zero]

theorem sampleConfigs_valid : (sampleConfigs 0).Valid := ⟨by decide, by decide⟩

/-- The three blocks and the one of the slot are each in one place. -/
theorem blocks_in_one_place_sample : (sampleRun.foldl (System.step sampleConfigs) sampleSystem).Placed :=
  (blocks_in_one_place (fun _ => sampleConfigs_valid) sampleSystem_initial (.ofList sampleRun_allowed)).1

end UbsComm.Qbuf
