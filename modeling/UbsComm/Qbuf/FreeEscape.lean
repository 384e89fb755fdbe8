import UbsComm.Qbuf.FreeExact
import Mathlib.Data.List.Pairwise

/-! # Which escape buffers of a chain are freed

Of each run of escape buffers only the first is freed, and that one by its data size and
its data pointer, which its user may have changed. -/

namespace UbsComm.Qbuf

open Library List Function

variable {config : PoolConfig} {origin : Buf → Origin} {pools before : Pools} {run chain heads : List Buf}
  {sc start bucket : Nat} {buf : Buf} {state : EscapeState} {sizes : List Nat} {node : EscapeNode}

/-! ## The head of each run -/

theorem freeSorted_escape : (freeSorted config pools run).escape = pools.escape := by
  unfold freeSorted
  rw [foldl_releaseClass nodup_range]
  split <;> rfl

theorem umqTinyQbufFree_escape : (umqTinyQbufFree config pools run).escape = pools.escape := by
  unfold umqTinyQbufFree
  simp only
  split <;> rfl

/-- The escape buffers that begin a run. -/
def escapeHeads (origin : Buf → Origin) (chain : List Buf) : List Buf :=
  (runStarts runKey chain).filter fun buf => (origin buf).escapeStart.isSome

theorem umqInvalidHandleBufFree_escape (configValid : config.Valid) {pools : Pools} {first : Buf} {rest : List Buf}
    (key : runKey first = (origin first).key) (live : LiveAs config before first (origin first)) :
    (umqInvalidHandleBufFree config pools (first :: rest)).escape =
      ([first].filter fun buf => (origin buf).escapeStart.isSome).foldl
        (escapeFree config.blockSizes) pools.escape := by
  rw [umqInvalidHandleBufFree_eq configValid key live]
  cases same : origin first <;>
    simp [Origin.key, Origin.escapeStart, same, freeSorted_escape, umqTinyQbufFree_escape, freeWithoutData]

theorem umqBufFree_escape (configValid : config.Valid) (valid : ListsValid pools)
    (live : ∀ buf ∈ chain, LiveAs config pools buf (origin buf)) :
    (umqBufFree config pools chain).escape =
      (escapeHeads origin chain).foldl (escapeFree config.blockSizes) pools.escape := by
  rw [umqBufFree, if_pos configValid.umqInited]
  apply visitRuns_induction (motive := fun seen (current : Pools) =>
    current.escape = (escapeHeads origin seen).foldl (escapeFree config.blockSizes) pools.escape)
  · intro seen batch batchKey current isRun inside soFar
    obtain ⟨first, rest, rfl⟩ := exists_cons_of_ne_nil isRun.nonempty
    have firstLive := live first (inside first mem_cons_self)
    rw [umqInvalidHandleBufFree_escape configValid (firstLive.runKey_eq valid) firstLive, soFar,
      ← foldl_append, escapeHeads, escapeHeads, isRun.runStarts_append, filter_append]
    rfl
  · rfl

/-! ## What freeing the heads leaves -/

theorem foldl_escapeFree_heap :
    (heads.foldl (escapeFree sizes) state).heap = state.heap.filter fun block => ∀ head ∈ heads,
      block.start ≠ head.bufData := by
  induction heads generalizing state with
  | nil => simp
  | cons head rest ih =>
    rw [foldl_cons, ih, escapeFree, heapFree, filter_filter]
    apply filter_congr
    intro block mem
    simp [Bool.and_comm]

theorem foldl_escapeFree_bufCnt {sc : Nat} :
    (heads.foldl (escapeFree sizes) state).bufCnt sc = state.bufCnt sc -
      heads.countP fun head => blkSizeToSc sizes head.dataSize = sc ∧ sc < umqQbufSizeClassMax := by
  induction heads generalizing state with
  | nil => simp
  | cons head rest ih =>
    rw [foldl_cons, ih, countP_cons, escapeFree]
    by_cases same : blkSizeToSc sizes head.dataSize = sc
    · by_cases small : sc < umqQbufSizeClassMax
      · simp only [same, small, update_self, and_self, decide_true, if_true]
        omega
      · simp only [same, small, and_false, decide_false, Bool.false_eq_true, if_false, Nat.add_zero]
    · simp only [same, false_and, decide_false, Bool.false_eq_true, if_false, Nat.add_zero]
      split
      · rw [update_of_ne (Ne.symm same)]
      · rfl

/-- A node that is gone was taken out for the buffer it stands for, from its own class. -/
theorem exists_head_of_removed (present : node ∈ state.registry sc bucket)
    (removed : node ∉ (heads.foldl (escapeFree sizes) state).registry sc bucket) :
    ∃ head ∈ heads, head.addr = node.qbuf ∧ blkSizeToSc sizes head.dataSize = sc := by
  induction heads generalizing state with
  | nil => exact absurd present removed
  | cons head rest ih =>
    by_cases kept : node ∈ (escapeFree sizes state head).registry sc bucket
    · obtain ⟨later, mem, found⟩ := ih kept removed
      exact ⟨later, mem_cons_of_mem _ mem, found⟩
    · refine ⟨head, mem_cons_self, ?_⟩
      simp only [escapeFree, escapeRegistryRemove] at kept
      split at kept
      · exact absurd present kept
      · by_cases sameClass : sc = blkSizeToSc sizes head.dataSize
        · refine ⟨?_, sameClass.symm⟩
          subst sameClass
          rw [update_self] at kept
          by_cases sameBucket : bucket = escapeBufHash head.bufData
          · subst sameBucket
            rw [update_self] at kept
            by_contra other
            exact kept ((mem_eraseP_of_neg (by simpa using fun same => other same.symm)).mpr present)
          · rw [update_of_ne sameBucket] at kept
            exact absurd present kept
        · rw [update_of_ne sameClass] at kept
          exact absurd present kept

/-! ## Live escape buffers in a valid state -/

theorem EscapeState.Valid.block_unique (valid : state.Valid sizes) {one two : HeapBlock} (oneListed : one ∈ state.heap)
    (twoListed : two ∈ state.heap) (overlap : one.start < two.start + two.size)
    (overlap' : two.start < one.start + one.size) :
    one = two := by
  by_contra ne
  rcases valid.apart.forall oneListed twoListed ne with before | behind <;> omega

/-- A registered node for a live buffer is in the class and the bucket of the buffer. -/
theorem LiveEscape.node_unique (valid : state.Valid config.blockSizes) (distinct : config.blockSizes.Nodup)
    (live : LiveEscape config state sc start buf) {other : Nat}
    (mem : node ∈ state.registry other bucket) (same : node.qbuf = buf.addr) :
    other = sc ∧ bucket = escapeBufHash start := by
  obtain ⟨blkSize, found, address, -, -, inHeap, -⟩ := live.block
  obtain ⟨inBucket, nodeAddress, nodeSize, nodeInHeap⟩ := valid.filed other bucket node mem
  have sameBlock := valid.block_unique inHeap nodeInHeap (by simp only [sizeofUmqBuf]; omega)
    (by simp only [sizeofUmqBuf]; omega)
  simp only [HeapBlock.mk.injEq, Nat.add_right_cancel_iff] at sameBlock
  rw [← sameBlock.2] at nodeSize
  refine ⟨?_, by rw [inBucket, ← sameBlock.1]⟩
  obtain ⟨inside, at'⟩ := List.getElem?_eq_some_iff.mp nodeSize
  obtain ⟨inside', at''⟩ := List.getElem?_eq_some_iff.mp found
  exact (List.Nodup.getElem_inj_iff distinct).mp (at'.trans at''.symm)

/-- A data pointer into the block of a live buffer is the pointer of that buffer. -/
theorem LiveEscape.addr_eq_of_bufData (valid : state.Valid config.blockSizes) {other otherStart : Nat} {head : Buf}
    (live : LiveEscape config state sc start buf) (headLive : LiveEscape config state other otherStart head)
    (pointer : head.bufData = start) : head.addr = buf.addr := by
  obtain ⟨blkSize, -, address, -, -, inHeap, -⟩ := live.block
  obtain ⟨headSize, -, headAddress, low, high, headInHeap, -⟩ := headLive.block
  have sameBlock := valid.block_unique inHeap headInHeap (by simp only [sizeofUmqBuf]; omega)
    (by simp only [sizeofUmqBuf]; omega)
  simp only [HeapBlock.mk.injEq] at sameBlock
  omega

/-- The header still says what `umq_qbuf_alloc_escape` wrote. -/
def Intact (config : PoolConfig) (sc start : Nat) (buf : Buf) : Prop :=
  config.blockSizes[sc]? = some buf.dataSize ∧ buf.bufData = start

/-- Freeing an intact buffer takes its node out of the registry, wherever one looks. -/
theorem escapeRegistryRemove_intact (configValid : config.Valid) (valid : state.Valid config.blockSizes)
    (live : LiveEscape config state sc start buf) (intact : Intact config sc start buf)
    {registry : Nat → Nat → List EscapeNode}
    (part : ∀ sc bucket, (registry sc bucket).Sublist (state.registry sc bucket))
    (other bucket : Nat) :
    escapeRegistryRemove registry buf (blkSizeToSc config.blockSizes buf.dataSize) other bucket =
      (registry other bucket).filter (·.qbuf ≠ buf.addr) := by
  have inside : sc < config.blockSizes.length := (List.getElem?_eq_some_iff.mp intact.1).1
  have known := blkSizeToSc_eq configValid.distinct
    (configValid.positive _ (mem_of_getElem? intact.1)) intact.1
  have small : ¬ sc ≥ umqQbufSizeClassMax := Nat.not_le_of_lt (Nat.lt_of_lt_of_le inside configValid.few)
  have elsewhere : ¬ (other = sc ∧ bucket = escapeBufHash start) →
      (registry other bucket).filter (·.qbuf ≠ buf.addr) = registry other bucket := by
    intro apart
    apply filter_eq_self.mpr
    intro node mem
    simpa using fun same => apart (live.node_unique valid configValid.distinct ((part _ _).mem mem) same)
  rw [escapeRegistryRemove, known, if_neg small, intact.2]
  by_cases sameClass : other = sc
  · subst sameClass
    rw [update_self]
    by_cases sameBucket : bucket = escapeBufHash start
    · subst sameBucket
      have distinct := ((part other (escapeBufHash start)).map EscapeNode.qbuf).nodup (valid.distinct _ _)
      rw [update_self, eraseP_key distinct]
    · rw [update_of_ne sameBucket, elsewhere fun both => sameBucket both.2]
  · rw [update_of_ne sameClass, elsewhere fun both => sameClass both.1]

theorem foldl_escapeFree_registry (configValid : config.Valid) (valid : state.Valid config.blockSizes)
    (live : ∀ head ∈ heads, ∃ sc start, LiveEscape config state sc start head ∧ Intact config sc start head)
    {current : EscapeState} (part : ∀ sc bucket, (current.registry sc bucket).Sublist (state.registry sc bucket))
    (sc bucket : Nat) :
    (heads.foldl (escapeFree config.blockSizes) current).registry sc bucket =
      (current.registry sc bucket).filter fun node => ∀ head ∈ heads, node.qbuf ≠ head.addr := by
  induction heads generalizing current with
  | nil => simp
  | cons head rest ih =>
    rw [forall_mem_cons] at live
    obtain ⟨ownSc, ownStart, headLive, intact⟩ := live.1
    have removed := escapeRegistryRemove_intact configValid valid headLive intact part
    have smaller : ∀ sc bucket, ((escapeFree config.blockSizes current head).registry sc bucket).Sublist
        (state.registry sc bucket) := by
      intro sc bucket
      simp only [escapeFree, removed]
      exact filter_sublist.trans (part sc bucket)
    rw [foldl_cons, ih live.2 smaller]
    simp only [escapeFree, removed, filter_filter]
    apply filter_congr
    intro node mem
    simp [Bool.and_comm]

/-! ## Exactly when -/

/-- No two escape buffers are neighbours, and each is as it was allocated. -/
structure EscapesIntact (config : PoolConfig) (origin : Buf → Origin) (chain : List Buf) : Prop where
  apart : chain.IsChain fun first second =>
    ¬ (first.mempoolId = qbufPoolMempoolIdMax ∧ second.mempoolId = qbufPoolMempoolIdMax)
  intact : ∀ buf ∈ chain, ∀ sc start, origin buf = .escape sc start → Intact config sc start buf

section Chain

variable (valid : pools.Valid config) (configValid : config.Valid) (distinct : (chain.map Buf.addr).Nodup)
  (live : ∀ buf ∈ chain, LiveAs config pools buf (origin buf))

include valid live in
theorem isEscape_iff_key (mem : buf ∈ chain) :
    (origin buf).escapeStart.isSome ↔ buf.mempoolId = qbufPoolMempoolIdMax := by
  have key := (live buf mem).runKey_eq valid.toListsValid
  rw [(origin buf).kind_iff_key.2.2.2, ← key, runKey]
  constructor
  · intro escape
    have type : umqPoolTypeGet buf.mempoolId = .escape := congrArg Prod.fst escape
    unfold umqPoolTypeGet at type
    split_ifs at type
    assumption
  · intro escape
    have withData : buf.mempoolWithoutData = false := by
      have type : (origin buf).key.1 = .escape := by
        rw [← key, runKey, escape]
        rfl
      have flag : buf.mempoolWithoutData = (origin buf).key.2 := congrArg Prod.snd key
      cases same : origin buf <;> simp_all [Origin.key]
    rw [escape, withData]
    rfl

include valid live distinct in
/-- All escape buffers begin a run just when no two of them are neighbours. -/
theorem apart_iff_mem_runStarts :
    (chain.IsChain fun first second =>
      ¬ (first.mempoolId = qbufPoolMempoolIdMax ∧ second.mempoolId = qbufPoolMempoolIdMax)) ↔
    ∀ buf ∈ chain, buf.mempoolId = qbufPoolMempoolIdMax → buf ∈ runStarts runKey chain := by
  refine (mem_runStarts_iff_isChain distinct.of_map ?_).symm
  intro first firstListed firstEscape second secondListed
  have firstIs := (isEscape_iff_key valid live firstListed).mpr firstEscape
  rw [(live first firstListed).runKey_eq valid.toListsValid, (live second secondListed).runKey_eq valid.toListsValid,
    (origin first).kind_iff_key.2.2.2.mp firstIs, ← (origin second).kind_iff_key.2.2.2,
    isEscape_iff_key valid live secondListed]

include live in
theorem exists_liveEscape (mem : buf ∈ chain) (escape : (origin buf).escapeStart.isSome) :
    ∃ sc start, origin buf = .escape sc start ∧ LiveEscape config pools.escape sc start buf := by
  have alive := live buf mem
  generalize origin buf = kind at alive escape
  cases kind with
  | escape sc start => exact ⟨sc, start, rfl, alive⟩
  | _ => cases escape

theorem mem_chain_of_mem_escapeHeads (mem : buf ∈ escapeHeads origin chain) :
    buf ∈ chain ∧ (origin buf).escapeStart.isSome :=
  ⟨(startsAfter_sublist _).mem (mem_filter.mp mem).1, (mem_filter.mp mem).2⟩

include configValid valid distinct live in
/-- A buffer whose node and whose block are gone was the head of its run, and intact. -/
theorem intact_of_freed (freed : EscapesFreed origin pools.escape chain (umqBufFree config pools chain).escape)
    (mem : buf ∈ chain) (is : origin buf = .escape sc start) :
    buf ∈ escapeHeads origin chain ∧ Intact config sc start buf := by
  have alive : LiveEscape config pools.escape sc start buf := by
    have alive := live buf mem
    rwa [is] at alive
  have same : ∀ head ∈ escapeHeads origin chain, head.addr = buf.addr → head = buf := fun head inHeads =>
    inj_on_of_nodup_map distinct (mem_chain_of_mem_escapeHeads inHeads).1 mem
  rw [umqBufFree_escape configValid valid.toListsValid live] at freed
  obtain ⟨blkSize, found, -, -, -, inHeap, registered⟩ := alive.block
  have unregistered : ⟨buf.addr, start, blkSize⟩ ∉
      ((escapeHeads origin chain).foldl (escapeFree config.blockSizes) pools.escape).registry sc
        (escapeBufHash start) := by
    rw [freed.registry]
    intro kept
    have others := of_decide_eq_true (mem_filter.mp kept).2
    exact others buf mem (by rw [is]; rfl) rfl
  obtain ⟨head, inHeads, address, headClass⟩ := exists_head_of_removed registered unregistered
  cases same head inHeads address
  have released : ⟨start, blkSize + sizeofUmqBuf⟩ ∉
      ((escapeHeads origin chain).foldl (escapeFree config.blockSizes) pools.escape).heap := by
    rw [freed.heap]
    intro kept
    have others := of_decide_eq_true (mem_filter.mp kept).2
    exact others buf mem (by rw [is]; rfl)
  have pointed : ∃ other ∈ escapeHeads origin chain, start = other.bufData := by
    rw [foldl_escapeFree_heap, mem_filter] at released
    by_contra none
    push Not at none
    exact released ⟨inHeap, decide_eq_true none⟩
  obtain ⟨other, otherInHeads, pointer⟩ := pointed
  obtain ⟨otherListed, otherIs⟩ := mem_chain_of_mem_escapeHeads otherInHeads
  obtain ⟨otherSc, otherStart, -, otherAlive⟩ := exists_liveEscape live otherListed otherIs
  cases same other otherInHeads (alive.addr_eq_of_bufData valid.escape otherAlive pointer.symm)
  have small : sc < umqQbufSizeClassMax :=
    Nat.lt_of_lt_of_le (List.getElem?_eq_some_iff.mp found).1 configValid.few
  exact ⟨inHeads, getElem?_blkSizeToSc headClass small, pointer.symm⟩

include valid live in
/-- When all of them begin a run, the heads are all the escape buffers. -/
theorem mem_escapeHeads_iff
    (starts : ∀ buf ∈ chain, buf.mempoolId = qbufPoolMempoolIdMax → buf ∈ runStarts runKey chain) :
    buf ∈ escapeHeads origin chain ↔ buf ∈ chain ∧ (origin buf).escapeStart.isSome := by
  constructor
  · exact mem_chain_of_mem_escapeHeads
  · rintro ⟨mem, is⟩
    exact mem_filter.mpr ⟨starts buf mem ((isEscape_iff_key valid live mem).mp is), is⟩

include configValid in
theorem Intact.blkSizeToSc (intact : Intact config sc start buf) :
    Qbuf.blkSizeToSc config.blockSizes buf.dataSize = sc :=
  blkSizeToSc_eq configValid.distinct (configValid.positive _ (mem_of_getElem? intact.1)) intact.1

include configValid valid distinct live in
theorem escapesFreed_of_intact (intact : EscapesIntact config origin chain) :
    EscapesFreed origin pools.escape chain (umqBufFree config pools chain).escape := by
  have starts := (apart_iff_mem_runStarts valid distinct live).mp intact.apart
  have heads : ∀ {buf}, buf ∈ escapeHeads origin chain ↔ buf ∈ chain ∧ (origin buf).escapeStart.isSome :=
    mem_escapeHeads_iff valid live starts
  have alive : ∀ head ∈ escapeHeads origin chain, ∃ sc start, origin head = .escape sc start ∧
      LiveEscape config pools.escape sc start head ∧ Intact config sc start head := by
    intro head inHeads
    obtain ⟨mem, is⟩ := heads.mp inHeads
    obtain ⟨sc, start, same, headLive⟩ := exists_liveEscape live mem is
    exact ⟨sc, start, same, headLive, intact.intact head mem sc start same⟩
  rw [umqBufFree_escape configValid valid.toListsValid live]
  constructor
  · rw [foldl_escapeFree_heap]
    apply filter_congr
    intro block _
    apply decide_eq_decide.mpr
    constructor
    · intro others buf mem same
      have inHeads := heads.mpr ⟨mem, by rw [same]; rfl⟩
      obtain ⟨sc, start, is, -, headIntact⟩ := alive buf inHeads
      rw [is] at same
      exact others buf inHeads ((Option.some.inj same).symm.trans headIntact.2.symm)
    · intro others head inHeads same
      obtain ⟨sc, start, is, -, headIntact⟩ := alive head inHeads
      apply others head (heads.mp inHeads).1
      rw [is, same, headIntact.2]
      rfl
  · intro sc bucket
    rw [foldl_escapeFree_registry configValid valid.escape _ fun sc bucket => List.Sublist.refl _]
    · apply filter_congr
      intro node _
      apply decide_eq_decide.mpr
      constructor
      · intro others buf mem is
        exact others buf (heads.mpr ⟨mem, is⟩)
      · intro others head inHeads
        exact others head (heads.mp inHeads).1 (heads.mp inHeads).2
    · intro head inHeads
      obtain ⟨sc, start, -, headLive, headIntact⟩ := alive head inHeads
      exact ⟨sc, start, headLive, headIntact⟩
  · intro sc
    have nodup : (chain.filter fun buf => (origin buf).escapeStart.isSome).Nodup := distinct.of_map.filter _
    have headsNodup : (escapeHeads origin chain).Nodup := ((startsAfter_sublist _).nodup distinct.of_map).filter _
    have all : (escapeHeads origin chain).Perm (chain.filter fun buf => (origin buf).escapeStart.isSome) := by
      rw [perm_ext_iff_of_nodup headsNodup nodup]
      intro buf
      rw [heads, mem_filter]
    have counted : (chain.filter fun buf => (origin buf).escapeStart.isSome).countP
        (fun head => blkSizeToSc config.blockSizes head.dataSize = sc ∧ sc < umqQbufSizeClassMax) =
          chain.countP fun buf => (origin buf).ofEscapeClass sc := by
      rw [countP_filter]
      apply countP_congr
      intro buf mem
      rw [Bool.and_eq_true, decide_eq_true_eq]
      constructor
      · rintro ⟨⟨headClass, -⟩, is⟩
        obtain ⟨own, start, same, -, headIntact⟩ := alive buf (heads.mpr ⟨mem, is⟩)
        rw [headIntact.blkSizeToSc configValid] at headClass
        rw [same, headClass]
        exact decide_eq_true rfl
      · intro ofClass
        have is : (origin buf).escapeStart.isSome := by
          cases same : origin buf <;> simp_all [Origin.ofEscapeClass, Origin.escapeStart]
        obtain ⟨own, start, same, -, headIntact⟩ := alive buf (heads.mpr ⟨mem, is⟩)
        rw [same] at ofClass
        cases of_decide_eq_true ofClass
        have small := Nat.lt_of_lt_of_le (List.getElem?_eq_some_iff.mp headIntact.1).1 configValid.few
        exact ⟨⟨headIntact.blkSizeToSc configValid, small⟩, is⟩
    rw [foldl_escapeFree_bufCnt, all.countP_eq, counted]

end Chain

/-- Every buffer of the chain is back in the pool it came from, once, nothing else has
moved to another pool, and the counters have followed. -/
structure FreedExactly (origin : Buf → Origin) (before : Pools) (chain : List Buf) (after : Pools) : Prop where
  pools : PoolsGain origin before chain after
  escapes : EscapesFreed origin before.escape chain after.escape

section Exactly

variable (configValid : config.Valid) (valid : pools.Valid config) (distinct : (chain.map Buf.addr).Nodup)
  (live : ∀ buf ∈ chain, LiveAs config pools buf (origin buf))
include configValid valid distinct live

theorem freedExactly_of_intact (intact : EscapesIntact config origin chain) :
    FreedExactly origin pools chain (umqBufFree config pools chain) :=
  ⟨umqBufFree_gain configValid valid.toListsValid live, escapesFreed_of_intact valid configValid distinct live intact⟩

theorem escapesIntact_of_freed (freed : FreedExactly origin pools chain (umqBufFree config pools chain)) :
    EscapesIntact config origin chain := by
  constructor
  · rw [apart_iff_mem_runStarts valid distinct live]
    intro buf mem mempool
    have is := (isEscape_iff_key valid live mem).mpr mempool
    obtain ⟨sc, start, same, -⟩ := exists_liveEscape live mem is
    have inHeads := (intact_of_freed valid configValid distinct live freed.escapes mem same).1
    exact (mem_filter.mp inHeads).1
  · intro buf mem sc start same
    exact (intact_of_freed valid configValid distinct live freed.escapes mem same).2

end Exactly

theorem umqBufFree_freedExactly_iff (configValid : config.Valid) (valid : pools.Valid config)
    (distinct : (chain.map Buf.addr).Nodup) (live : ∀ buf ∈ chain, LiveAs config pools buf (origin buf)) :
    FreedExactly origin pools chain (umqBufFree config pools chain) ↔ EscapesIntact config origin chain := by
  constructor
  · exact escapesIntact_of_freed configValid valid distinct live
  · exact freedExactly_of_intact configValid valid distinct live

/-! ### A pool with two escape buffers -/

def sampleConfig : PoolConfig :=
  { mode := .split, blockSizes := [4096], perScBlockCounts := fun _ => 64, disableScaleCap := false
    disableMallocEscape := false, tinyDepth := 0, tinyBatchCount := 0, hugePoolIdxShift := []
    umqInited := true, qbufInited := true, tinyInited := false, rxInited := false, hugeInited := false }

def sampleClass : ClassPool := ⟨⟨⟨[], 0⟩, 64⟩, ⟨[], 0⟩, ⟨[], 0, 0, [], false⟩⟩

def sampleNodes : List EscapeNode := [⟨12288, 8192, 4096⟩, ⟨24576, 20480, 4096⟩]

def samplePools : Pools :=
  { withData := fun _ => sampleClass, withoutData := sampleClass, freeCount := fun _ => 0, nodataFreeCount := 0
    rxFallbackOutstanding := 0
    escape :=
      { registry := fun sc bucket => if sc = 0 then sampleNodes.filter (escapeBufHash ·.bufData = bucket) else []
        bufCnt := fun sc => if sc = 0 then 2 else 0
        heap := [⟨8192, 4224⟩, ⟨20480, 4224⟩] }
    tinyCache := ⟨⟨[], 0⟩, 0⟩, tinyGlobal := ⟨[], 0⟩, tinyFreeCount := 0, rx := ⟨[], 0⟩, rxFreeCount := 0
    huge := fun _ => ⟨[], 0⟩ }

/-- A buffer of the sample's size class with its block at `start`. -/
def sampleBuf (addr mempoolId start : Nat) : Buf :=
  { addr := addr, mempoolId := mempoolId, mempoolWithoutData := false, bufSize := 4224, dataSize := 4096
    totalDataSize := 4096, headroomSize := 0, firstFragment := true, bufData := start, rxFallback := false }

def sampleNormal : Buf := sampleBuf 64 0 4096
def sampleFirst : Buf := sampleBuf 12288 1023 8192
def sampleSecond : Buf := sampleBuf 24576 1023 20480

def sampleOrigin (buf : Buf) : Origin := if buf.mempoolId = 1023 then .escape 0 buf.bufData else .normal 0

theorem sampleConfig_valid : sampleConfig.Valid := ⟨rfl, rfl, by decide, by decide, by decide⟩

theorem samplePools_valid : samplePools.Valid sampleConfig := by
  have class' : sampleClass.Valid umqQbufDefaultMempoolId := by
    constructor
    · rfl
    · exact forall_mem_nil _
    · exact ⟨rfl, forall_mem_nil _, ⟨nodup_nil, forall_mem_nil _, rfl⟩⟩
  constructor
  · exact ⟨fun _ => class', class', ⟨rfl, forall_mem_nil _, rfl, forall_mem_nil _⟩⟩
  · constructor
    · exact pairwise_pair.mpr (Or.inl (by decide))
    · intro sc bucket node mem
      have mem : node ∈ if sc = 0 then sampleNodes.filter (escapeBufHash ·.bufData = bucket) else [] := mem
      split at mem
      · rename_i same
        cases same
        obtain ⟨known, filed⟩ := mem_filter.mp mem
        have all : ∀ node ∈ sampleNodes, node.qbuf = node.bufData + node.blkSize ∧
            sampleConfig.blockSizes[0]? = some node.blkSize ∧
            ⟨node.bufData, node.blkSize + sizeofUmqBuf⟩ ∈ samplePools.escape.heap := by decide
        exact ⟨(of_decide_eq_true filed).symm, all node known⟩
      · cases mem
    · intro sc bucket
      simp only [samplePools]
      split
      · apply (filter_sublist.map EscapeNode.qbuf).nodup
        decide
      · exact nodup_nil

theorem sampleFirst_live : LiveAs sampleConfig samplePools sampleFirst (.escape 0 8192) :=
  ⟨rfl, rfl, rfl, 4096, rfl, rfl, by decide, by decide, by decide, by decide⟩

theorem sampleSecond_live : LiveAs sampleConfig samplePools sampleSecond (.escape 0 20480) :=
  ⟨rfl, rfl, rfl, 4096, rfl, rfl, by decide, by decide, by decide, by decide⟩

theorem sampleNormal_live : LiveAs sampleConfig samplePools sampleNormal (.normal 0) := ⟨rfl, rfl, 4096, rfl, rfl⟩

/-- With a buffer of the pool between them both escape buffers are freed. -/
theorem umqBufFree_freedExactly_sample :
    FreedExactly sampleOrigin samplePools [sampleFirst, sampleNormal, sampleSecond]
      (umqBufFree sampleConfig samplePools [sampleFirst, sampleNormal, sampleSecond]) := by
  apply (umqBufFree_freedExactly_iff sampleConfig_valid samplePools_valid (by decide) ?_).mpr
  · constructor
    · simp [sampleNormal, sampleBuf, qbufPoolMempoolIdMax]
    · simp [sampleFirst, sampleNormal, sampleSecond, sampleBuf, sampleOrigin, Intact, sampleConfig]
  · rw [forall_mem_cons, forall_mem_cons, forall_mem_singleton]
    exact ⟨sampleFirst_live, sampleNormal_live, sampleSecond_live⟩

/-- Two neighbouring escape buffers: the second one stays registered and allocated. -/
theorem umqBufFree_neighbouring_escapes_lost :
    sampleConfig.Valid ∧ samplePools.Valid sampleConfig ∧ ([sampleFirst, sampleSecond].map Buf.addr).Nodup ∧
    (∀ buf ∈ [sampleFirst, sampleSecond], LiveAs sampleConfig samplePools buf (sampleOrigin buf)) ∧
    (umqBufFree sampleConfig samplePools [sampleFirst, sampleSecond]).escape.heap = [⟨20480, 4224⟩] ∧
    (umqBufFree sampleConfig samplePools [sampleFirst, sampleSecond]).escape.bufCnt 0 = 1 ∧
    ¬ FreedExactly sampleOrigin samplePools [sampleFirst, sampleSecond]
      (umqBufFree sampleConfig samplePools [sampleFirst, sampleSecond]) := by
  have live : ∀ buf ∈ [sampleFirst, sampleSecond], LiveAs sampleConfig samplePools buf (sampleOrigin buf) := by
    rw [forall_mem_cons, forall_mem_singleton]
    exact ⟨sampleFirst_live, sampleSecond_live⟩
  have left : (umqBufFree sampleConfig samplePools [sampleFirst, sampleSecond]).escape.heap =
      [⟨20480, 4224⟩] := by decide
  have counted : (umqBufFree sampleConfig samplePools [sampleFirst, sampleSecond]).escape.bufCnt 0 = 1 := by decide
  refine ⟨sampleConfig_valid, samplePools_valid, by decide, live, left, counted, ?_⟩
  intro freed
  have dropped := freed.escapes.bufCnt 0
  revert dropped
  decide

end UbsComm.Qbuf
