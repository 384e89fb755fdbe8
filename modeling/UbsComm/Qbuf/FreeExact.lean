import UbsComm.Qbuf.ClassPool
import UbsComm.Qbuf.Free

/-! # Which chains are freed exactly

Every buffer that is not an escape buffer comes back to its own pool, whatever the chain.
Escape buffers are freed exactly when no two of them are neighbours and their headers
still say what they said when they were allocated. -/

namespace UbsComm.Qbuf

open Library List Function

/-! ## Live buffers -/

/-- The pool a buffer was allocated from; an escape buffer is a block of the heap. -/
inductive Origin where
  | normal (sc : Nat)
  | expansion (sc slotId : Nat)
  | nodata
  | nodataExpansion (slotId : Nat)
  | tiny
  | escape (sc start : Nat)

def Origin.ofClass (sc : Nat) : Origin → Bool
  | .normal own | .expansion own _ => own = sc
  | _ => false

def Origin.isNodata : Origin → Bool
  | .nodata | .nodataExpansion _ => true
  | _ => false

def Origin.isTiny : Origin → Bool
  | .tiny => true
  | _ => false

def Origin.escapeStart : Origin → Option Nat
  | .escape _ start => some start
  | _ => none

def Origin.hasClass : Origin → Bool
  | .normal _ | .expansion _ _ => true
  | _ => false

def Origin.ofEscapeClass (sc : Nat) : Origin → Bool
  | .escape own _ => own = sc
  | _ => false

variable (config : PoolConfig)

def PoolConfig.bufSizeOf (blkSize : Nat) : Nat :=
  match config.mode with
  | .split => blkSize + sizeofUmqBuf
  | .combine => blkSize

structure PoolConfig.Valid : Prop where
  umqInited : config.umqInited
  qbufInited : config.qbufInited
  positive : ∀ blkSize ∈ config.blockSizes, 0 < blkSize
  distinct : config.blockSizes.Nodup
  few : config.blockSizes.length ≤ umqQbufSizeClassMax

/-- A block with data of the size class, as its header shows it. -/
structure HasData (sc : Nat) (buf : Buf) : Prop where
  withData : buf.mempoolWithoutData = false
  size : ∃ blkSize, config.blockSizes[sc]? = some blkSize ∧ buf.bufSize = config.bufSizeOf blkSize

structure LiveEscape (state : EscapeState) (sc start : Nat) (buf : Buf) : Prop where
  enabled : config.disableMallocEscape = false
  mempool : buf.mempoolId = qbufPoolMempoolIdMax
  withData : buf.mempoolWithoutData = false
  block : ∃ blkSize, config.blockSizes[sc]? = some blkSize ∧ buf.addr = start + blkSize ∧
    start ≤ buf.bufData ∧ buf.bufData ≤ start + blkSize ∧ ⟨start, blkSize + sizeofUmqBuf⟩ ∈ state.heap ∧
    ⟨buf.addr, start, blkSize⟩ ∈ state.registry sc (escapeBufHash start)

/-- A buffer that was allocated from `origin` and has not been freed. -/
def LiveAs (pools : Pools) (buf : Buf) : Origin → Prop
  | .normal sc => buf.mempoolId = umqQbufDefaultMempoolId ∧ HasData config sc buf
  | .expansion sc slotId => buf.mempoolId = slotId + qbufPoolExpSlotIdMin ∧
      (pools.withData sc).expansion.Has buf.mempoolId ∧ HasData config sc buf
  | .nodata => config.mode = .split ∧ buf.mempoolWithoutData ∧ buf.mempoolId = umqQbufDefaultMempoolId
  | .nodataExpansion slotId => config.mode = .split ∧ buf.mempoolWithoutData ∧
      buf.mempoolId = slotId + qbufPoolExpSlotIdMin ∧ pools.withoutData.expansion.Has buf.mempoolId
  | .tiny => config.tinyInited ∧ buf.mempoolWithoutData = false ∧ buf.mempoolId = umqTinyQbufMempoolId
  | .escape sc start => LiveEscape config pools.escape sc start buf

def HeapBlock.Apart (one two : HeapBlock) : Prop := one.start + one.size ≤ two.start ∨ two.start + two.size ≤ one.start

instance : Std.Symm HeapBlock.Apart := ⟨fun _ _ => Or.symm⟩

/-- The blocks of the heap do not overlap, and the registry holds one node for each of
its buffers, in the class of its size and the bucket of its address. -/
structure EscapeState.Valid (blockSizes : List Nat) (state : EscapeState) : Prop where
  apart : state.heap.Pairwise HeapBlock.Apart
  filed : ∀ sc bucket, ∀ node ∈ state.registry sc bucket, bucket = escapeBufHash node.bufData ∧
    node.qbuf = node.bufData + node.blkSize ∧ blockSizes[sc]? = some node.blkSize ∧
    ⟨node.bufData, node.blkSize + sizeofUmqBuf⟩ ∈ state.heap
  distinct : ∀ sc bucket, ((state.registry sc bucket).map EscapeNode.qbuf).Nodup

structure TinyValid (pools : Pools) : Prop where
  cacheCounted : pools.tinyCache.cnt = pools.tinyCache.head.length
  cacheHomed : ∀ buf ∈ pools.tinyCache.head, buf.mempoolId = umqTinyQbufMempoolId
  globalCounted : pools.tinyGlobal.cnt = pools.tinyGlobal.head.length
  globalHomed : ∀ buf ∈ pools.tinyGlobal.head, buf.mempoolId = umqTinyQbufMempoolId

structure ListsValid (pools : Pools) : Prop where
  withData : ∀ sc, (pools.withData sc).Valid umqQbufDefaultMempoolId
  withoutData : pools.withoutData.Valid umqQbufDefaultMempoolId
  tiny : TinyValid pools

structure Pools.Valid (pools : Pools) : Prop extends ListsValid pools where
  escape : pools.escape.Valid config.blockSizes

/-! ## What exact means -/

/-- The buffers of the chain that are not escape buffers have come back, each to the
lists of its own pool and once; the other buffers of these pools are still there. -/
structure PoolsGain (origin : Buf → Origin) (before : Pools) (chain : List Buf) (after : Pools) : Prop where
  withData : ∀ sc, Gains umqQbufDefaultMempoolId (chain.filter fun buf => (origin buf).ofClass sc)
    (before.withData sc) (after.withData sc)
  withoutData : Gains umqQbufDefaultMempoolId (chain.filter fun buf => (origin buf).isNodata)
    before.withoutData after.withoutData
  tiny : (after.tinyCache.head ++ after.tinyGlobal.head).Perm
    (chain.filter (fun buf => (origin buf).isTiny) ++ (before.tinyCache.head ++ before.tinyGlobal.head))
  tinyValid : TinyValid after
  freeCount : ∀ sc, after.freeCount sc = before.freeCount sc + chain.countP fun buf => (origin buf).ofClass sc
  nodataFreeCount : after.nodataFreeCount = before.nodataFreeCount + chain.countP fun buf => (origin buf).isNodata
  tinyFreeCount : after.tinyFreeCount = before.tinyFreeCount + chain.countP fun buf => (origin buf).isTiny
  rxFallback : after.rxFallbackOutstanding =
    before.rxFallbackOutstanding - chain.countP fun buf => (origin buf).hasClass && buf.rxFallback
  rx : after.rx = before.rx
  huge : after.huge = before.huge

/-- The escape buffers of the chain have been freed and unregistered, and no others. -/
structure EscapesFreed (origin : Buf → Origin) (before : EscapeState) (chain : List Buf)
    (after : EscapeState) : Prop where
  heap : after.heap = before.heap.filter fun block =>
    ∀ buf ∈ chain, (origin buf).escapeStart ≠ some block.start
  registry : ∀ sc bucket, after.registry sc bucket = (before.registry sc bucket).filter fun node =>
    ∀ buf ∈ chain, (origin buf).escapeStart.isSome → node.qbuf ≠ buf.addr
  bufCnt : ∀ sc, after.bufCnt sc = before.bufCnt sc - chain.countP fun buf => (origin buf).ofEscapeClass sc

/-! ## One run -/

variable {config} {origin : Buf → Origin} {pools before middle after : Pools} {run chain more : List Buf}
  {sc start blkSize : Nat} {buf : Buf} {kind : Origin} {sizes : List Nat}

theorem Gains.of_perm {home : Nat} {added others : List Buf} {pool result : ClassPool}
    (gains : Gains home added pool result)
    (same : added.Perm others) : Gains home others pool result :=
  ⟨gains.perm.trans (same.append_right _), gains.ids, gains.valid⟩

theorem PoolsGain.trans (first : PoolsGain origin before chain middle) (second : PoolsGain origin middle more after) :
    PoolsGain origin before (chain ++ more) after where
  withData := by
    intro sc
    rw [filter_append]
    exact ((first.withData sc).trans (second.withData sc)).of_perm perm_append_comm
  withoutData := by
    rw [filter_append]
    exact (first.withoutData.trans second.withoutData).of_perm perm_append_comm
  tiny := by
    rw [filter_append]
    have both := second.tiny.trans (first.tiny.append_left _)
    rw [← append_assoc] at both
    exact both.trans (perm_append_comm.append_right _)
  tinyValid := second.tinyValid
  freeCount := by
    intro sc
    rw [second.freeCount, first.freeCount, countP_append, Nat.add_assoc]
  nodataFreeCount := by rw [second.nodataFreeCount, first.nodataFreeCount, countP_append, Nat.add_assoc]
  tinyFreeCount := by rw [second.tinyFreeCount, first.tinyFreeCount, countP_append, Nat.add_assoc]
  rxFallback := by
    rw [second.rxFallback, first.rxFallback, countP_append]
    omega
  rx := second.rx.trans first.rx
  huge := second.huge.trans first.huge

theorem PoolsGain.refl (valid : ListsValid before) : PoolsGain origin before [] before where
  withData := fun sc => (valid.withData sc).gains_nil
  withoutData := valid.withoutData.gains_nil
  tiny := List.Perm.refl _
  tinyValid := valid.tiny
  freeCount := fun _ => rfl
  nodataFreeCount := rfl
  tinyFreeCount := rfl
  rxFallback := (Int.sub_zero _).symm
  rx := rfl
  huge := rfl

/-! ### Size classes -/

theorem blkSizeToSc_eq (distinct : sizes.Nodup) (positive : 0 < blkSize)
    (found : sizes[sc]? = some blkSize) : blkSizeToSc sizes blkSize = sc := by
  obtain ⟨inside, rfl⟩ := List.getElem?_eq_some_iff.mp found
  have index : sizes.findIdx? (· = sizes[sc]) = some sc := by
    rw [findIdx?_eq_some_iff_getElem]
    refine ⟨inside, by simp, fun other before => ?_⟩
    simpa using fun same => Nat.ne_of_lt before ((List.Nodup.getElem_inj_iff distinct).mp same)
  rw [blkSizeToSc, if_neg (Nat.ne_of_gt positive), index]
  rfl

theorem getElem?_blkSizeToSc (known : blkSizeToSc sizes blkSize = sc)
    (small : sc < umqQbufSizeClassMax) : sizes[sc]? = some blkSize := by
  unfold blkSizeToSc at known
  split at known
  · omega
  · cases index : sizes.findIdx? (· = blkSize) with
    | none =>
      rw [index] at known
      simp only [Option.getD_none] at known
      omega
    | some position =>
      rw [index, Option.getD_some] at known
      subst known
      obtain ⟨inside, same, -⟩ := findIdx?_eq_some_iff_getElem.mp index
      rw [getElem?_eq_getElem inside]
      exact congrArg some (of_decide_eq_true same)

theorem HasData.class_lt (data : HasData config sc buf) : sc < config.blockSizes.length := by
  obtain ⟨blkSize, found, -⟩ := data.size
  exact (List.getElem?_eq_some_iff.mp found).1

theorem sortBuf_hasData (configValid : config.Valid) (data : HasData config sc buf) (sorted : Sorted) :
    sortBuf config sorted buf =
      { sorted with
        classes := update sorted.classes sc (sorted.classes sc ++ [buf])
        rxFallback := sorted.rxFallback + if buf.rxFallback then 1 else 0 } := by
  obtain ⟨blkSize, found, size⟩ := data.size
  have blk : blkSizeOf config buf = some blkSize := by
    unfold blkSizeOf
    rw [size, PoolConfig.bufSizeOf]
    cases config.mode with
    | split =>
      simp only [Nat.add_sub_cancel]
      rw [if_neg (by omega)]
    | combine => rfl
  have known := blkSizeToSc_eq configValid.distinct (configValid.positive _ (mem_of_getElem? found)) found
  unfold sortBuf
  simp only [data.withData, Bool.false_eq_true, and_false, if_false, blk, known,
    if_neg (Nat.not_le_of_lt data.class_lt)]

theorem LiveAs.hasData (live : LiveAs config pools buf kind) (ofClass : kind.ofClass sc) :
    HasData config sc buf ∧ Belongs umqQbufDefaultMempoolId (pools.withData sc).expansion buf := by
  cases kind with
  | normal own =>
    cases of_decide_eq_true ofClass
    exact ⟨live.2, .inl live.1⟩
  | expansion own slotId =>
    cases of_decide_eq_true ofClass
    exact ⟨live.2.2, .inr live.2.1⟩
  | _ => cases ofClass

theorem Origin.hasClass_iff (origin : Origin) : origin.hasClass ↔ ∃ sc, origin.ofClass sc := by
  cases origin <;> simp [Origin.hasClass, Origin.ofClass]

theorem Origin.ofClass_unique {origin : Origin} {other : Nat} (first : origin.ofClass sc)
    (second : origin.ofClass other) :
    sc = other := by
  cases origin <;> simp_all [Origin.ofClass]

/-- A run of buffers with data is sorted into the classes they came from. -/
theorem foldl_sortBuf (configValid : config.Valid) (live : ∀ buf ∈ run, LiveAs config pools buf (origin buf))
    (allClass : ∀ buf ∈ run, (origin buf).hasClass) (sorted : Sorted) :
    run.foldl (sortBuf config) sorted =
      { sorted with
        classes := fun sc => sorted.classes sc ++ run.filter fun buf => (origin buf).ofClass sc
        rxFallback := sorted.rxFallback + run.countP fun buf => (origin buf).hasClass && buf.rxFallback } := by
  induction run generalizing sorted with
  | nil => simp
  | cons buf rest ih =>
    rw [forall_mem_cons] at live allClass
    obtain ⟨own, ofClass⟩ := (Origin.hasClass_iff _).mp allClass.1
    have data := (live.1.hasData ofClass).1
    rw [foldl_cons, sortBuf_hasData configValid data, ih live.2 allClass.2]
    simp only
    congr 1
    · funext sc
      by_cases same : sc = own
      · rw [same, update_self, filter_cons, if_pos ofClass, append_assoc]
        rfl
      · have other : ¬ (origin buf).ofClass sc := fun also => same (Origin.ofClass_unique also ofClass)
        rw [update_of_ne same, filter_cons, if_neg other]
    · rw [countP_cons, allClass.1, Bool.true_and]
      omega

/-- What the loop over the classes does to one of them. -/
def releasedClass (config : PoolConfig) (classes : Nat → List Buf) (sc : Nat) (pool : ClassPool) : ClassPool :=
  if classes sc = [] then pool
  else
    ((pool.releaseBatch (classes sc)).returnAbove
      (if config.disableScaleCap then qbufPoolTlsMax else pool.cache.capacity)
        (getBatchCount config sc)).selfShrinkWithData

theorem releaseClass_eq {classes : Nat → List Buf} {pools : Pools} {sc : Nat} :
    releaseClass config classes pools sc =
      { pools with
        withData := update pools.withData sc (releasedClass config classes sc (pools.withData sc))
        freeCount := update pools.freeCount sc (pools.freeCount sc + (classes sc).length) } := by
  unfold releaseClass releasedClass
  split
  · rename_i empty
    simp [empty]
  · rfl

theorem foldl_releaseClass {classes : Nat → List Buf} {indices : List Nat} (distinct : indices.Nodup) (pools : Pools) :
    indices.foldl (releaseClass config classes) pools =
      { pools with
        withData :=
          fun sc => if sc ∈ indices then releasedClass config classes sc (pools.withData sc) else pools.withData sc
        freeCount :=
          fun sc => if sc ∈ indices then pools.freeCount sc + (classes sc).length else pools.freeCount sc } := by
  induction indices generalizing pools with
  | nil => simp
  | cons index rest ih =>
    rw [nodup_cons] at distinct
    rw [foldl_cons, releaseClass_eq, ih distinct.2]
    simp only
    -- a class other than the first is not touched by the first step
    congr 1 <;>
    · funext sc
      by_cases same : sc = index
      · rw [same, if_neg distinct.1, if_pos mem_cons_self, update_self]
      · simp [same]

theorem isHome_default : IsHome umqQbufDefaultMempoolId := .inl rfl

variable {pool : ClassPool}

theorem releasedClass_gains (classes : Nat → List Buf) (valid : pool.Valid umqQbufDefaultMempoolId)
    (belongs : ∀ buf ∈ classes sc, Belongs umqQbufDefaultMempoolId pool.expansion buf) :
    Gains umqQbufDefaultMempoolId (classes sc) pool (releasedClass config classes sc pool) := by
  unfold releasedClass
  split
  · rename_i empty
    rw [empty]
    exact valid.gains_nil
  · have released := pool.releaseBatch_gains valid belongs
    have returned := released.andThen (ClassPool.returnAbove_gains isHome_default released.valid
      (if config.disableScaleCap then qbufPoolTlsMax else pool.cache.capacity) (getBatchCount config sc))
    exact returned.andThen (ClassPool.selfShrinkWithData_gains isHome_default returned.valid)

/-! ### Runs of one key -/

/-- What the free loop looks at, for a buffer from the pool. -/
def Origin.key : Origin → PoolType × Bool
  | .normal _ | .expansion _ _ => (.normal, false)
  | .nodata | .nodataExpansion _ => (.normal, true)
  | .tiny => (.tiny, false)
  | .escape _ _ => (.escape, false)

theorem Origin.kind_iff_key {kind : Origin} : (kind.hasClass ↔ kind.key = (.normal, false)) ∧
    (kind.isNodata ↔ kind.key = (.normal, true)) ∧ (kind.isTiny ↔ kind.key = (.tiny, false)) ∧
    (kind.escapeStart.isSome ↔ kind.key = (.escape, false)) := by
  cases kind <;> simp [Origin.key, Origin.hasClass, Origin.isNodata, Origin.isTiny, Origin.escapeStart]

section Key

variable {key : PoolType × Bool} (keys : ∀ buf ∈ run, (origin buf).key = key)
include keys

theorem filter_of_key :
    run.filter (fun buf => (origin buf).isNodata) = (if key = (.normal, true) then run else []) ∧
      run.filter (fun buf => (origin buf).isTiny) = if key = (.tiny, false) then run else [] := by
  constructor <;> split <;> rename_i same
  · exact filter_eq_self.mpr fun buf mem => ((origin buf).kind_iff_key.2.1).mpr ((keys buf mem).trans same)
  · exact filter_eq_nil_iff.mpr fun buf mem is =>
      same ((keys buf mem).symm.trans (((origin buf).kind_iff_key.2.1).mp is))
  · exact filter_eq_self.mpr fun buf mem => ((origin buf).kind_iff_key.2.2.1).mpr ((keys buf mem).trans same)
  · exact filter_eq_nil_iff.mpr fun buf mem is =>
      same ((keys buf mem).symm.trans (((origin buf).kind_iff_key.2.2.1).mp is))

/-- A run that is not of the size classes leaves them alone. -/
theorem PoolsGain.of_key (other : key ≠ (.normal, false)) (valid : ListsValid pools)
    (withData : after.withData = pools.withData) (freeCount : after.freeCount = pools.freeCount)
    (rxFallback : after.rxFallbackOutstanding = pools.rxFallbackOutstanding) (rx : after.rx = pools.rx)
    (huge : after.huge = pools.huge)
    (withoutData : Gains umqQbufDefaultMempoolId (if key = (.normal, true) then run else []) pools.withoutData
      after.withoutData)
    (nodataFreeCount :
      after.nodataFreeCount = pools.nodataFreeCount + (if key = (.normal, true) then run else []).length)
    (tiny : (after.tinyCache.head ++ after.tinyGlobal.head).Perm
      ((if key = (.tiny, false) then run else []) ++ (pools.tinyCache.head ++ pools.tinyGlobal.head)))
    (tinyFreeCount : after.tinyFreeCount = pools.tinyFreeCount + (if key = (.tiny, false) then run else []).length)
    (tinyValid : TinyValid after) : PoolsGain origin pools run after := by
  have noClass : ∀ buf ∈ run, ¬ (origin buf).hasClass := fun buf mem is =>
    other ((keys buf mem).symm.trans (((origin buf).kind_iff_key.1).mp is))
  have noneOf : ∀ sc, run.filter (fun buf => (origin buf).ofClass sc) = [] := fun sc =>
    filter_eq_nil_iff.mpr fun buf mem ofClass => noClass buf mem ((Origin.hasClass_iff _).mpr ⟨sc, ofClass⟩)
  have noFallback : run.countP (fun buf => (origin buf).hasClass && buf.rxFallback) = 0 :=
    countP_eq_zero.mpr fun buf mem both => noClass buf mem (Bool.and_eq_true_iff.mp both).1
  obtain ⟨allNodata, allTiny⟩ := filter_of_key keys
  constructor
  · intro sc
    rw [noneOf, withData]
    exact (valid.withData sc).gains_nil
  · rwa [allNodata]
  · rwa [allTiny]
  · exact tinyValid
  · intro sc
    rw [countP_eq_length_filter, noneOf, freeCount]
    rfl
  · rwa [countP_eq_length_filter, allNodata]
  · rwa [countP_eq_length_filter, allTiny]
  · rw [noFallback, rxFallback]
    exact (Int.sub_zero _).symm
  · exact rx
  · exact huge

end Key

theorem freeSorted_gain (configValid : config.Valid) (valid : ListsValid pools)
    (live : ∀ buf ∈ run, LiveAs config pools buf (origin buf))
    (keys : ∀ buf ∈ run, (origin buf).key = (.normal, false)) :
    PoolsGain origin pools run (freeSorted config pools run) := by
  have belongs : ∀ sc, ∀ buf ∈ run.filter (fun buf => (origin buf).ofClass sc),
      Belongs umqQbufDefaultMempoolId (pools.withData sc).expansion buf := by
    intro sc buf mem
    obtain ⟨inRun, ofClass⟩ := mem_filter.mp mem
    exact ((live buf inRun).hasData ofClass).2
  have noLarge : ∀ sc, sc ∉ range config.blockSizes.length → run.filter (fun buf => (origin buf).ofClass sc) = [] := by
    intro sc large
    apply filter_eq_nil_iff.mpr
    intro buf mem ofClass
    exact large (mem_range.mpr ((live buf mem).hasData ofClass).1.class_lt)
  obtain ⟨noNodata, noTiny⟩ := filter_of_key keys
  unfold freeSorted
  rw [foldl_sortBuf configValid live fun buf mem => ((origin buf).kind_iff_key.1).mpr (keys buf mem)]
  simp only [Sorted.empty, Nat.zero_add]
  rw [foldl_releaseClass nodup_range]
  refine ⟨?_, ?_, ?_, ⟨valid.tiny.1, valid.tiny.2, valid.tiny.3, valid.tiny.4⟩, ?_, ?_, ?_, rfl, rfl, rfl⟩
  · intro sc
    simp only
    split
    · exact releasedClass_gains (fun sc => run.filter fun buf => (origin buf).ofClass sc) (valid.withData sc)
        (belongs sc)
    · rename_i large
      rw [noLarge sc large]
      exact (valid.withData sc).gains_nil
  · rw [noNodata]
    exact valid.withoutData.gains_nil
  · rw [noTiny]
    exact List.Perm.refl _
  · intro sc
    simp only [countP_eq_length_filter]
    split
    · rfl
    · rename_i large
      rw [noLarge sc large]
      rfl
  · rw [countP_eq_zero.mpr (filter_eq_nil_iff.mp noNodata)]
    rfl
  · rw [countP_eq_zero.mpr (filter_eq_nil_iff.mp noTiny)]
    rfl

/-! ### The other kinds -/

theorem LiveAs.nodata (live : LiveAs config pools buf kind) (key : kind.key = (.normal, true)) :
    config.mode = .split ∧ Belongs umqQbufDefaultMempoolId pools.withoutData.expansion buf := by
  cases kind with
  | nodata => exact ⟨live.1, .inl live.2.2⟩
  | nodataExpansion slotId => exact ⟨live.1, .inr live.2.2.2⟩
  | _ => cases key

theorem freeWithoutData_gain (valid : ListsValid pools)
    (live : ∀ buf ∈ run, LiveAs config pools buf (origin buf)) (keys : ∀ buf ∈ run, (origin buf).key = (.normal, true))
    {shrink : Bool} : PoolsGain origin pools run (freeWithoutData config pools run shrink) := by
  have released := pools.withoutData.releaseBatch_gains valid.withoutData fun buf mem =>
    ((live buf mem).nodata (keys buf mem)).2
  have returned := released.andThen (ClassPool.returnAbove_gains isHome_default released.valid
    (if config.disableScaleCap then qbufPoolTlsMax else pools.withoutData.cache.capacity % 2 ^ 32) qbufPoolBatchCnt)
  refine .of_key keys (by decide) valid rfl rfl rfl rfl rfl ?_ rfl (List.Perm.refl _) rfl
    ⟨valid.tiny.1, valid.tiny.2, valid.tiny.3, valid.tiny.4⟩
  cases shrink with
  | true => exact returned.andThen (ClassPool.selfShrinkWithoutData_gains isHome_default returned.valid)
  | false => exact returned

/-- Buffers of the tiny pool do not reach the slots. -/
theorem visitRuns_tiny {list : List Buf} (homed : ∀ buf ∈ list, buf.mempoolId = umqTinyQbufMempoolId)
    {pools : BufList × ExpansionPool} : (visitRuns Buf.mempoolId returnBatch list pools).2 = pools.2 := by
  apply visitRuns_induction (motive := fun _ (current : BufList × ExpansionPool) => current.2 = pools.2)
  · intro seen batch batchKey current run inside soFar
    rw [returnBatch_home (.inr rfl) fun buf mem => homed buf (inside buf mem)]
    exact soFar
  · rfl

theorem ClassPool.returnToGlobal_tiny (homed : ∀ buf ∈ pool.cache.head, buf.mempoolId = umqTinyQbufMempoolId)
    {threshold : Nat} : (pool.returnToGlobal threshold).expansion = pool.expansion ∧
      (pool.returnToGlobal threshold).cache.head ⊆ pool.cache.head := by
  unfold ClassPool.returnToGlobal
  split
  · exact ⟨visitRuns_tiny homed, nil_subset _⟩
  · split
    · exact ⟨visitRuns_tiny (fun buf mem => homed buf (mem_of_mem_drop mem)), take_subset ..⟩
    · exact ⟨rfl, List.Subset.refl _⟩

theorem Pools.setTiny_of_expansion {tiny : ClassPool} (same : tiny.expansion = (pools.withData 0).expansion) :
    pools.setTiny tiny = { pools with tinyCache := tiny.cache, tinyGlobal := tiny.global } := by
  rw [Pools.setTiny, same, update_eq_self]

theorem isHome_tiny : IsHome umqTinyQbufMempoolId := .inr rfl

theorem ListsValid.tinyClass (valid : ListsValid pools) : pools.tiny.Valid umqTinyQbufMempoolId where
  counted := valid.tiny.cacheCounted
  belongs := fun buf mem => .inl (valid.tiny.cacheHomed buf mem)
  pools := ⟨valid.tiny.globalCounted, valid.tiny.globalHomed, (valid.withData 0).pools.expansion⟩

theorem ClassPool.returnAbove_tiny (homed : ∀ buf ∈ pool.cache.head, buf.mempoolId = umqTinyQbufMempoolId)
    (cap batchCnt : Nat) : (pool.returnAbove cap batchCnt).expansion = pool.expansion ∧
      (pool.returnAbove cap batchCnt).cache.head ⊆ pool.cache.head := by
  unfold ClassPool.returnAbove
  split
  · exact ClassPool.returnToGlobal_tiny homed
  · exact ⟨rfl, List.Subset.refl _⟩

theorem LiveAs.tiny (live : LiveAs config pools buf kind) (key : kind.key = (.tiny, false)) :
    config.tinyInited ∧ buf.mempoolId = umqTinyQbufMempoolId := by
  cases kind with
  | tiny => exact ⟨live.1, live.2.2⟩
  | _ => cases key

theorem umqTinyQbufFree_gain (valid : ListsValid pools)
    (live : ∀ buf ∈ run, LiveAs config pools buf (origin buf)) (keys : ∀ buf ∈ run, (origin buf).key = (.tiny, false))
    (inited : config.tinyInited) : PoolsGain origin pools run (umqTinyQbufFree config pools run) := by
  have homed : ∀ buf ∈ run, buf.mempoolId = umqTinyQbufMempoolId := fun buf mem =>
    ((live buf mem).tiny (keys buf mem)).2
  simp only [umqTinyQbufFree, inited]
  generalize (if config.tinyBatchCount = 0 then qbufPoolBatchCnt else config.tinyBatchCount) = batchCnt
  have released := pools.tiny.releaseBatch_gains valid.tinyClass fun buf mem => .inl (homed buf mem)
  have returned :=
    released.andThen (ClassPool.returnAbove_gains isHome_tiny released.valid (config.tinyDepth % 2 ^ 32) batchCnt)
  have releasedHomed : ∀ buf ∈ (pools.tiny.releaseBatch run).cache.head, buf.mempoolId = umqTinyQbufMempoolId :=
    forall_mem_append.mpr ⟨homed, valid.tiny.cacheHomed⟩
  obtain ⟨sameSlots, subset⟩ := ClassPool.returnAbove_tiny releasedHomed (config.tinyDepth % 2 ^ 32) batchCnt
  rw [Pools.setTiny_of_expansion sameSlots]
  refine .of_key keys (by decide) valid rfl rfl rfl rfl rfl valid.withoutData.gains_nil rfl ?_ rfl
    ⟨returned.valid.counted, fun buf mem => releasedHomed buf (subset mem), returned.valid.pools.counted,
      returned.valid.pools.homed⟩
  -- the slots stand at the end of both sides
  have perm := returned.perm
  simp only [ClassPool.bufs, poolsBufs, sameSlots, ← append_assoc] at perm
  rw [← append_assoc]
  exact (perm_append_right_iff _).mp perm

/-! ## A run of a chain -/

theorem umqPoolTypeGet_has {expansion : ExpansionPool} {mempoolId : Nat} (valid : expansion.Valid)
    (has : expansion.Has mempoolId) : umqPoolTypeGet mempoolId = .normal := by
  obtain ⟨slot, mem, rfl⟩ := has
  have small := (valid.slots slot mem).small
  have bounds : 257 ≤ slot.mempoolId ∧ slot.mempoolId < 1021 := by
    simp only [Slot.mempoolId, qbufPoolExpSlotIdMin, qbufPoolExpSlotTableSize] at *
    omega
  have notTiny : slot.mempoolId ≠ umqTinyQbufMempoolId := Nat.ne_of_lt (Nat.lt_trans bounds.2 (by decide))
  have notRx : slot.mempoolId ≠ umqRxQbufMempoolId := Nat.ne_of_lt bounds.2
  have notEscape : slot.mempoolId ≠ qbufPoolMempoolIdMax := Nat.ne_of_lt (Nat.lt_trans bounds.2 (by decide))
  rw [umqPoolTypeGet, if_neg notTiny, if_neg notRx, if_neg notEscape]
  rfl

theorem LiveAs.runKey_eq (valid : ListsValid pools) (live : LiveAs config pools buf kind) : runKey buf = kind.key := by
  cases kind with
  | normal sc =>
    rw [runKey, live.1, live.2.withData]
    rfl
  | expansion sc slotId =>
    rw [runKey, umqPoolTypeGet_has (valid.withData sc).pools.expansion live.2.1, live.2.2.withData]
    rfl
  | nodata | tiny =>
    rw [runKey, live.2.2, live.2.1]
    rfl
  | nodataExpansion slotId =>
    rw [runKey, umqPoolTypeGet_has valid.withoutData.pools.expansion live.2.2.2, live.2.1]
    rfl
  | escape sc start =>
    rw [runKey, live.mempool, live.withData]
    rfl

theorem PoolsGain.listsValid (gain : PoolsGain origin before chain after) : ListsValid after :=
  ⟨fun sc => (gain.withData sc).valid, gain.withoutData.valid, gain.tinyValid⟩

/-- The slots stay, so a buffer of a list pool stays live while others are freed. -/
theorem LiveAs.of_gain (gain : PoolsGain origin before chain after) (live : LiveAs config before buf kind)
    (notEscape : kind.key ≠ (.escape, false)) : LiveAs config after buf kind := by
  have has : ∀ {one two : ExpansionPool}, two.slotList.map Slot.slotId = one.slotList.map Slot.slotId →
      one.Has buf.mempoolId → two.Has buf.mempoolId := by
    intro one two ids present
    rw [has_iff_mem_ids] at present ⊢
    rwa [ids]
  cases kind with
  | normal | nodata | tiny => exact live
  | expansion sc slotId => exact ⟨live.1, has (gain.withData sc).ids live.2.1, live.2.2⟩
  | nodataExpansion slotId => exact ⟨live.1, live.2.1, live.2.2.1, has gain.withoutData.ids live.2.2.2⟩
  | escape sc start => exact absurd rfl notEscape

theorem Origin.key_cases {origin : Origin} : origin.key = (.normal, false) ∨ origin.key = (.normal, true) ∨
    origin.key = (.tiny, false) ∨ origin.key = (.escape, false) := by
  cases origin <;> simp [Origin.key]

/-- What `umq_invalid_handle_buf_free` comes to for a run of each key. -/
theorem umqInvalidHandleBufFree_eq (configValid : config.Valid) {pools : Pools} {first : Buf} {rest : List Buf}
    (key : runKey first = kind.key) (live : LiveAs config before first kind) :
    umqInvalidHandleBufFree config pools (first :: rest) = match kind.key with
      | (.normal, false) => freeSorted config pools (first :: rest)
      | (.normal, true) => freeWithoutData config pools (first :: rest) true
      | (.tiny, _) => umqTinyQbufFree config pools (first :: rest)
      | _ => { pools with escape := escapeFree config.blockSizes pools.escape first } := by
  have type : umqPoolTypeGet first.mempoolId = kind.key.1 := congrArg Prod.fst key
  have withoutData : first.mempoolWithoutData = kind.key.2 := congrArg Prod.snd key
  have notEscape : umqPoolTypeGet first.mempoolId = .normal → first.mempoolId ≠ qbufPoolMempoolIdMax := by
    intro normal escape
    rw [escape] at normal
    cases normal
  cases kind with
  | normal | expansion =>
    simp only [umqInvalidHandleBufFree, type, Origin.key, umqQbufFree, configValid.qbufInited, notEscape type,
      withoutData]
    simp
  | nodata | nodataExpansion =>
    simp only [umqInvalidHandleBufFree, type, Origin.key, umqQbufFree, configValid.qbufInited, notEscape type,
      withoutData, (live.nodata rfl).1]
    simp
  | tiny => simp [umqInvalidHandleBufFree, type, Origin.key]
  | escape sc start =>
    simp only [umqInvalidHandleBufFree, type, Origin.key]
    simp [umqQbufFree, configValid.qbufInited, live.enabled, live.mempool]

/-- The first buffer of a run decides where the whole run goes, and that is right for
all of it. -/
theorem umqInvalidHandleBufFree_gain (configValid : config.Valid) {seen : List Buf} {batchKey : PoolType × Bool}
    (isRun : IsRun runKey seen run batchKey) (valid : ListsValid before) (gain : PoolsGain origin before seen pools)
    (live : ∀ buf ∈ run, LiveAs config before buf (origin buf)) :
    PoolsGain origin pools run (umqInvalidHandleBufFree config pools run) := by
  obtain ⟨first, rest, rfl⟩ := exists_cons_of_ne_nil isRun.nonempty
  have runKeys : ∀ buf ∈ first :: rest, runKey buf = (origin buf).key := fun buf mem => (live buf mem).runKey_eq valid
  have keys : ∀ buf ∈ first :: rest, (origin buf).key = (origin first).key := by
    intro buf mem
    rw [← runKeys buf mem, ← runKeys first mem_cons_self, isRun.sameKey buf mem, isRun.sameKey first mem_cons_self]
  have stillLive : (origin first).key ≠ (.escape, false) →
      ∀ buf ∈ first :: rest, LiveAs config pools buf (origin buf) := fun notEscape buf mem =>
    (live buf mem).of_gain gain (by rwa [keys buf mem])
  have tiny := (live first mem_cons_self).tiny
  rw [umqInvalidHandleBufFree_eq configValid (runKeys first mem_cons_self) (live first mem_cons_self)]
  rcases (origin first).key_cases with key | key | key | key <;> rw [key] at keys stillLive tiny ⊢
  · exact freeSorted_gain configValid gain.listsValid (stillLive (by decide)) keys
  · exact freeWithoutData_gain gain.listsValid (stillLive (by decide)) keys
  · exact umqTinyQbufFree_gain gain.listsValid (stillLive (by decide)) keys (tiny rfl).1
  · have lists := gain.listsValid
    exact .of_key keys (by decide) lists rfl rfl rfl rfl rfl lists.withoutData.gains_nil rfl (List.Perm.refl _) rfl
      ⟨lists.tiny.1, lists.tiny.2, lists.tiny.3, lists.tiny.4⟩

/-- Whatever the chain, its buffers with a list to go to are in the lists of their pools. -/
theorem umqBufFree_gain (configValid : config.Valid) (valid : ListsValid pools)
    (live : ∀ buf ∈ chain, LiveAs config pools buf (origin buf)) :
    PoolsGain origin pools chain (umqBufFree config pools chain) := by
  rw [umqBufFree, if_pos configValid.umqInited]
  apply visitRuns_induction (motive := fun seen current => PoolsGain origin pools seen current)
  · intro seen batch batchKey current isRun inside soFar
    exact soFar.trans (umqInvalidHandleBufFree_gain configValid isRun valid soFar fun buf mem =>
      live buf (inside buf mem))
  · exact .refl valid

end UbsComm.Qbuf
