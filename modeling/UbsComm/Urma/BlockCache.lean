import UbsComm.Library.Links
import UbsComm.Library.Masks
import UbsComm.Library.Run
import Mathlib.Data.List.Count

/-! # The zero-copy block cache

`BlockCache` keeps received blocks until a reader asks for them.  A cut moves blocks from the cache to the
chain behind a block of the reader; a block cut in part stays as `partial_block_`, with its capacity set to
what the reader may see and one more reference.  The links are modelled as the source has them: the cache's
own list and the output chains go through the same `portal_next`. -/

namespace UbsComm.Urma

open Library Function

/-- The header of a cached block.  The readers of the output chains move `size`. -/
structure CacheBlock where
  size : Nat
  cap : Nat
  -- an `int`; each reference but the first is of a cut of one byte or more, and a block has fewer than 2^31
  nshared : Nat

/-- A block of the cache, or one of the reader. -/
inductive BlockPtr where
  | cached (block : Nat)
  | outside (block : Nat)
deriving DecidableEq

def BlockPtr.cached? : BlockPtr → Option Nat
  | .cached block => some block
  | .outside _ => none

structure BlockRef where
  offset : Nat
  length : Nat
  block : Nat

/-- The cache and the block headers in memory.  The blocks inserted so far are those below `count`. -/
structure BlockCache where
  partialBlock : Option BlockRef := none
  headBlock : Option Nat := none
  tailBlock : Option Nat := none
  cacheLen : Nat := 0
  count : Nat := 0
  blocks : Nat → CacheBlock := fun _ => ⟨0, 0, 0⟩
  next : BlockPtr → Option BlockPtr := fun _ => none

/-- A `uint32_t` that is not 0. -/
def Size : Type := { size : Nat // 0 < size ∧ size < 2 ^ 32 }

namespace BlockCache

variable (cache : BlockCache)

def setNext (ptr : BlockPtr) (target : Option BlockPtr) : BlockCache :=
  { cache with next := update cache.next ptr target }

def modifyBlock (block : Nat) (change : CacheBlock → CacheBlock) : BlockCache :=
  { cache with blocks := update cache.blocks block (change (cache.blocks block)) }

def incRef (header : CacheBlock) : CacheBlock := { header with nshared := header.nshared + 1 }

def decRef (header : CacheBlock) : CacheBlock := { header with nshared := header.nshared - 1 }

/-! ## The three calls -/

def insert (dataSize : Nat) : BlockCache :=
  let newBlock := cache.count
  let created :=
    { cache with
      count := newBlock + 1
      blocks := update cache.blocks newBlock ⟨0, dataSize, 1⟩
      next := update cache.next (.cached newBlock) none }
  let linked :=
    match cache.headBlock, cache.tailBlock with
    | some _, some tail => { created.setNext (.cached tail) (some (.cached newBlock)) with tailBlock := some newBlock }
    | _, _ => { created with headBlock := some newBlock, tailBlock := some newBlock }
  { linked with cacheLen := (cache.cacheLen + dataSize) % 2 ^ 64 }

def cutPartialBlock (ref : BlockRef) (cutSize : Nat) : BlockCache × Nat :=
  if cutSize ≥ ref.length then
    ({ cache.modifyBlock ref.block (fun header => { header with cap := (header.cap + ref.length) % 2 ^ 32 }) with
        partialBlock := none }, ref.length)
  else
    ({ cache.modifyBlock ref.block
          (fun header => incRef { header with cap := (header.cap + cutSize) % 2 ^ 32 }) with
        partialBlock := some ⟨(ref.offset + cutSize) % 2 ^ 32, ref.length - cutSize, ref.block⟩ }, cutSize)

structure Scan where
  rxTotalLen : Nat
  lastCacheBlock : Option Nat
  newPartial : Option BlockRef

/-- The `do … while` loop over the cache's list. -/
def scan (cache : BlockCache) (cutSize : Nat) : Nat → Nat → Option Nat → Nat → Scan
  | 0, rxTotalLen, lastCacheBlock, _ => ⟨rxTotalLen, lastCacheBlock, none⟩
  | fuel + 1, rxTotalLen, lastCacheBlock, cacheBlock =>
    let cap := (cache.blocks cacheBlock).cap
    if (rxTotalLen + cap) % 2 ^ 32 < cutSize then
      match (cache.next (.cached cacheBlock)).bind BlockPtr.cached? with
      | some following => scan cache cutSize fuel ((rxTotalLen + cap) % 2 ^ 32) (some cacheBlock) following
      | none => ⟨(rxTotalLen + cap) % 2 ^ 32, some cacheBlock, none⟩
    else if rxTotalLen < cutSize then
      -- blocks behind the first one are not cut
      if rxTotalLen ≠ 0 then ⟨rxTotalLen, lastCacheBlock, none⟩
      else ⟨cutSize, some cacheBlock, some ⟨cutSize, cap - cutSize, cacheBlock⟩⟩
    else ⟨rxTotalLen, lastCacheBlock, none⟩

/-- The first block becomes the partial one: it may be seen up to the cut, and the output chain gets a reference. -/
def keepPartial : Option BlockRef → BlockCache
  | none => cache
  | some ref =>
    { cache.modifyBlock ref.block (fun header => incRef { header with cap := ref.offset }) with
      partialBlock := some ref }

/-- The list up to the last scanned block goes behind `outBlockTail`. -/
def spliceOut (outBlockTail : BlockPtr) (outSecBlock : Option BlockPtr) : Option Nat → BlockCache
  | none => cache.setNext outBlockTail outSecBlock
  | some lastBlock =>
    let spliced := cache.setNext outBlockTail (cache.headBlock.map .cached)
    let moved := { spliced with headBlock := (spliced.next (.cached lastBlock)).bind BlockPtr.cached? }
    moved.setNext (.cached lastBlock) outSecBlock

def charge (rxTotalLen : Nat) : BlockCache × Nat :=
  ({ cache with cacheLen := sub64 cache.cacheLen rxTotalLen }, rxTotalLen)

/-- The part of the cut that takes from the cache's list. -/
def cutList (cutSize rxTotalLen : Nat) (outBlockTail : BlockPtr) (outSecBlock : Option BlockPtr) :
    BlockCache × Nat :=
  match cache.headBlock with
  | none => (cache.setNext outBlockTail outSecBlock).charge rxTotalLen
  | some head =>
    let found := cache.scan cutSize cache.count rxTotalLen none head
    ((cache.keepPartial found.newPartial).spliceOut outBlockTail outSecBlock found.lastCacheBlock).charge
      found.rxTotalLen

/-- The cut of a cache that has bytes, behind a block that is there. -/
def cutAfter (cutSize : Nat) (block : BlockPtr) : BlockCache × Nat :=
  let outSecBlock := cache.next block
  let opened := cache.setNext block none
  match cache.partialBlock with
  | none => opened.cutList cutSize 0 block outSecBlock
  | some ref =>
    let cut := (opened.setNext block (some (.cached ref.block))).cutPartialBlock ref cutSize
    match cut.1.partialBlock with
    | some _ => (cut.1.setNext (.cached ref.block) outSecBlock).charge cut.2
    | none => cut.1.cutList cutSize cut.2 (.cached ref.block) outSecBlock

def cutAndInsertAfter (cutSize : Nat) : Option BlockPtr → BlockCache × Nat
  | none => (cache, 0)
  | some block => if cache.cacheLen = 0 then (cache, 0) else cache.cutAfter cutSize block

/-- The blocks of the cache on the chain behind a pointer, and where the chain leaves the cache. -/
def chainFrom (next : BlockPtr → Option BlockPtr) : Nat → Option BlockPtr → List Nat × Option BlockPtr
  | 0, target => ([], target)
  | fuel + 1, some (.cached block) =>
    let behind := chainFrom next fuel (next (.cached block))
    (block :: behind.1, behind.2)
  | _ + 1, target => ([], target)

def listed : List Nat := (chainFrom cache.next cache.count (cache.headBlock.map .cached)).1

/-- The part of the flush that is about the partial block. -/
def dropPartial : BlockCache :=
  match cache.partialBlock with
  | some ref => { cache.modifyBlock ref.block decRef with partialBlock := none }
  | none => cache

def flush : BlockCache :=
  match cache.headBlock with
  | some _ =>
    { cache.listed.foldl (fun cache block => cache.modifyBlock block decRef) cache.dropPartial with
      headBlock := none, tailBlock := none, cacheLen := 0 }
  | none => cache.dropPartial

end BlockCache

/-! ## A run of calls -/

/-- A byte that was inserted: its block and its place there. -/
abbrev CachedByte := Nat × Nat

/-- The bytes that a reader sees on one block of an output chain. -/
structure OutRange where
  block : Nat
  start : Nat
  stop : Nat
deriving DecidableEq

def bytesBetween (block start stop : Nat) : List CachedByte := (List.range' start (stop - start)).map (block, ·)

def OutRange.bytes (range : OutRange) : List CachedByte := bytesBetween range.block range.start range.stop

/-- What one cut did: the bytes waiting before it, what it appended, and where the output chain goes on. -/
structure CutReport where
  cutSize : Nat
  waiting : List CachedByte
  ranges : List OutRange
  returned : Nat
  chainEnd : Option BlockPtr
  outSecBlock : Option BlockPtr

/-- The cache with what its calls did so far: the bytes inserted and not yet cut, the blocks that output chains
    refer to, once for each time they were appended, and the cuts. -/
structure CacheRun where
  cache : BlockCache := {}
  waiting : List CachedByte := []
  held : List Nat := []
  cuts : List CutReport := []

inductive CacheCall where
  | insert (dataSize : Size)
  /-- The chain goes in between a block of the reader and the one behind it. -/
  | cutAndInsertAfter (cutSize : Size) (block : Nat) (outSecBlock : Option Nat)
  | cutNowhere (cutSize : Size)
  | flush
  /-- A reader drops its reference to a block of an output chain. -/
  | drop (block : Nat)

namespace CacheRun

variable (cache : BlockCache)

/-- The readers have seen every block of the chain up to its capacity. -/
def markRead (chain : List Nat) : BlockCache :=
  { cache with
    blocks := fun block =>
      if block ∈ chain then { cache.blocks block with size := (cache.blocks block).cap } else cache.blocks block }

variable (state : CacheRun)

def cut (cutSize : Nat) (block : BlockPtr) (outSecBlock : Option BlockPtr) : CacheRun :=
  let result := (state.cache.setNext block outSecBlock).cutAndInsertAfter cutSize (some block)
  let chain := BlockCache.chainFrom result.1.next result.1.count (result.1.next block)
  let ranges := chain.1.map fun block => OutRange.mk block (result.1.blocks block).size (result.1.blocks block).cap
  { cache := markRead result.1 chain.1
    waiting := state.waiting.drop result.2
    held := state.held ++ chain.1
    cuts := state.cuts ++ [⟨cutSize, state.waiting, ranges, result.2, chain.2, outSecBlock⟩] }

def step : CacheCall → CacheRun
  | .insert dataSize =>
    { state with
      cache := state.cache.insert dataSize.val
      waiting := state.waiting ++ bytesBetween state.cache.count 0 dataSize.val }
  | .cutAndInsertAfter cutSize block outSecBlock =>
    state.cut cutSize.val (.outside block) (outSecBlock.map .outside)
  | .cutNowhere cutSize => { state with cache := (state.cache.cutAndInsertAfter cutSize.val none).1 }
  | .flush => { state with cache := state.cache.flush, waiting := [] }
  | .drop block =>
    if block ∈ state.held then
      { state with cache := state.cache.modifyBlock block BlockCache.decRef, held := state.held.erase block }
    else state

/-- A cut appends the next waiting bytes, at most as many as asked for and at least one if there are any, on
    ranges that are not empty, and returns their number; the output chain goes on behind them. -/
structure CutRight (report : CutReport) : Prop where
  bytes : report.ranges.flatMap OutRange.bytes = report.waiting.take report.returned
  length : (report.ranges.flatMap OutRange.bytes).length = report.returned
  nonempty : ∀ range ∈ report.ranges, range.start < range.stop
  atMost : report.returned ≤ report.cutSize
  progress : report.waiting ≠ [] → 0 < report.returned
  chain : report.chainEnd = report.outSecBlock

def entries (block : Nat) : Nat :=
  (if cache.partialBlock.map BlockRef.block = some block then 1 else 0) + cache.listed.count block

structure Right : Prop where
  cuts : ∀ report ∈ state.cuts, CutRight report
  cacheLen : state.cache.cacheLen = state.waiting.length
  references : ∀ block < state.cache.count,
    (state.cache.blocks block).nshared = state.held.count block + entries state.cache block

/-! ## When the calls do what they should -/

/-- A sum of the scan that goes around is not taken for one below the cut. -/
def NoOverflow (cutSize : Nat) : Nat → List Nat → Prop
  | _, [] => True
  | rxTotalLen, cap :: caps =>
    (rxTotalLen + cap) % 2 ^ 32 < cutSize → rxTotalLen + cap < 2 ^ 32 ∧ NoOverflow cutSize (rxTotalLen + cap) caps

instance NoOverflow.decidable (cutSize : Nat) : ∀ rxTotalLen caps, Decidable (NoOverflow cutSize rxTotalLen caps)
  | _, [] => .isTrue trivial
  | rxTotalLen, cap :: caps =>
    have := NoOverflow.decidable cutSize (rxTotalLen + cap) caps
    inferInstanceAs (Decidable (_ → _ ∧ _))

def caps : List Nat := cache.listed.map fun block => (cache.blocks block).cap

/-- The partial block of a cache that holds bytes is not an empty rest, and the sums of the scan do not overflow. -/
def CarefulCut (cutSize : Nat) : Option BlockRef → Prop
  | none => NoOverflow cutSize 0 (caps cache)
  | some ref => 0 < ref.length ∧ (ref.length ≤ cutSize → NoOverflow cutSize ref.length (caps cache))

instance (cutSize : Nat) (ref) : Decidable (CarefulCut cache cutSize ref) := by
  cases ref <;> dsimp only [CarefulCut] <;> infer_instance

/-- The count of the cached bytes does not overflow, a cut is careful, and a flush meets a list or no bytes. -/
def Careful : CacheCall → Prop
  | .insert dataSize => state.cache.cacheLen + dataSize.val < 2 ^ 64
  | .cutAndInsertAfter cutSize _ _ =>
    state.cache.cacheLen ≠ 0 → CarefulCut state.cache cutSize.val state.cache.partialBlock
  | .flush => state.cache.headBlock = none → state.cache.cacheLen = 0
  | .cutNowhere _ | .drop _ => True

instance (call) : Decidable (Careful state call) := by
  cases call <;> dsimp only [Careful] <;> infer_instance

end CacheRun

end UbsComm.Urma
