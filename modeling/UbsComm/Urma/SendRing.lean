import UbsComm.Library.Masks
import UbsComm.Library.Run
import UbsComm.Library.Spans

/-! # The contiguous allocator of the send ring

`UrmaSockContinuousBuf` over `UrmaSockRingBuf`: the ring gives out bytes in order and takes them back in
order, and an allocation that would go over the end of the buffer is turned into one at offset 0, its part
at the end being padding that one word remembers.  All arithmetic is that of 64-bit words. -/

namespace UbsComm.Urma

open Library

def kChunkSize : Nat := 64

def kMaxCapacity : Nat := 4 * 1024 * 1024

/-- `(size + kChunkSize - 1) & ~(kChunkSize - 1)`. -/
def alignChunk (size : Nat) : Nat := maskUp 64 size kChunkSize

/-! ## The ring -/

structure UrmaSockRingBuf where
  capacity : Nat
  allocTail : Nat
  reclaimTail : Nat
  bitmap : Nat → Bool

def validateArgs (capacity : Nat) : Bool :=
  !(capacity == 0 || decide (capacity > kMaxCapacity)) && !(capacity &&& (capacity - 1) != 0) &&
    !(capacity % kChunkSize != 0)

namespace UrmaSockRingBuf

def new (capacity : Nat) : UrmaSockRingBuf := ⟨capacity, 0, 0, fun _ => false⟩

variable (ring : UrmaSockRingBuf)

def capMask : Nat := ring.capacity - 1

def numChunks : Nat := ring.capacity / kChunkSize

/-- The offset of the allocation, none if there is no room. -/
def allocate (size : Nat) : UrmaSockRingBuf × Option Nat :=
  let aligned := alignChunk size
  if (sub64 ring.allocTail ring.reclaimTail + aligned) % 2 ^ 64 > ring.capacity then (ring, none)
  else ({ ring with allocTail := (ring.allocTail + aligned) % 2 ^ 64 }, some (ring.allocTail &&& ring.capMask))

/-- The size allocated and the offset. -/
def allocateRange (minSize maxSize : Nat) : UrmaSockRingBuf × Nat × Nat :=
  let alignedMin := alignChunk minSize
  let alignedMax := alignChunk maxSize
  let available := sub64 ring.capacity (sub64 ring.allocTail ring.reclaimTail)
  if available < alignedMin then (ring, 0, 0)
  else
    let allocated := if available < alignedMax then available else alignedMax
    ({ ring with allocTail := (ring.allocTail + allocated) % 2 ^ 64 }, allocated, ring.allocTail &&& ring.capMask)

def chunkIndex (logicalPos : Nat) : Nat := (logicalPos &&& ring.capMask) >>> 6

/-- Sets the flags of `count` chunks. -/
def markReleased (ring : UrmaSockRingBuf) (startChunk : Nat) : Nat → Nat → Bool
  | 0 => ring.bitmap
  | count + 1 =>
    Function.update (markReleased ring startChunk count) ((startChunk + count) &&& (ring.numChunks - 1)) true

/-- The loop of `Release` over the flags at the reclaim tail; it moves up by a chunk in each round. -/
def reclaimLoop (ring : UrmaSockRingBuf) : Nat → Nat → (Nat → Bool) → Nat × (Nat → Bool)
  | 0, pos, bitmap => (pos, bitmap)
  | fuel + 1, pos, bitmap =>
    if pos < ring.allocTail ∧ bitmap (ring.chunkIndex pos) = true then
      reclaimLoop ring fuel (pos + kChunkSize) (Function.update bitmap (ring.chunkIndex pos) false)
    else (pos, bitmap)

def release (offset size : Nat) : UrmaSockRingBuf :=
  let marked := ring.markReleased (offset / kChunkSize) (alignChunk size / kChunkSize)
  let front := ring.reclaimLoop ((ring.allocTail - ring.reclaimTail) / kChunkSize) ring.reclaimTail marked
  { ring with reclaimTail := front.1, bitmap := front.2 }

def available : Nat := sub64 ring.capacity (sub64 ring.allocTail ring.reclaimTail)

def used : Nat := sub64 ring.capacity ring.available

end UrmaSockRingBuf

/-! ## Contiguous allocations -/

/-- `laterRelease` are the nodes of the list that is kept in the ranges to be released later. -/
structure UrmaSockContinuousBuf where
  base : UrmaSockRingBuf
  laterRelease : List (Nat × Nat)
  wrapEndOffset : Nat

namespace UrmaSockContinuousBuf

def new (capacity : Nat) : UrmaSockContinuousBuf := ⟨.new capacity, [], 0⟩

variable (buf : UrmaSockContinuousBuf)

def used : Nat := buf.base.used

/-- The offset of the allocation, none for a failure. -/
def allocate (buf : UrmaSockContinuousBuf) (size : Nat) : UrmaSockContinuousBuf × Option Nat :=
  match buf.base.allocate size with
  | (_, none) => (buf, none)
  | (base, some baseOffset) =>
    if (baseOffset + size) % 2 ^ 64 ≤ base.capacity then ({ buf with base }, some baseOffset)
    else
      let endSize := sub64 base.capacity baseOffset
      let wrapSize := sub64 size endSize
      match base.allocate endSize with
      | (_, none) => ({ buf with base, laterRelease := (baseOffset, size) :: buf.laterRelease }, none)
      | (base, some appendOffset) =>
        if appendOffset ≠ wrapSize then
          ({ buf with base, laterRelease := (baseOffset, size) :: (appendOffset, endSize) :: buf.laterRelease }, none)
        else ({ buf with base, wrapEndOffset := baseOffset }, some 0)

/-- The size, 0 for a failure, and the offset. -/
def allocateRange (minSize maxSize : Nat) : UrmaSockContinuousBuf × Nat × Nat :=
  match buf.base.allocateRange minSize maxSize with
  | (base, successSize, baseOffset) =>
    let buf := { buf with base }
    if successSize < minSize then (buf, 0, 0)
    else if (baseOffset + successSize) % 2 ^ 64 ≤ base.capacity then (buf, successSize, baseOffset)
    else
      let endSize := sub64 base.capacity baseOffset
      let wrapSize := sub64 successSize endSize
      if successSize < maxSize then
        if wrapSize < minSize then ({ buf with laterRelease := (baseOffset, successSize) :: buf.laterRelease }, 0, 0)
        else ({ buf with wrapEndOffset := baseOffset }, wrapSize, 0)
      else
        match base.allocate endSize with
        | (_, none) => ({ buf with wrapEndOffset := baseOffset }, wrapSize, 0)
        | (base, some appendOffset) =>
          if appendOffset ≠ wrapSize then ({ buf with base, wrapEndOffset := baseOffset }, wrapSize, 0)
          else ({ buf with base, wrapEndOffset := baseOffset }, successSize, 0)

def releaseAllLaterNodes : UrmaSockContinuousBuf :=
  { buf with base := buf.laterRelease.foldl (fun base node => base.release node.1 node.2) buf.base, laterRelease := [] }

def release (offset size : Nat) : UrmaSockContinuousBuf :=
  let buf := buf.releaseAllLaterNodes
  if offset = 0 then
    if buf.wrapEndOffset ≠ 0 then
      { buf with
        base := buf.base.release buf.wrapEndOffset ((size + sub64 buf.base.capacity buf.wrapEndOffset) % 2 ^ 64)
        wrapEndOffset := 0 }
    else { buf with base := buf.base.release 0 size }
  else { buf with base := buf.base.release offset size }

end UrmaSockContinuousBuf

/-! ## Runs -/

/-- An allocation as the caller sees it; `place` is the number of its first chunk since the beginning. -/
structure LiveBlock where
  offset : Nat
  size : Nat
  place : Nat
deriving DecidableEq

instance neZero_64 : NeZero (2 ^ 64) := ⟨by decide⟩

inductive RingCall where
  | allocate (size : Fin (2 ^ 64))
  | allocateRange (minSize maxSize : Fin (2 ^ 64))
  /-- The release of the allocation at this place of the list of live ones. -/
  | release (index : Nat)

/-- What a call reported, with `Used` before and after it. -/
structure CallReport where
  call : RingCall
  granted : Option Nat
  usedBefore : Nat
  usedAfter : Nat

structure SendRing where
  buf : UrmaSockContinuousBuf
  live : List LiveBlock
  reports : List CallReport

namespace SendRing

def new (capacity : Nat) : SendRing := ⟨.new capacity, [], []⟩

variable (ring : SendRing)

def used : Nat := ring.buf.used

def available : Nat := ring.buf.base.available

/-- The first chunk at or behind the tail that has the offset. -/
def placeAt (base : UrmaSockRingBuf) (offset : Nat) : Nat :=
  (base.allocTail + (offset + base.capacity - base.allocTail % base.capacity) % base.capacity) / kChunkSize

/-- The state after a call that allocated, or failed to. -/
def report (call : RingCall) (buf : UrmaSockContinuousBuf) (granted : Option (Nat × Nat)) : SendRing where
  buf := buf
  live :=
    match granted with
    | none => ring.live
    | some (offset, size) => ⟨offset, size, placeAt ring.buf.base offset⟩ :: ring.live
  reports := ⟨call, granted.map (·.2), ring.used, buf.used⟩ :: ring.reports

def step : RingCall → SendRing
  | .allocate size =>
    ring.report (.allocate size) (ring.buf.allocate size).1
      ((ring.buf.allocate size).2.map fun offset => (offset, size.val))
  | .allocateRange minSize maxSize =>
    ring.report (.allocateRange minSize maxSize) (ring.buf.allocateRange minSize maxSize).1
      (if (ring.buf.allocateRange minSize maxSize).2.1 = 0 then none
      else some ((ring.buf.allocateRange minSize maxSize).2.2, (ring.buf.allocateRange minSize maxSize).2.1))
  | .release index =>
    match ring.live[index]? with
    | none => ring
    | some block => { ring with buf := ring.buf.release block.offset block.size, live := ring.live.eraseIdx index }

def Disjoint (block other : LiveBlock) : Prop :=
  ∀ address, ¬ ((block.offset ≤ address ∧ address < block.offset + block.size) ∧
    other.offset ≤ address ∧ address < other.offset + other.size)

/-- A size that the ranged form granted is between the two, and a failure leaves `Used` as it was. -/
def CallReport.Right (report : CallReport) : Prop :=
  (report.granted = none → report.usedAfter = report.usedBefore) ∧
    match report.call, report.granted with
    | .allocateRange minSize maxSize, some size => minSize.val ≤ size ∧ size ≤ maxSize.val
    | _, _ => True

structure Right : Prop where
  inRegion : ∀ block ∈ ring.live, block.offset + block.size ≤ ring.buf.base.capacity
  disjoint : ring.live.Pairwise Disjoint
  reports : ∀ report ∈ ring.reports, CallReport.Right report
  used : ring.live = [] → ring.used = 0

/-! ## When the calls do what they should -/

def inUse : Nat := ring.buf.base.allocTail - ring.buf.base.reclaimTail

def toEnd : Nat := ring.buf.base.capacity - ring.buf.base.allocTail % ring.buf.base.capacity

/-- What the ring grants to the ranged form. -/
def rangeGrant (maxSize : Nat) : Nat := min (ring.buf.base.capacity - ring.inUse) (alignChunk maxSize)

/-- The words do not overflow, and an allocation that would go over the end of the buffer is made of whole
    chunks and has room for the padding too. -/
def CarefulAllocate (size : Nat) : Prop :=
  ring.inUse + size + 63 < 2 ^ 64 ∧ ring.buf.base.allocTail + 2 * ring.buf.base.capacity < 2 ^ 64 ∧
    (ring.inUse + alignChunk size ≤ ring.buf.base.capacity → ring.toEnd < size →
      kChunkSize ∣ size ∧ ring.inUse + size + ring.toEnd ≤ ring.buf.base.capacity)

/-- If the ring has room for the minimum and grants anything, then the minimum is not above the maximum, what is
    granted is not above it either, and where it goes over the end and cannot be extended, it is not below the
    minimum without the padding. -/
def CarefulRange (minSize maxSize : Nat) : Prop :=
  ring.buf.base.allocTail + 2 * ring.buf.base.capacity < 2 ^ 64 ∧
    (ring.inUse + alignChunk minSize ≤ ring.buf.base.capacity → 0 < ring.rangeGrant maxSize →
      minSize ≤ maxSize ∧
      if ring.toEnd < ring.rangeGrant maxSize ∧ (ring.rangeGrant maxSize < maxSize ∨
          ring.buf.base.capacity < ring.inUse + ring.rangeGrant maxSize + ring.toEnd) then
        minSize + ring.toEnd ≤ ring.rangeGrant maxSize
      else ring.rangeGrant maxSize ≤ maxSize)

def Careful : RingCall → Prop
  | .allocate size => ring.CarefulAllocate size
  | .allocateRange minSize maxSize => ring.CarefulRange minSize maxSize
  | .release _ => True

instance (call) : Decidable (ring.Careful call) := by
  cases call <;> dsimp only [Careful, CarefulAllocate, CarefulRange] <;> infer_instance

end SendRing

end UbsComm.Urma
