import UbsComm.Library.ChunkRing
import UbsComm.Urma.SendRing
import Mathlib.Data.List.Perm.Basic

/-! # The allocations of the send ring

The ring of bytes is a ring of chunks.  What is held of it are the live blocks and, while a block that went
over the end is live, the padding in front of it. -/

namespace UbsComm.Urma

open Library List

/-! ## Words and chunks -/

theorem alignChunk_eq {size : Nat} : alignChunk size = (size + 63) % 2 ^ 64 / 64 * 64 := by
  exact @maskDown_two_pow 64 ((size + 63) % 2 ^ 64) 6 (by decide) (Nat.mod_lt _ (by decide))

def chunks (size : Nat) : Nat := alignChunk size / kChunkSize

theorem alignChunk_eq_chunks (size : Nat) : alignChunk size = 64 * chunks size := by
  rw [chunks, alignChunk_eq, kChunkSize]
  omega

variable {size : Nat}

theorem alignChunk_bounds (small : size + 63 < 2 ^ 64) : size ≤ alignChunk size ∧ alignChunk size < size + 64 := by
  rw [alignChunk_eq]
  omega

theorem alignChunk_mul {count : Nat} (small : 64 * count + 63 < 2 ^ 64) : alignChunk (64 * count) = 64 * count := by
  rw [alignChunk_eq]
  omega

namespace UrmaSockRingBuf

variable {base : UrmaSockRingBuf} {size offset count : Nat}

def chunkRing (base : UrmaSockRingBuf) : ChunkRing where
  size := base.numChunks
  reclaimed := base.reclaimTail / 64
  taken := base.allocTail / 64
  marked := base.bitmap

structure Sound (base : UrmaSockRingBuf) : Prop where
  capacity : ∃ k ≤ 16, base.capacity = 2 ^ (k + 6)
  taken : 64 ∣ base.allocTail
  reclaimed : 64 ∣ base.reclaimTail
  small : base.allocTail < 2 ^ 64

section Sound

variable (sound : base.Sound)
include sound

theorem Sound.numChunks : ∃ k ≤ 16, base.numChunks = 2 ^ k ∧ base.capacity = 64 * 2 ^ k := by
  obtain ⟨k, le, capacity⟩ := sound.capacity
  have product : 2 ^ (k + 6) = 64 * 2 ^ k := by rw [Nat.pow_add, Nat.mul_comm]
  refine ⟨k, le, ?_, capacity.trans product⟩
  rw [UrmaSockRingBuf.numChunks, capacity, product, kChunkSize, Nat.mul_div_cancel_left _ (by decide)]

theorem Sound.capacity_eq : base.capacity = 64 * base.numChunks := by
  obtain ⟨k, -, numChunks, capacity⟩ := sound.numChunks
  rw [numChunks, capacity]

theorem Sound.numChunks_pos : 0 < base.numChunks := by
  obtain ⟨k, -, numChunks, -⟩ := sound.numChunks
  rw [numChunks]
  exact Nat.two_pow_pos k

theorem Sound.capacity_le : base.capacity ≤ 2 ^ 22 := by
  obtain ⟨k, le, capacity⟩ := sound.capacity
  rw [capacity]
  exact Nat.pow_le_pow_right (by decide) (by omega)

theorem Sound.and_capMask {position : Nat} : position &&& base.capMask = position % base.capacity := by
  obtain ⟨k, -, capacity⟩ := sound.capacity
  rw [capMask, capacity, Nat.and_two_pow_sub_one_eq_mod]

theorem Sound.and_numChunks {chunk : Nat} : chunk &&& (base.numChunks - 1) = chunk % base.numChunks := by
  obtain ⟨k, -, numChunks, -⟩ := sound.numChunks
  rw [numChunks, Nat.and_two_pow_sub_one_eq_mod]

theorem Sound.tail_mod : base.allocTail % base.capacity = 64 * (base.allocTail / 64 % base.numChunks) := by
  obtain ⟨taken, tail⟩ := sound.taken
  rw [sound.capacity_eq, tail, Nat.mul_mod_mul_left, Nat.mul_div_cancel_left _ (by decide)]

theorem Sound.chunkIndex {chunk : Nat} : base.chunkIndex (64 * chunk) = chunk % base.numChunks := by
  rw [UrmaSockRingBuf.chunkIndex, sound.and_capMask, sound.capacity_eq, Nat.mul_mod_mul_left, Nat.shiftRight_eq_div_pow]
  exact Nat.mul_div_cancel_left _ (by decide)

/-! ## Releasing -/

theorem Sound.markReleased {startChunk count : Nat} :
    base.markReleased startChunk count = ChunkRing.markFrom base.numChunks startChunk base.bitmap count := by
  induction count with
  | zero => rfl
  | succ count ih =>
    rw [UrmaSockRingBuf.markReleased, ChunkRing.markFrom, ih, sound.and_numChunks]

theorem Sound.reclaimLoop (fuel chunk : Nat) (bitmap : Nat → Bool) :
    base.reclaimLoop fuel (64 * chunk) bitmap =
      (64 * (ChunkRing.advance base.numChunks (base.allocTail / 64) fuel chunk bitmap).1,
        (ChunkRing.advance base.numChunks (base.allocTail / 64) fuel chunk bitmap).2) := by
  obtain ⟨taken, takenEq⟩ := sound.taken
  induction fuel generalizing chunk bitmap with
  | zero => rfl
  | succ fuel ih =>
    have below : 64 * chunk < base.allocTail ↔ chunk < base.allocTail / 64 := by omega
    have next : 64 * chunk + kChunkSize = 64 * (chunk + 1) := by
      rw [kChunkSize]
      omega
    rw [UrmaSockRingBuf.reclaimLoop, ChunkRing.advance, sound.chunkIndex, next, ih]
    simp only [below]
    split <;> rfl

theorem Sound.release (chunk : Nat) (size : Nat) :
    (base.release (64 * chunk) size).chunkRing = base.chunkRing.release chunk (chunks size) ∧
      (base.release (64 * chunk) size).Sound ∧ (base.release (64 * chunk) size).capacity = base.capacity ∧
      (base.release (64 * chunk) size).allocTail = base.allocTail := by
  have start : 64 * chunk / kChunkSize = chunk := Nat.mul_div_cancel_left _ (by decide)
  obtain ⟨reclaimed, reclaimedEq⟩ := sound.reclaimed
  have fuel : (base.allocTail - base.reclaimTail) / kChunkSize = base.allocTail / 64 - base.reclaimTail / 64 := by
    rw [kChunkSize]
    omega
  have whole : base.reclaimTail = 64 * (base.reclaimTail / 64) := by omega
  have loop := sound.reclaimLoop ((base.allocTail - base.reclaimTail) / kChunkSize) (base.reclaimTail / 64)
    (base.markReleased (64 * chunk / kChunkSize) (chunks size))
  rw [← whole, start, sound.markReleased, fuel] at loop
  unfold UrmaSockRingBuf.release
  dsimp only
  rw [start, fuel, sound.markReleased, ← chunks, loop]
  refine ⟨?_, { sound with reclaimed := Nat.dvd_mul_right _ _ }, rfl, rfl⟩
  unfold chunkRing ChunkRing.release
  rw [Nat.mul_div_cancel_left _ (by decide)]
  rfl

/-! ## Allocating -/

variable {padding : List Span} {held : Nat → Prop}

theorem Sound.inUse (holds : base.chunkRing.Holds held) :
    base.reclaimTail ≤ base.allocTail ∧ base.allocTail - base.reclaimTail ≤ base.capacity ∧
      base.allocTail - base.reclaimTail = 64 * (base.allocTail / 64 - base.reclaimTail / 64) := by
  have le : base.reclaimTail / 64 ≤ base.allocTail / 64 := holds.le
  have window : base.allocTail / 64 ≤ base.reclaimTail / 64 + base.numChunks := holds.window
  have capacity := sound.capacity_eq
  obtain ⟨taken, takenEq⟩ := sound.taken
  obtain ⟨reclaimed, reclaimedEq⟩ := sound.reclaimed
  omega

theorem Sound.take (room : base.allocTail + 64 * count < 2 ^ 64) :
    ({ base with allocTail := base.allocTail + 64 * count } : UrmaSockRingBuf).Sound ∧
      ({ base with allocTail := base.allocTail + 64 * count } : UrmaSockRingBuf).chunkRing =
        base.chunkRing.take count := by
  refine ⟨{ sound with taken := Nat.dvd_add sound.taken (Nat.dvd_mul_right _ _), small := room }, ?_⟩
  unfold chunkRing ChunkRing.take
  rw [Nat.add_mul_div_left _ _ (by decide)]
  rfl

variable (holds : base.chunkRing.Holds held)
include holds

theorem Sound.used :
    base.available = base.capacity - (base.allocTail - base.reclaimTail) ∧
      base.used = base.allocTail - base.reclaimTail := by
  obtain ⟨le, fits, -⟩ := sound.inUse holds
  have available : base.available = base.capacity - (base.allocTail - base.reclaimTail) := by
    rw [UrmaSockRingBuf.available, sub64_eq le, sub64_eq fits]
  refine ⟨available, ?_⟩
  rw [UrmaSockRingBuf.used, available, sub64_eq (Nat.sub_le _ _)]
  omega

theorem Sound.allocate (small : base.allocTail - base.reclaimTail + size + 63 < 2 ^ 64)
    (room : base.allocTail - base.reclaimTail + alignChunk size ≤ base.capacity →
      base.allocTail + alignChunk size < 2 ^ 64) :
    base.allocate size = if base.allocTail - base.reclaimTail + alignChunk size ≤ base.capacity then
      ({ base with allocTail := base.allocTail + alignChunk size }, some (base.allocTail % base.capacity))
    else (base, none) := by
  obtain ⟨le, fits, -⟩ := sound.inUse holds
  have bounds := @alignChunk_bounds size (by omega)
  rw [UrmaSockRingBuf.allocate, sub64_eq le, sound.and_capMask]
  by_cases enough : base.allocTail - base.reclaimTail + alignChunk size ≤ base.capacity
  · rw [if_pos enough, if_neg (by omega), Nat.mod_eq_of_lt (room enough)]
  · rw [if_neg enough, if_pos (by omega)]

theorem Sound.allocateRange (minSize maxSize : Nat)
    (room : base.allocTail - base.reclaimTail + alignChunk minSize ≤ base.capacity →
      base.allocTail + min (base.capacity - (base.allocTail - base.reclaimTail)) (alignChunk maxSize) < 2 ^ 64) :
    base.allocateRange minSize maxSize =
      if base.allocTail - base.reclaimTail + alignChunk minSize ≤ base.capacity then
        ({ base with
            allocTail :=
              base.allocTail + min (base.capacity - (base.allocTail - base.reclaimTail)) (alignChunk maxSize) },
          min (base.capacity - (base.allocTail - base.reclaimTail)) (alignChunk maxSize),
            base.allocTail % base.capacity)
      else (base, 0, 0) := by
  obtain ⟨le, fits, -⟩ := sound.inUse holds
  have available : sub64 base.capacity (sub64 base.allocTail base.reclaimTail) =
      base.capacity - (base.allocTail - base.reclaimTail) := (sound.used holds).1
  rw [UrmaSockRingBuf.allocateRange, available]
  by_cases enough : base.allocTail - base.reclaimTail + alignChunk minSize ≤ base.capacity
  · have granted : (if base.capacity - (base.allocTail - base.reclaimTail) < alignChunk maxSize then
        base.capacity - (base.allocTail - base.reclaimTail) else alignChunk maxSize) =
        min (base.capacity - (base.allocTail - base.reclaimTail)) (alignChunk maxSize) := by
      rw [Nat.min_def]
      split <;> split <;> omega
    rw [if_pos enough, if_neg (by omega)]
    dsimp only
    rw [granted, Nat.mod_eq_of_lt (room enough), sound.and_capMask]
  · rw [if_neg enough, if_pos (by omega)]

end Sound

end UrmaSockRingBuf

/-! ## What is held -/

open UrmaSockRingBuf (Sound chunkRing)

variable {base : UrmaSockRingBuf} {spans more : List Span} {block : LiveBlock} {live : List LiveBlock}

/-- The spans of chunks are those that the ring holds. -/
structure Placed (base : UrmaSockRingBuf) (spans : List Span) : Prop where
  apart : spans.Pairwise Span.Apart
  below : ∀ span ∈ spans, span.stop ≤ base.allocTail / 64
  holds : base.chunkRing.Holds (Covered spans)

theorem Placed.perm (placed : Placed base spans) (perm : spans.Perm more) : Placed base more where
  apart := (perm.pairwise_iff fun apart => apart.symm).mp placed.apart
  below := fun span mem => placed.below span (perm.mem_iff.mpr mem)
  holds := placed.holds.congr fun _ =>
    ⟨fun ⟨span, mem, inside⟩ => ⟨span, perm.mem_iff.mp mem, inside⟩,
      fun ⟨span, mem, inside⟩ => ⟨span, perm.mem_iff.mpr mem, inside⟩⟩

theorem Placed.take {count : Nat} (sound : base.Sound) (placed : Placed base spans)
    (room : base.allocTail - base.reclaimTail + 64 * count ≤ base.capacity)
    (small : base.allocTail + 64 * count < 2 ^ 64) :
    ({ base with allocTail := base.allocTail + 64 * count } : UrmaSockRingBuf).Sound ∧
      Placed { base with allocTail := base.allocTail + 64 * count } (⟨base.allocTail / 64, count⟩ :: spans) := by
  obtain ⟨takenSound, ring⟩ := @Sound.take base count sound small
  have tail : (base.allocTail + 64 * count) / 64 = base.allocTail / 64 + count := Nat.add_mul_div_left _ _ (by decide)
  refine ⟨takenSound, pairwise_cons.mpr ⟨fun span mem => .inr (placed.below span mem), placed.apart⟩, ?_, ?_⟩
  · rw [tail]
    exact forall_mem_cons.mpr ⟨Nat.le_refl _, fun span old => Nat.le_add_right_of_le (placed.below span old)⟩
  · rw [ring]
    have capacity := sound.capacity_eq
    have enough : base.allocTail / 64 + count ≤ base.reclaimTail / 64 + base.numChunks := by omega
    exact (placed.holds.take enough).congr fun _ => by rw [covered_cons, or_comm]; rfl

/-- What the first spans have is given back, from `start` on. -/
theorem Placed.release {start size : Nat} (sound : base.Sound) (placed : Placed base (spans ++ more))
    (covers : ∀ position, Covered spans position ↔ start ≤ position ∧ position < start + chunks size) :
    (base.release (64 * (start % base.numChunks)) size).Sound ∧
      (base.release (64 * (start % base.numChunks)) size).capacity = base.capacity ∧
      (base.release (64 * (start % base.numChunks)) size).allocTail = base.allocTail ∧
      Placed (base.release (64 * (start % base.numChunks)) size) more := by
  obtain ⟨ring, releasedSound, capacity, tail⟩ := sound.release (start % base.numChunks) size
  obtain ⟨-, restApart, apart⟩ := pairwise_append.mp placed.apart
  refine ⟨releasedSound, capacity, tail, restApart, ?_, ?_⟩
  · intro other mem
    exact placed.below other (mem_append_right _ mem)
  · rw [ring]
    have holdsAll : ∀ i < chunks size, Covered (spans ++ more) (start + i) := by
      intro i lt
      exact covered_append.mpr (.inl ((covers _).mpr ⟨Nat.le_add_right _ _, by omega⟩))
    refine (placed.holds.release holdsAll).congr fun position => ?_
    rw [← covers, covered_append]
    constructor
    · rintro ⟨first | rest, outside⟩
      · exact absurd first outside
      · exact rest
    · intro rest
      refine ⟨.inr rest, fun first => ?_⟩
      obtain ⟨span, mem, inside⟩ := first
      obtain ⟨other, otherMember, otherInside⟩ := rest
      rcases apart span mem other otherMember with before | behind <;> omega

/-! ## The invariant -/

def LiveBlock.span (block : LiveBlock) : Span := ⟨block.place, chunks block.size⟩

/-- A live block does not go over the end. -/
structure LiveBlock.Ok (numChunks : Nat) (block : LiveBlock) : Prop where
  offset : block.offset = 64 * (block.place % numChunks)
  fits : block.place % numChunks + chunks block.size ≤ numChunks
  small : block.size + 63 < 2 ^ 64

theorem chunks_bounds (small : size + 63 < 2 ^ 64) : size ≤ 64 * chunks size ∧ 64 * chunks size < size + 64 := by
  rw [← alignChunk_eq_chunks]
  exact alignChunk_bounds small

theorem Placed.inside (placed : Placed base spans) (mem : block.span ∈ spans)
    (small : block.size + 63 < 2 ^ 64) {i : Nat} (lt : i < block.size) :
    base.chunkRing.reclaimed ≤ block.place + i / 64 ∧ block.place + i / 64 < base.chunkRing.taken := by
  have bounds := chunks_bounds small
  refine placed.holds.inside _ ⟨block.span, mem, Nat.le_add_right _ _, ?_⟩
  simp only [LiveBlock.span, Span.stop]
  omega

theorem Placed.bytes_apart {block other : LiveBlock} (sound : base.Sound) (placed : Placed base spans)
    (mem : block.span ∈ spans) (otherMem : other.span ∈ spans) (apart : block.span.Apart other.span)
    (offset : block.offset = 64 * (block.place % base.numChunks)) (small : block.size + 63 < 2 ^ 64)
    (otherOffset : other.offset = 64 * (other.place % base.numChunks)) (otherSmall : other.size + 63 < 2 ^ 64)
    {i j : Nat} (lt : i < block.size) (otherLt : j < other.size) :
    (block.offset + i) % base.capacity ≠ (other.offset + j) % base.capacity := by
  intro same
  have window := placed.holds.window
  have inside := placed.inside mem small lt
  have otherInside := placed.inside otherMem otherSmall otherLt
  have bounds := chunks_bounds small
  have otherBounds := chunks_bounds otherSmall
  have slot := congrArg (· / 64) same
  simp only [sound.capacity_eq, Nat.mod_mul_right_div_self, offset, otherOffset, Nat.mul_add_div (by decide : 0 < 64),
    Nat.mod_add_mod] at slot
  have position := ChunkRing.slot_injective inside.1 (Nat.lt_of_lt_of_le inside.2 window) otherInside.1
    (Nat.lt_of_lt_of_le otherInside.2 window) slot
  simp only [Span.Apart, LiveBlock.span, Span.stop] at apart
  omega

/-- The padding in front of a live block at offset 0, which the word `wrapEndOffset` tells. -/
inductive Padding (numChunks wrapEndOffset : Nat) (live : List LiveBlock) : List Span → Prop where
  | none (unset : wrapEndOffset = 0) : Padding numChunks wrapEndOffset live []
  | some (place : Nat) (block : LiveBlock) (offset : wrapEndOffset = 64 * (place % numChunks))
      (set : wrapEndOffset ≠ 0) (mem : block ∈ live)
      (follows : block.place = place + (numChunks - place % numChunks)) (nonempty : 0 < block.size) :
      Padding numChunks wrapEndOffset live [⟨place, numChunks - place % numChunks⟩]

theorem Padding.cons {numChunks wrapEndOffset : Nat} (padded : Padding numChunks wrapEndOffset live padding) :
    Padding numChunks wrapEndOffset (block :: live) padding := by
  cases padded with
  | none unset => exact .none unset
  | some place wrapped offset set mem follows nonempty =>
    exact .some place wrapped offset set (.tail _ mem) follows nonempty

namespace SendRing

variable {ring : SendRing} {block wrapped : LiveBlock} {place capacity : Nat}

structure Inv (ring : SendRing) : Prop where
  sound : ring.buf.base.Sound
  later : ring.buf.laterRelease = []
  blocks : ∀ block ∈ ring.live, block.Ok ring.buf.base.numChunks
  placed : ∃ padding, Padding ring.buf.base.numChunks ring.buf.wrapEndOffset ring.live padding ∧
    Placed ring.buf.base (padding ++ ring.live.map (·.span))
  reports : ∀ report ∈ ring.reports, CallReport.Right report

theorem Inv.disjoint (inv : ring.Inv) : ring.live.Pairwise Disjoint := by
  obtain ⟨padding, -, placed⟩ := inv.placed
  have listed : ∀ block ∈ ring.live, block.span ∈ padding ++ ring.live.map (·.span) :=
    fun block mem => mem_append_right _ (mem_map_of_mem mem)
  have apart := pairwise_map.mp (pairwise_append.mp placed.apart).2.1
  refine apart.imp_of_mem fun {block other} mem otherMember apart address shared => ?_
  obtain ⟨⟨lower, upper⟩, otherLower, otherUpper⟩ := shared
  have ok := inv.blocks block mem
  have otherOk := inv.blocks other otherMember
  obtain ⟨i, rfl⟩ := Nat.exists_eq_add_of_le lower
  obtain ⟨j, same⟩ := Nat.exists_eq_add_of_le otherLower
  exact placed.bytes_apart inv.sound (listed block mem) (listed other otherMember) apart ok.offset ok.small
    otherOk.offset otherOk.small (i := i) (j := j) (by omega) (by omega) (by rw [same])

theorem Inv.right (inv : ring.Inv) : ring.Right where
  inRegion := by
    intro block mem
    obtain ⟨offset, fits, small⟩ := inv.blocks block mem
    have bounds := chunks_bounds small
    have capacity := inv.sound.capacity_eq
    omega
  disjoint := inv.disjoint
  reports := inv.reports
  used := by
    intro nothing
    obtain ⟨padding, padded, placed⟩ := inv.placed
    rw [nothing] at padded placed
    cases padded with
    | some _ _ _ _ mem => cases mem
    | none =>
      have empty := placed.holds.empty fun position ⟨span, mem, _⟩ => nomatch mem
      have reclaimed : ring.buf.base.reclaimTail / 64 = ring.buf.base.allocTail / 64 := empty
      obtain ⟨-, -, whole⟩ := inv.sound.inUse placed.holds
      rw [used, UrmaSockContinuousBuf.used, (inv.sound.used placed.holds).2, whole, reclaimed, Nat.sub_self]

/-! ## Allocations -/

theorem CallReport.right_of_granted {call : RingCall} {size before after lower upper : Nat}
    (bounds : ∀ minSize maxSize, call = .allocateRange minSize maxSize → minSize.val = lower ∧ maxSize.val = upper)
    (between : lower ≤ size ∧ size ≤ upper) : CallReport.Right ⟨call, some size, before, after⟩ := by
  cases call with
  | allocateRange minSize maxSize =>
    obtain ⟨rfl, rfl⟩ := bounds minSize maxSize rfl
    exact ⟨nofun, between⟩
  | allocate | release => exact ⟨nofun, trivial⟩

theorem next_multiple_mod {numChunks : Nat} (pos : 0 < numChunks) (place : Nat) :
    (place + (numChunks - place % numChunks)) % numChunks = 0 := by
  have whole := Nat.div_add_mod place numChunks
  have below := Nat.mod_lt place pos
  have next : place + (numChunks - place % numChunks) = numChunks * (place / numChunks + 1) := by
    rw [Nat.mul_succ]
    omega
  rw [next, Nat.mul_mod_right]

/-- While padding is remembered there is no room for an allocation that goes over the end. -/
theorem Inv.no_room_to_wrap (inv : ring.Inv)
    (placed : Placed ring.buf.base
      ([⟨place, ring.buf.base.numChunks - place % ring.buf.base.numChunks⟩] ++ ring.live.map (·.span)))
    (mem : block ∈ ring.live)
    (follows : block.place = place + (ring.buf.base.numChunks - place % ring.buf.base.numChunks)) :
    ring.buf.base.capacity ≤ ring.inUse + ring.toEnd := by
  have pos := inv.sound.numChunks_pos
  have tailMod := inv.sound.tail_mod
  have blockBelow := placed.below block.span (mem_append_right _ (mem_map.mpr ⟨block, mem, rfl⟩))
  simp only [LiveBlock.span, Span.stop] at blockBelow
  have padMod := Nat.mod_lt place pos
  have placeHeld := (placed.holds.inside place ⟨_, mem_append_left _ (.head _), Nat.le_refl _,
    by simp only [Span.stop]; omega⟩).1
  have placeAbove : ring.buf.base.reclaimTail / 64 ≤ place := placeHeld
  -- the end of the padding and the end that the tail would go over are ne multiples
  have padEnd := Nat.div_add_mod place ring.buf.base.numChunks
  have tailEnd := Nat.div_add_mod (ring.buf.base.allocTail / 64) ring.buf.base.numChunks
  have later : place / ring.buf.base.numChunks + 1 ≤ ring.buf.base.allocTail / 64 / ring.buf.base.numChunks := by
    rw [Nat.le_div_iff_mul_le pos, Nat.mul_comm, Nat.mul_succ]
    omega
  have apart := Nat.mul_le_mul_left ring.buf.base.numChunks later
  rw [Nat.mul_succ] at apart
  rw [inUse, toEnd]
  omega

/-- What an allocation of a size between two bounds comes to: it fails, the block stands where the tail was, or it goes
    to the start of the buffer, behind padding. -/
inductive Allocated (ring : SendRing) (minSize maxSize : Nat) : UrmaSockContinuousBuf → Option (Nat × Nat) → Prop where
  | failed (full : ring.inUse + alignChunk minSize ≤ ring.buf.base.capacity → ring.rangeGrant maxSize = 0) :
      Allocated ring minSize maxSize ring.buf none
  | atTail (size : Nat) (between : minSize ≤ size ∧ size ≤ maxSize) (small : size + 63 < 2 ^ 64)
      (room : ring.inUse + alignChunk size ≤ ring.buf.base.capacity)
      (fits : ring.buf.base.allocTail % ring.buf.base.capacity + size ≤ ring.buf.base.capacity) :
      Allocated ring minSize maxSize
        { ring.buf with base := { ring.buf.base with allocTail := ring.buf.base.allocTail + alignChunk size } }
        (some (ring.buf.base.allocTail % ring.buf.base.capacity, size))
  | atStart (size : Nat) (between : minSize ≤ size ∧ size ≤ maxSize) (whole : 64 ∣ size) (nonempty : 0 < size)
      (room : ring.inUse + size + ring.toEnd ≤ ring.buf.base.capacity) (beyond : ring.toEnd < ring.buf.base.capacity) :
      Allocated ring minSize maxSize
        { ring.buf with
          base := { ring.buf.base with allocTail := ring.buf.base.allocTail + size + ring.toEnd }
          wrapEndOffset := ring.buf.base.allocTail % ring.buf.base.capacity }
        (some (0, size))

section Allocation

variable {call : RingCall} {size lower upper : Nat} (inv : ring.Inv)
  (tail : ring.buf.base.allocTail + 2 * ring.buf.base.capacity < 2 ^ 64)
  (bounds : ∀ minSize maxSize, call = .allocateRange minSize maxSize → minSize.val = lower ∧ maxSize.val = upper)
include inv tail bounds

theorem Inv.allocated {buf : UrmaSockContinuousBuf} {granted : Option (Nat × Nat)}
    (allocated : ring.Allocated lower upper buf granted) : (ring.report call buf granted).Inv := by
  obtain ⟨padding, padded, placed⟩ := inv.placed
  have capacity := inv.sound.capacity_eq
  have tailMod := inv.sound.tail_mod
  cases allocated with
  | failed =>
    exact
      { inv with reports := forall_mem_cons.mpr ⟨⟨fun _ => rfl, by cases call <;> trivial⟩, inv.reports⟩ }
  | atTail size between small room fits =>
    have sizeBounds := chunks_bounds small
    have place : placeAt ring.buf.base (ring.buf.base.allocTail % ring.buf.base.capacity) =
        ring.buf.base.allocTail / 64 := by
      simp [placeAt, kChunkSize]
    rw [alignChunk_eq_chunks] at room ⊢
    obtain ⟨sound, taken⟩ := placed.take inv.sound room (by omega)
    refine ⟨sound, inv.later, forall_mem_cons.mpr ⟨⟨?_, ?_, small⟩, inv.blocks⟩, ⟨padding, padded.cons, ?_⟩,
      forall_mem_cons.mpr ⟨CallReport.right_of_granted bounds between, inv.reports⟩⟩
    · rw [place]
      exact tailMod
    · rw [place]
      show ring.buf.base.allocTail / 64 % ring.buf.base.numChunks + chunks size ≤ ring.buf.base.numChunks
      omega
    · rw [report, place]
      exact taken.perm perm_middle.symm
  | atStart size between whole nonempty room beyond =>
    obtain ⟨count, rfl⟩ := whole
    have pos := inv.sound.numChunks_pos
    have small : 64 * count + 63 < 2 ^ 64 := by omega
    have counted : chunks (64 * count) = count := by
      rw [chunks, alignChunk_mul small]
      exact Nat.mul_div_cancel_left _ (by decide)
    obtain ⟨pad, padEq⟩ : ∃ pad,
      pad = ring.buf.base.numChunks - ring.buf.base.allocTail / 64 % ring.buf.base.numChunks := ⟨_, rfl⟩
    have end_eq : ring.toEnd = 64 * pad := by
      rw [toEnd]
      omega
    rw [inUse] at room
    -- no padding is remembered: the block behind it would be in the way
    cases padded with
    | some place block offset set mem follows =>
      have full := inv.no_room_to_wrap placed mem follows
      rw [inUse] at full
      omega
    | none unset =>
      obtain ⟨firstSound, first⟩ := @Placed.take _ _ pad inv.sound placed (by omega) (by omega)
      obtain ⟨secondSound, second⟩ :=
        @Placed.take _ _ count firstSound first (by dsimp only; omega) (by dsimp only; omega)
      have sum : ring.buf.base.allocTail + 64 * count + ring.toEnd =
          ring.buf.base.allocTail + 64 * pad + 64 * count := by
        omega
      have place : placeAt ring.buf.base 0 = ring.buf.base.allocTail / 64 + pad := by
        rw [toEnd] at beyond end_eq
        rw [placeAt, Nat.zero_add, Nat.mod_eq_of_lt beyond, end_eq, kChunkSize, Nat.add_mul_div_left _ _ (by decide)]
      have atStart := next_multiple_mod pos (ring.buf.base.allocTail / 64)
      rw [sum]
      subst padEq
      refine ⟨secondSound, inv.later, forall_mem_cons.mpr ⟨⟨?_, ?_, small⟩, inv.blocks⟩,
        ⟨_, .some (ring.buf.base.allocTail / 64) _ tailMod ?_ (.head _) place nonempty, ?_⟩,
        forall_mem_cons.mpr ⟨CallReport.right_of_granted bounds between, inv.reports⟩⟩
      · rw [place]
        exact congrArg (64 * ·) atStart.symm
      · rw [place]
        show _ % ring.buf.base.numChunks + chunks (64 * count) ≤ ring.buf.base.numChunks
        rw [atStart]
        omega
      · show ring.buf.base.allocTail % ring.buf.base.capacity ≠ 0
        omega
      · rw [report, map_cons, LiveBlock.span, place, counted]
        have spans := second.perm (List.Perm.swap ..)
        rw [Nat.add_mul_div_left _ _ (by decide : 0 < 64)] at spans
        exact spans

end Allocation

section Calls

variable (inv : ring.Inv) {minSize maxSize : Nat}
include inv

theorem Inv.inUse_eq : ring.inUse ≤ ring.buf.base.capacity ∧ 64 ∣ ring.inUse ∧ 64 ∣ ring.buf.base.capacity := by
  obtain ⟨_, _, placed⟩ := inv.placed
  obtain ⟨-, fits, whole⟩ := inv.sound.inUse placed.holds
  exact ⟨fits, ⟨_, whole⟩, ⟨_, inv.sound.capacity_eq⟩⟩

theorem Inv.toEnd_eq : ring.toEnd = ring.buf.base.capacity - ring.buf.base.allocTail % ring.buf.base.capacity ∧
    ring.buf.base.allocTail % ring.buf.base.capacity < ring.buf.base.capacity ∧ 64 ∣ ring.toEnd ∧ 0 < ring.toEnd := by
  have capacity := inv.sound.capacity_eq
  have pos := inv.sound.numChunks_pos
  have below : ring.buf.base.allocTail % ring.buf.base.capacity < ring.buf.base.capacity := Nat.mod_lt _ (by omega)
  have tailMod := inv.sound.tail_mod
  rw [toEnd]
  omega

/-- The second allocation, of the bytes that the first one has at the end of the buffer. -/
theorem Inv.allocateEnd (whole : 64 ∣ size) (beyond : ring.toEnd < size)
    (room : ring.inUse + size ≤ ring.buf.base.capacity)
    (tail : ring.buf.base.allocTail + 2 * ring.buf.base.capacity < 2 ^ 64) :
    ({ ring.buf.base with allocTail := ring.buf.base.allocTail + size } : UrmaSockRingBuf).allocate ring.toEnd =
      if ring.inUse + size + ring.toEnd ≤ ring.buf.base.capacity then
        ({ ring.buf.base with allocTail := ring.buf.base.allocTail + size + ring.toEnd }, some (size - ring.toEnd))
      else ({ ring.buf.base with allocTail := ring.buf.base.allocTail + size }, none) := by
  obtain ⟨count, rfl⟩ := whole
  obtain ⟨_, _, placed⟩ := inv.placed
  obtain ⟨endEq, below, ⟨endChunks, endWhole⟩, endPositive⟩ := inv.toEnd_eq
  have le := (inv.sound.inUse placed.holds).1
  obtain ⟨sound, taken⟩ := placed.take inv.sound room (by omega)
  rw [inUse] at room ⊢
  have used : ring.buf.base.allocTail + 64 * count - ring.buf.base.reclaimTail =
      ring.buf.base.allocTail - ring.buf.base.reclaimTail + 64 * count := by omega
  rw [sound.allocate taken.holds (by dsimp only; omega) (fun enough => by dsimp only at enough ⊢; omega)]
  -- the rest of the division is what goes beyond the end
  have quotient : ring.buf.base.allocTail + 64 * count = 64 * count - ring.toEnd +
      ring.buf.base.capacity * (ring.buf.base.allocTail / ring.buf.base.capacity + 1) := by
    have division := Nat.div_add_mod ring.buf.base.allocTail ring.buf.base.capacity
    rw [Nat.mul_succ]
    omega
  have wrapped : (ring.buf.base.allocTail + 64 * count) % ring.buf.base.capacity = 64 * count - ring.toEnd := by
    rw [quotient, Nat.add_mul_mod_self_left, Nat.mod_eq_of_lt (by omega)]
  rw [used, wrapped, endWhole, alignChunk_mul (by omega)]

theorem Inv.allocate (careful : ring.CarefulAllocate size) :
    ring.Allocated size size (ring.buf.allocate size).1
      ((ring.buf.allocate size).2.map fun offset => (offset, size)) := by
  obtain ⟨small, tail, careful⟩ := careful
  obtain ⟨_, _, placed⟩ := inv.placed
  obtain ⟨endEq, below, endWhole, endPositive⟩ := inv.toEnd_eq
  have first := @Sound.allocate ring.buf.base size inv.sound _ placed.holds small fun _ => by omega
  rw [← inUse] at first
  rw [UrmaSockContinuousBuf.allocate, first]
  by_cases room : ring.inUse + alignChunk size ≤ ring.buf.base.capacity
  · rw [if_pos room]
    dsimp only
    rw [Nat.mod_eq_of_lt (by omega : ring.buf.base.allocTail % ring.buf.base.capacity + size < 2 ^ 64)]
    by_cases fits : ring.buf.base.allocTail % ring.buf.base.capacity + size ≤ ring.buf.base.capacity
    · rw [if_pos fits]
      exact .atTail size (by omega) (by omega) room fits
    · obtain ⟨⟨count, whole⟩, padRoom⟩ := careful room (by omega)
      have aligned : alignChunk size = size := by
        rw [kChunkSize] at whole
        rw [whole, alignChunk_mul (by omega)]
      rw [aligned] at room ⊢
      have second := inv.allocateEnd ⟨count, whole⟩ (by omega) room tail
      rw [if_neg fits, sub64_eq (Nat.le_of_lt below), ← endEq, second, if_pos padRoom]
      dsimp only
      rw [sub64_eq (by omega : ring.toEnd ≤ size), if_neg (not_not.mpr rfl)]
      exact .atStart size (by omega) ⟨count, whole⟩ (by omega) padRoom (by omega)
  · rw [if_neg room]
    exact .failed fun enough => absurd enough room

omit inv in
theorem alignChunk_pos (word : size < 2 ^ 64) (pos : 0 < alignChunk size) : size + 63 < 2 ^ 64 := by
  by_contra large
  rw [alignChunk_eq] at pos
  omega

/-- What the ring grants is made of whole chunks and not below the minimum. -/
theorem Inv.rangeGrant_spec (word : maxSize < 2 ^ 64) (ordered : minSize ≤ maxSize)
    (room : ring.inUse + alignChunk minSize ≤ ring.buf.base.capacity) (pos : 0 < ring.rangeGrant maxSize) :
    64 ∣ ring.rangeGrant maxSize ∧ minSize ≤ ring.rangeGrant maxSize ∧ ring.rangeGrant maxSize < maxSize + 64 ∧
      ring.inUse + ring.rangeGrant maxSize ≤ ring.buf.base.capacity := by
  obtain ⟨usedLe, usedWhole, capacityWhole⟩ := inv.inUse_eq
  have grantLeMax := Nat.min_le_right (ring.buf.base.capacity - ring.inUse) (alignChunk maxSize)
  have maxWord := alignChunk_pos word (Nat.lt_of_lt_of_le pos grantLeMax)
  have maxBounds := alignChunk_bounds maxWord
  have minBounds := @alignChunk_bounds minSize (by omega)
  have maxWhole := alignChunk_eq_chunks maxSize
  rw [rangeGrant] at *
  omega

theorem Inv.allocateRange {result : UrmaSockContinuousBuf × Nat × Nat} (word : maxSize < 2 ^ 64)
    (careful : ring.CarefulRange minSize maxSize) (value : ring.buf.allocateRange minSize maxSize = result) :
    ring.Allocated minSize maxSize result.1 (if result.2.1 = 0 then none else some (result.2.2, result.2.1)) := by
  obtain ⟨tail, careful⟩ := careful
  obtain ⟨_, _, placed⟩ := inv.placed
  obtain ⟨endEq, below, ⟨endChunks, endWhole⟩, endPositive⟩ := inv.toEnd_eq
  have first := @Sound.allocateRange ring.buf.base inv.sound _ placed.holds minSize maxSize fun _ => by omega
  rw [← inUse, ← rangeGrant] at first
  rw [UrmaSockContinuousBuf.allocateRange, first] at value
  by_cases room : ring.inUse + alignChunk minSize ≤ ring.buf.base.capacity
  · rw [if_pos room] at value
    dsimp only at value
    by_cases pos : 0 < ring.rangeGrant maxSize
    · obtain ⟨ordered, careful⟩ := careful room pos
      obtain ⟨⟨count, whole⟩, grantGe, grantLt, grantRoom⟩ := inv.rangeGrant_spec word ordered room pos
      generalize ring.rangeGrant maxSize = grant at *
      rw [if_neg (by omega : ¬ grant < minSize),
        Nat.mod_eq_of_lt (by omega : ring.buf.base.allocTail % ring.buf.base.capacity + grant < 2 ^ 64)] at value
      by_cases fits : ring.buf.base.allocTail % ring.buf.base.capacity + grant ≤ ring.buf.base.capacity
      · rw [if_neg (by omega)] at careful
        have aligned : alignChunk grant = grant := by
          rw [whole]
          exact alignChunk_mul (by omega)
        have allocated := Allocated.atTail grant ⟨grantGe, careful⟩ (by omega) (by omega) fits
        rw [aligned] at allocated
        rw [← value, if_pos fits, if_neg pos.ne']
        exact allocated
      · have beyond : ring.toEnd < grant := by omega
        have sum :
            ring.buf.base.allocTail + grant = ring.buf.base.allocTail + (grant - ring.toEnd) + ring.toEnd := by omega
        rw [if_neg fits, sub64_eq (Nat.le_of_lt below), ← endEq, sub64_eq (Nat.le_of_lt beyond)] at value
        by_cases short : grant < maxSize
        · -- the ring is full, what is left at the start must do
          rw [if_pos ⟨beyond, .inl short⟩] at careful
          rw [if_pos short, if_neg (by omega : ¬ grant - ring.toEnd < minSize), sum] at value
          rw [← value, if_neg (by dsimp only; omega)]
          exact .atStart _ (by omega) (by omega) (by omega) (by omega) (by omega)
        · rw [if_neg short, inv.allocateEnd ⟨count, whole⟩ beyond grantRoom tail] at value
          by_cases padRoom : ring.inUse + grant + ring.toEnd ≤ ring.buf.base.capacity
          · rw [if_neg (by omega)] at careful
            rw [if_pos padRoom] at value
            dsimp only at value
            rw [if_neg (not_not.mpr rfl)] at value
            rw [← value, if_neg pos.ne']
            exact .atStart grant ⟨grantGe, careful⟩ ⟨count, whole⟩ pos padRoom (by omega)
          · rw [if_pos ⟨beyond, .inr (by omega)⟩] at careful
            rw [if_neg padRoom, sum] at value
            rw [← value, if_neg (by dsimp only; omega)]
            exact .atStart _ (by omega) (by omega) (by omega) (by omega) (by omega)
    · -- nothing is granted and nothing changes
      have zero : ring.rangeGrant maxSize = 0 := by omega
      rw [zero, Nat.mod_eq_of_lt (by omega : ring.buf.base.allocTail % ring.buf.base.capacity + 0 < 2 ^ 64),
        if_pos (by omega : ring.buf.base.allocTail % ring.buf.base.capacity + 0 ≤ ring.buf.base.capacity)] at value
      split at value <;> subst value <;> exact .failed fun _ => zero
  · rw [if_neg room] at value
    dsimp only at value
    split at value <;> subst value <;> exact .failed fun enough => absurd enough room

theorem Inv.available_eq : ring.available = ring.buf.base.capacity - ring.inUse := by
  obtain ⟨_, _, placed⟩ := inv.placed
  exact (inv.sound.used placed.holds).1

/-- An allocation does not add room. -/
theorem Inv.available_le {call : RingCall} {buf : UrmaSockContinuousBuf} {granted : Option (Nat × Nat)}
    (after : (ring.report call buf granted).Inv) (allocated : ring.Allocated minSize maxSize buf granted) :
    (ring.report call buf granted).available ≤ ring.available := by
  rw [after.available_eq, inv.available_eq]
  cases allocated with
  | failed => exact Nat.le_refl _
  | atTail | atStart =>
    simp only [report, inUse]
    omega

/-- A call that fails has found less than the minimum. -/
theorem Inv.available_lt {buf : UrmaSockContinuousBuf} (failed : ring.Allocated minSize maxSize buf none)
    (pos : 0 < minSize ∧ 0 < maxSize) (words : minSize + 63 < 2 ^ 64 ∧ maxSize + 63 < 2 ^ 64) :
    ring.available < minSize := by
  cases failed with
  | failed full =>
    obtain ⟨usedLe, usedWhole, capacityWhole⟩ := inv.inUse_eq
    have minBounds := alignChunk_bounds words.1
    have maxBounds := alignChunk_bounds words.2
    have minWhole := alignChunk_eq_chunks minSize
    rw [rangeGrant] at full
    rw [inv.available_eq]
    omega

end Calls

/-! ## Releases -/

/-- A block with bytes at offset 0 is the one that the padding stands in front of. -/
theorem Inv.follows_padding (inv : ring.Inv)
    (placed : Placed ring.buf.base (padding ++ ring.live.map (·.span))) (mem : block ∈ ring.live)
    (wrappedMember : wrapped ∈ ring.live) (atZero : block.offset = 0) (nonempty : 0 < block.size)
    (atStart : wrapped.place % ring.buf.base.numChunks = 0)
    (wrappedNonempty : 0 < wrapped.size) : block.place = wrapped.place := by
  have ok := inv.blocks block mem
  have inside := placed.inside (mem_append_right _ (mem_map.mpr ⟨block, mem, rfl⟩)) ok.small nonempty
  have wrappedInside := placed.inside
    (mem_append_right _ (mem_map.mpr ⟨wrapped, wrappedMember, rfl⟩)) (inv.blocks wrapped wrappedMember).small
    wrappedNonempty
  have window := placed.holds.window
  have offset := ok.offset
  have slot : block.place % ring.buf.base.numChunks = wrapped.place % ring.buf.base.numChunks := by
    rw [atStart]
    omega
  exact ChunkRing.slot_injective inside.1 (Nat.lt_of_lt_of_le inside.2 window) wrappedInside.1
    (Nat.lt_of_lt_of_le wrappedInside.2 window) slot

theorem covered_span {span : Span} {position : Nat} :
    Covered [span] position ↔ span.start ≤ position ∧ position < span.stop := by
  simp [Covered]

theorem Inv.releaseAllLaterNodes (inv : ring.Inv) : ring.buf.releaseAllLaterNodes = ring.buf := by
  rw [UrmaSockContinuousBuf.releaseAllLaterNodes, inv.later, foldl_nil, ← inv.later]

/-- The state after the ring has taken back the first spans. -/
theorem Inv.released {base : UrmaSockRingBuf} {wrapEndOffset : Nat}
    (inv : ring.Inv) (remaining : ∀ block ∈ live, block ∈ ring.live) (sound : base.Sound)
    (capacity : base.capacity = ring.buf.base.capacity)
    (padded : Padding ring.buf.base.numChunks wrapEndOffset live padding)
    (placed : Placed base (padding ++ live.map (·.span))) :
    Inv { ring with buf := { ring.buf with base, wrapEndOffset }, live } := by
  have numChunks : base.numChunks = ring.buf.base.numChunks := by
    rw [UrmaSockRingBuf.numChunks, capacity, UrmaSockRingBuf.numChunks]
  exact {
    sound := sound
    later := inv.later
    blocks := fun block mem => numChunks ▸ inv.blocks block (remaining block mem)
    placed := ⟨padding, numChunks ▸ padded, placed⟩
    reports := inv.reports }

section Release

variable {rest : List LiveBlock} (inv : ring.Inv) (perm : ring.live.Perm (block :: rest))
include inv perm

theorem Inv.releasePlain (padded : Padding ring.buf.base.numChunks ring.buf.wrapEndOffset rest padding)
    (placed : Placed ring.buf.base (padding ++ ring.live.map (·.span))) :
    Inv { ring with buf := { ring.buf with base := ring.buf.base.release block.offset block.size }, live := rest } := by
  have mem : block ∈ ring.live := perm.mem_iff.mpr (.head _)
  have moved : (padding ++ ring.live.map (·.span)).Perm ([block.span] ++ (padding ++ rest.map (·.span))) :=
    ((perm.map _).append_left padding).trans perm_middle
  obtain ⟨sound, capacity, -, after⟩ := (placed.perm moved).release inv.sound fun _ => covered_span
  have start : 64 * (block.span.start % ring.buf.base.numChunks) = block.offset := (inv.blocks block mem).offset.symm
  rw [start] at sound capacity after
  exact inv.released (fun other otherMember => perm.mem_iff.mpr (.tail _ otherMember)) sound capacity padded after

theorem Inv.releaseWrapped (atZero : block.offset = 0)
    (offset : ring.buf.wrapEndOffset = 64 * (place % ring.buf.base.numChunks)) (wrappedMember : wrapped ∈ ring.live)
    {pad : Nat} (padEq : pad = ring.buf.base.numChunks - place % ring.buf.base.numChunks)
    (follows : wrapped.place = place + pad)
    (nonempty : 0 < wrapped.size) (placed : Placed ring.buf.base ([⟨place, pad⟩] ++ ring.live.map (·.span))) :
    Inv { ring with
      buf := { ring.buf with
        base := ring.buf.base.release ring.buf.wrapEndOffset
          ((block.size + sub64 ring.buf.base.capacity ring.buf.wrapEndOffset) % 2 ^ 64)
        wrapEndOffset := 0 }
      live := rest } := by
  have mem : block ∈ ring.live := perm.mem_iff.mpr (.head _)
  have ok := inv.blocks block mem
  have bounds := chunks_bounds ok.small
  have fits := ok.fits
  have capacity := inv.sound.capacity_eq
  have capacityLe := inv.sound.capacity_le
  have below := Nat.mod_lt place inv.sound.numChunks_pos
  have padSize : sub64 ring.buf.base.capacity ring.buf.wrapEndOffset = 64 * pad := by
    rw [sub64_eq (by omega)]
    omega
  have total : chunks (block.size + 64 * pad) = chunks block.size + pad := by
    have sumBounds := @chunks_bounds (block.size + 64 * pad) (by omega)
    omega
  have moved := (perm.map LiveBlock.span).append_left [⟨place, pad⟩]
  rw [padSize, Nat.mod_eq_of_lt (by omega), offset]
  -- an empty block has nothing, another one follows the padding
  have covers : ∀ position, Covered ([⟨place, pad⟩] ++ [block.span]) position ↔
      place ≤ position ∧ position < place + chunks (block.size + 64 * pad) := by
    intro position
    rw [covered_append, covered_span, covered_span]
    simp only [LiveBlock.span, Span.stop]
    by_cases empty : block.size = 0
    · omega
    · have atStart := next_multiple_mod inv.sound.numChunks_pos place
      rw [← padEq, ← follows] at atStart
      have behind := inv.follows_padding placed mem wrappedMember atZero (Nat.pos_of_ne_zero empty) atStart nonempty
      omega
  obtain ⟨sound, sameCapacity, -, after⟩ := (placed.perm (append_assoc [_] [_] _ ▸ moved)).release inv.sound covers
  exact inv.released (fun other otherMember => perm.mem_iff.mpr (.tail _ otherMember)) sound sameCapacity
    (.none rfl) after

end Release

theorem Inv.release {index : Nat} (inv : ring.Inv) (there : ring.live[index]? = some block) :
    Inv { ring with buf := ring.buf.release block.offset block.size, live := ring.live.eraseIdx index } := by
  obtain ⟨inside, rfl⟩ := List.getElem?_eq_some_iff.mp there
  have perm := (getElem_cons_eraseIdx_perm inside).symm
  obtain ⟨padding, padded, placed⟩ := inv.placed
  rw [UrmaSockContinuousBuf.release, inv.releaseAllLaterNodes]
  cases padded with
  | none unset =>
    have plain := inv.releasePlain perm (.none unset) placed
    by_cases atZero : ring.live[index].offset = 0
    · rw [if_pos atZero, if_neg (not_not.mpr unset)]
      rw [atZero] at plain
      exact plain
    · rw [if_neg atZero]
      exact plain
  | some place wrapped offset set mem follows nonempty =>
    by_cases atZero : ring.live[index].offset = 0
    · rw [if_pos atZero, if_pos set]
      exact inv.releaseWrapped perm atZero offset mem rfl follows nonempty placed
    · rw [if_neg atZero]
      -- the block behind the padding is at offset 0, so it is another one
      have still : wrapped ∈ ring.live.eraseIdx index := by
        rcases mem_cons.mp (perm.mem_iff.mp mem) with same | other
        · have zero : wrapped.offset = 0 := by
            rw [(inv.blocks wrapped mem).offset, follows, next_multiple_mod inv.sound.numChunks_pos]
          exact absurd (same ▸ zero) atZero
        · exact other
      exact inv.releasePlain perm (.some place wrapped offset set still follows nonempty) placed

/-! ## Runs -/

theorem Inv.step (inv : ring.Inv) {call : RingCall} (careful : ring.Careful call) : (ring.step call).Inv := by
  cases call with
  | allocate size => exact inv.allocated careful.2.1 (fun _ _ same => by cases same) (inv.allocate careful)
  | allocateRange minSize maxSize =>
    exact inv.allocated careful.1 (fun _ _ same => by cases same; exact ⟨rfl, rfl⟩)
      (inv.allocateRange maxSize.isLt careful rfl)
  | release index =>
    rw [SendRing.step]
    cases there : ring.live[index]? with
    | none => exact inv
    | some block => exact inv.release there

theorem validateArgs_spec (valid : validateArgs capacity = true) : ∃ k ≤ 16, capacity = 2 ^ (k + 6) := by
  simp only [validateArgs, Bool.and_eq_true, Bool.not_eq_true', Bool.or_eq_false_iff, beq_eq_false_iff_ne,
    bne_eq_false_iff_eq] at valid
  obtain ⟨⟨⟨nonzero, small⟩, power⟩, whole⟩ := valid
  obtain ⟨m, rfl⟩ := (Nat.and_sub_one_eq_zero_iff_isPowerOfTwo nonzero).mp power
  have low : 6 ≤ m := (Nat.pow_dvd_pow_iff_le_right (by decide)).mp (Nat.dvd_of_mod_eq_zero whole : 2 ^ 6 ∣ 2 ^ m)
  have high : m ≤ 22 :=
    (Nat.pow_le_pow_iff_right (by decide)).mp (Nat.not_lt.mp (of_decide_eq_false small) : 2 ^ m ≤ 2 ^ 22)
  exact ⟨m - 6, by omega, by rw [Nat.sub_add_cancel low]⟩

theorem placed_new {capacity : Nat} : Placed (.new capacity) [] := by
  refine ⟨.nil, nofun,
    ⟨⟨Nat.le_refl _, Nat.le_add_right _ _, fun _ covered => ?_, fun _ _ below => ?_, fun _ _ _ => rfl⟩,
    fun nonempty => absurd nonempty (Nat.lt_irrefl _)⟩⟩
  · obtain ⟨span, mem, -⟩ := covered
    cases mem
  · have start : (UrmaSockRingBuf.new capacity).chunkRing.taken = 0 := Nat.zero_div 64
    rw [start] at below
    exact absurd below (Nat.not_lt_zero _)

theorem new_inv (valid : validateArgs capacity = true) : (new capacity).Inv where
  sound := ⟨validateArgs_spec valid, Nat.dvd_zero _, Nat.dvd_zero _, Nat.two_pow_pos 64⟩
  later := rfl
  blocks := nofun
  placed := ⟨[], .none rfl, placed_new⟩
  reports := nofun

/-- In every run of careful calls the allocations are in the buffer and apart, the sizes are as asked for, a failure
    changes nothing, and nothing is in use without an allocation. -/
theorem right_of_careful_calls {capacity : Nat} (valid : validateArgs capacity = true)
    (run : Run SendRing.step Careful (new capacity) ring) : ring.Right :=
  (run.invariant (new_inv valid) fun _ _ inv careful => inv.step careful).right

/-- The last allocation goes over the end, behind 64 bytes of padding. -/
def wrappingCalls : List RingCall := [.allocate 100, .allocateRange 64 64, .release 1, .allocate 128]

theorem right_wrappingCalls :
    ((wrappingCalls.foldl SendRing.step (new 256)).live.map fun block => (block.offset, block.size)) =
    [(0, 128), (128, 64)] ∧
      (wrappingCalls.foldl SendRing.step (new 256)).Right :=
  ⟨by decide +kernel, right_of_careful_calls (by decide) (Run.ofList (by decide +kernel))⟩

/-- The ring has room for 128 bytes, but not for the padding too. -/
def parkedCalls : List RingCall := [.allocate 64, .release 0, .allocate 128]

theorem parkedCalls_not_right : validateArgs 128 = true ∧
    Run SendRing.step (fun _ _ => True) (new 128) (parkedCalls.foldl SendRing.step (new 128)) ∧
    ¬ (parkedCalls.foldl SendRing.step (new 128)).Right := by
  refine ⟨by decide, Run.ofList (by decide), fun right => ?_⟩
  have used := right.used (by decide +kernel)
  exact absurd used (by decide +kernel)

end SendRing

end UbsComm.Urma
