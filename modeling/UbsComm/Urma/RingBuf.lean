import UbsComm.Urma.SendRingRight

/-! # The ring itself

`UrmaSockRingBuf` without the contiguous allocator over it: an allocation may go over the end of the buffer, and
the allocations are released in any order.  Beside the words of the ring stand the bytes allocated and
reclaimed since the beginning. -/

namespace UbsComm.Urma

open Library List

structure RingUse where
  base : UrmaSockRingBuf
  live : List LiveBlock
  allocated : Nat
  reclaimed : Nat

namespace RingUse

def new (capacity : Nat) : RingUse := ⟨.new capacity, [], 0, 0⟩

variable (ring : RingUse)

def granted (base : UrmaSockRingBuf) (offset size : Nat) : RingUse :=
  { ring with
    base
    live := ⟨offset, size, ring.allocated / kChunkSize⟩ :: ring.live
    allocated := ring.allocated + alignChunk size }

def step : RingCall → RingUse
  | .allocate size =>
    match ring.base.allocate size with
    | (_, none) => ring
    | (base, some offset) => ring.granted base offset size
  | .allocateRange minSize maxSize =>
    let after := ring.base.allocateRange minSize maxSize
    if after.2.1 = 0 then { ring with base := after.1 } else ring.granted after.1 after.2.2 after.2.1
  | .release index =>
    match ring.live[index]? with
    | none => ring
    | some block =>
      let base := ring.base.release block.offset block.size
      { ring with
        base
        live := ring.live.eraseIdx index
        reclaimed := ring.reclaimed + sub64 base.reclaimTail ring.base.reclaimTail }

/-- The chunks allocated and not yet reclaimed, with the bits of the bitmap. -/
def window : ChunkRing :=
  ⟨ring.base.numChunks, ring.reclaimed / kChunkSize, ring.allocated / kChunkSize, ring.base.bitmap⟩

structure Right : Prop where
  disjoint : ring.live.Pairwise fun block other => ∀ i < block.size, ∀ j < other.size,
    (block.offset + i) % ring.base.capacity ≠ (other.offset + j) % ring.base.capacity
  /-- A bit is set exactly for a chunk of the window that is not held by a live allocation any more. -/
  marks : ring.window.Marks (Covered (ring.live.map (·.span)))
  used : ring.base.used = ring.allocated - ring.reclaimed
  fits : ring.base.used ≤ ring.base.capacity
  empty : ring.live = [] → ring.base.used = 0

def inUse : Nat := ring.base.allocTail - ring.base.reclaimTail

/-- The sum of what is used and what is asked for is a word, and the tail stays below `2 ^ 64`. -/
def Careful : RingCall → Prop
  | .allocate size => ring.inUse + size + 63 < 2 ^ 64 ∧
    (ring.inUse + alignChunk size ≤ ring.base.capacity → ring.base.allocTail + alignChunk size < 2 ^ 64)
  | .allocateRange minSize maxSize => ring.inUse + alignChunk minSize ≤ ring.base.capacity →
    ring.base.allocTail + min (ring.base.capacity - ring.inUse) (alignChunk maxSize) < 2 ^ 64
  | .release _ => True

instance : ∀ call, Decidable (ring.Careful call)
  | .allocate _ => inferInstanceAs (Decidable (_ ∧ (_ → _)))
  | .allocateRange _ _ => inferInstanceAs (Decidable (_ → _))
  | .release _ => .isTrue trivial

/-! ## Runs of careful calls -/

variable {ring} {block : LiveBlock}

structure Inv (ring : RingUse) : Prop where
  sound : ring.base.Sound
  blocks : ∀ block ∈ ring.live, block.offset = 64 * (block.place % ring.base.numChunks) ∧ block.size + 63 < 2 ^ 64
  placed : Placed ring.base (ring.live.map (·.span))
  allocated : ring.allocated = ring.base.allocTail
  reclaimed : ring.reclaimed = ring.base.reclaimTail

variable (inv : ring.Inv) {base : UrmaSockRingBuf}
include inv

theorem Inv.window_eq : ring.window = ring.base.chunkRing := by
  rw [window, inv.allocated, inv.reclaimed]
  rfl

theorem Inv.disjoint : ring.live.Pairwise fun block other => ∀ i < block.size, ∀ j < other.size,
    (block.offset + i) % ring.base.capacity ≠ (other.offset + j) % ring.base.capacity := by
  refine (pairwise_map.mp inv.placed.apart).imp_of_mem ?_
  intro block other mem otherMem apart i lt j otherLt
  obtain ⟨offset, small⟩ := inv.blocks block mem
  obtain ⟨otherOffset, otherSmall⟩ := inv.blocks other otherMem
  exact inv.placed.bytes_apart inv.sound (mem_map_of_mem mem) (mem_map_of_mem otherMem) apart offset small otherOffset
    otherSmall lt otherLt

theorem Inv.right : ring.Right := by
  obtain ⟨-, fits, whole⟩ := inv.sound.inUse inv.placed.holds
  have used := (inv.sound.used inv.placed.holds).2
  refine ⟨inv.disjoint, inv.window_eq ▸ inv.placed.holds.toMarks, ?_, used ▸ fits, fun nothing => ?_⟩
  · rw [used, inv.allocated, inv.reclaimed]
  · have placed := inv.placed
    rw [nothing] at placed
    have empty : ring.base.reclaimTail / 64 = ring.base.allocTail / 64 :=
      placed.holds.empty fun position ⟨span, mem, _⟩ => nomatch mem
    rw [used, whole, empty, Nat.sub_self]

theorem Inv.granted {size : Nat} (small : size + 63 < 2 ^ 64) (room : ring.inUse + alignChunk size ≤ ring.base.capacity)
    (below : ring.base.allocTail + alignChunk size < 2 ^ 64) :
    (ring.granted { ring.base with allocTail := ring.base.allocTail + alignChunk size }
      (ring.base.allocTail % ring.base.capacity) size).Inv := by
  rw [alignChunk_eq_chunks] at room below
  obtain ⟨sound, placed⟩ := inv.placed.take inv.sound room below
  rw [RingUse.granted, inv.allocated, alignChunk_eq_chunks]
  exact ⟨sound, forall_mem_cons.mpr ⟨⟨inv.sound.tail_mod, small⟩, inv.blocks⟩, placed, rfl, inv.reclaimed⟩

omit inv in
theorem le_reclaimLoop {fuel position : Nat} {bitmap : Nat → Bool} :
    position ≤ (base.reclaimLoop fuel position bitmap).1 := by
  fun_induction UrmaSockRingBuf.reclaimLoop with
  | case1 | case3 => exact Nat.le_refl _
  | case2 fuel position bitmap more ih => exact Nat.le_trans (Nat.le_add_right _ _) ih

theorem Inv.release {index : Nat} (there : ring.live[index]? = some block) :
    Inv { ring with
      base := ring.base.release block.offset block.size
      live := ring.live.eraseIdx index
      reclaimed := ring.reclaimed +
        sub64 (ring.base.release block.offset block.size).reclaimTail ring.base.reclaimTail } := by
  obtain ⟨inside, rfl⟩ := List.getElem?_eq_some_iff.mp there
  have perm := (getElem_cons_eraseIdx_perm inside).symm
  have moved : (ring.live.map (·.span)).Perm ([ring.live[index].span] ++ (ring.live.eraseIdx index).map (·.span)) :=
    perm.map _
  obtain ⟨sound, capacity, tail, placed⟩ := (inv.placed.perm moved).release inv.sound fun _ => SendRing.covered_span
  have start : 64 * (ring.live[index].span.start % ring.base.numChunks) = ring.live[index].offset :=
    (inv.blocks _ (getElem_mem inside)).1.symm
  rw [start] at sound capacity tail placed
  have up : ring.base.reclaimTail ≤ (ring.base.release ring.live[index].offset ring.live[index].size).reclaimTail :=
    le_reclaimLoop
  refine ⟨sound, fun other mem => ?_, placed, inv.allocated.trans tail.symm, ?_⟩
  · show other.offset = 64 * (other.place % _) ∧ _
    rw [UrmaSockRingBuf.numChunks, capacity]
    exact inv.blocks other (mem_of_mem_eraseIdx mem)
  · rw [sub64_eq up, inv.reclaimed]
    exact Nat.add_sub_cancel' up

theorem Inv.step {call : RingCall} (careful : ring.Careful call) : (ring.step call).Inv := by
  cases call with
  | allocate size =>
    have small := careful.1
    rw [RingUse.step, inv.sound.allocate inv.placed.holds careful.1 careful.2]
    split_ifs with room
    · exact inv.granted (by omega) room (careful.2 room)
    · exact inv
  | allocateRange minSize maxSize =>
    rw [RingUse.step, inv.sound.allocateRange inv.placed.holds minSize maxSize careful]
    obtain ⟨-, fits, whole⟩ := inv.sound.inUse inv.placed.holds
    have capacity := inv.sound.capacity_eq
    have capacityLe := inv.sound.capacity_le
    by_cases room : ring.base.allocTail - ring.base.reclaimTail + alignChunk minSize ≤ ring.base.capacity
    · have below := careful room
      simp only [if_pos room]
      rw [inUse] at below
      have chunked := alignChunk_eq_chunks maxSize
      generalize grant : min (ring.base.capacity - (ring.base.allocTail - ring.base.reclaimTail))
        (alignChunk maxSize) = size at below ⊢
      have aligned : alignChunk size = size := by
        rw [alignChunk_eq]
        omega
      split_ifs with nothing
      · rw [nothing]
        exact inv
      · rw [← aligned] at below
        have after := inv.granted (by omega) (by rw [inUse]; omega) below
        rw [aligned] at after
        exact after
    · simp only [if_neg room]
      exact inv
  | release index =>
    rw [RingUse.step]
    cases there : ring.live[index]? with
    | none => exact inv
    | some block => exact inv.release there

omit inv

theorem new_inv {capacity : Nat} (valid : validateArgs capacity = true) : (new capacity).Inv :=
  ⟨(SendRing.new_inv valid).sound, nofun, SendRing.placed_new, rfl, rfl⟩

/-- In every run of careful calls the live allocations have no byte in common, the bits are those of the chunks
released and not reclaimed, and what is used is what is allocated and not reclaimed. -/
theorem ring_right_of_careful_calls {capacity : Nat} (valid : validateArgs capacity = true)
    (run : Run RingUse.step Careful (new capacity) ring) : ring.Right :=
  (run.invariant (new_inv valid) fun _ _ inv careful => inv.step careful).right

/-- The third allocation goes over the end, and is released before the second one. -/
def overTheEnd : List RingCall :=
  [.allocate 100, .allocate 64, .release 1, .allocateRange 64 128, .release 0, .allocate 64, .release 1]

theorem ring_right_overTheEnd :
    ((overTheEnd.foldl RingUse.step (new 256)).live.map fun block => (block.offset, block.size)) = [(64, 64)] ∧
      (overTheEnd.foldl RingUse.step (new 256)).Right :=
  ⟨by decide +kernel, ring_right_of_careful_calls (by decide) (Run.ofList (by decide +kernel))⟩

/-- One chunk taken and given back, again and again, up to the last word. -/
theorem reaches_tail (n : Nat) (below : 64 * n < 2 ^ 64) :
    ∃ ring, Run RingUse.step (fun _ _ => True) (new 64) ring ∧ ring.Inv ∧ ring.live = [] ∧
      ring.base.capacity = 64 ∧ ring.base.allocTail = 64 * n := by
  induction n with
  | zero => exact ⟨new 64, .refl, new_inv (by decide), rfl, rfl, rfl⟩
  | succ n ih =>
    obtain ⟨ring, run, inv, nothing, capacity, tail⟩ := ih (by omega)
    have used := inv.right.empty nothing
    rw [(inv.sound.used inv.placed.holds).2] at used
    have aligned : alignChunk ((64 : Fin (2 ^ 64)) : Nat) = 64 := by decide
    have careful : ring.Careful (.allocate 64) := ⟨by rw [inUse, used]; decide, fun _ => by omega⟩
    have room : ring.base.allocTail - ring.base.reclaimTail + alignChunk ((64 : Fin (2 ^ 64)) : Nat) ≤
        ring.base.capacity := by
      omega
    have allocated : ring.step (.allocate 64) =
        ring.granted { ring.base with allocTail := 64 * (n + 1) } (ring.base.allocTail % ring.base.capacity) 64 := by
      rw [RingUse.step, inv.sound.allocate inv.placed.holds careful.1 careful.2, if_pos room, aligned, tail]
      rfl
    have after := inv.step careful
    have run := (run.snoc (.allocate 64) trivial).snoc (.release 0) trivial
    rw [allocated] at after run
    exact ⟨_, run, after.step trivial, nothing, capacity, rfl⟩

/-- A tail that has gone around is never above the reclaim tail. -/
theorem release_wrapped (wrapped : base.allocTail ≤ base.reclaimTail) (offset size : Nat) :
    (base.release offset size).reclaimTail = base.reclaimTail := by
  rw [UrmaSockRingBuf.release, Nat.sub_eq_zero_of_le wrapped, Nat.zero_div]
  rfl

/-- Once the tail has gone around, nothing is reclaimed: all is released and 64 bytes stay in use. -/
theorem ring_tail_wrapped : validateArgs 64 = true ∧ ∃ ring, Run RingUse.step (fun _ _ => True) (new 64) ring ∧
    ring.live = [] ∧ ring.base.used = 64 ∧ ¬ ring.Right := by
  obtain ⟨⟨⟨capacity, allocTail, reclaimTail, bitmap⟩, live, words, reclaimed⟩, run, inv, nothing, rfl, tail⟩ :=
    reaches_tail (2 ^ 58 - 1) (by decide)
  have used := inv.right.empty nothing
  rw [(inv.sound.used inv.placed.holds).2] at used
  have words : allocTail = 18446744073709551552 ∧ reclaimTail = 18446744073709551552 := by
    have le := (inv.sound.inUse inv.placed.holds).1
    dsimp only at *
    omega
  obtain ⟨rfl, rfl⟩ := words
  subst nothing
  have run := (run.snoc (.allocate 64) trivial).snoc (.release 0) trivial
  -- the next chunk takes the tail around
  have room :
      ¬ (sub64 18446744073709551552 18446744073709551552 + alignChunk ((64 : Fin (2 ^ 64)) : Nat)) % 2 ^ 64 > 64 := by
    decide
  have around : (18446744073709551552 + alignChunk ((64 : Fin (2 ^ 64)) : Nat)) % 2 ^ 64 = 0 := by decide
  rw [RingUse.step, UrmaSockRingBuf.allocate] at run
  simp only [if_neg room, around] at run
  refine ⟨by decide, _, run, rfl, and_iff_left_of_imp (fun used right => ?_) |>.mpr ?_⟩
  · rw [right.empty rfl] at used
    cases used
  · show sub64 64 (sub64 64 (sub64 0 (UrmaSockRingBuf.release _ _ _).reclaimTail)) = 64
    rw [release_wrapped (Nat.zero_le _)]
    show sub64 64 (sub64 64 (sub64 0 18446744073709551552)) = 64
    decide

end RingUse

end UbsComm.Urma
