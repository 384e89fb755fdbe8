import UbsComm.Qbuf.BreakAndFree

/-! # Resetting the headroom of a chain

The data of each packet is laid out anew behind the new headroom.  Only the first packet is
checked for room, and the variant for combined mode forgets the headroom of the packets
behind the first fragment that is not a first one. -/

namespace UbsComm.Qbuf

open List

def umqHeadroomSizeLimit : Nat := 512

def sub32 (a b : Nat) : Nat := (a + 2 ^ 32 - b) % 2 ^ 32

/-- The blocks of `blockSize` bytes for the data and the headroom, in sums of 32 bits. -/
def resetBufCount (totalDataSize headroomSize blockSize : Nat) : Nat :=
  (totalDataSize + headroomSize + blockSize - 1) % 2 ^ 32 / blockSize

/-- A first fragment gets its data pointer moved and the new headroom. -/
def Buf.setHeadroom (data : Buf) (diff : Int) (headroomSize : Nat) : Buf :=
  { data with bufData := ((data.bufData : Int) + diff).toNat, headroomSize := headroomSize }

/-- The loop of `headroom_reset_with_split`. -/
def resetSplit (headroomSize blockSize : Nat) (diff : Int) : Nat → List Buf → List Buf
  | _, [] => []
  | remainingSize, data :: next =>
    if data.firstFragment then
      let dataSize := min data.totalDataSize (sub32 blockSize headroomSize)
      { data.setHeadroom diff headroomSize with dataSize := dataSize } ::
        resetSplit headroomSize blockSize diff (data.totalDataSize - dataSize) next
    else
      let dataSize := min remainingSize blockSize
      { data with dataSize := dataSize } :: resetSplit headroomSize blockSize diff (remainingSize - dataSize) next

/-- The loop of `headroom_reset_with_combine`, which carries the capacity along. -/
def resetCombine (headroomSize alignSize : Nat) (diff : Int) : Nat → Nat → List Buf → List Buf
  | _, _, [] => []
  | maxDataCapacity, remainingSize, data :: next =>
    if data.firstFragment then
      let dataSize := min data.totalDataSize maxDataCapacity
      { data.setHeadroom diff headroomSize with dataSize := dataSize } ::
        resetCombine headroomSize alignSize diff maxDataCapacity (data.totalDataSize - dataSize) next
    else
      let dataSize := min remainingSize alignSize
      { data with dataSize := dataSize } ::
        resetCombine headroomSize alignSize diff alignSize (remainingSize - dataSize) next

/-- Whether the call succeeds, and the chain after it. -/
def headroomResetWithSplit (qbuf : Buf) (next : List Buf) (headroomSize blockSize : Nat) : Bool × List Buf :=
  if resetBufCount qbuf.totalDataSize headroomSize blockSize > resetBufCount qbuf.totalDataSize qbuf.headroomSize
    blockSize then
    (false, qbuf :: next)
  else
    (true, resetSplit headroomSize blockSize (headroomSize - qbuf.headroomSize) qbuf.totalDataSize (qbuf :: next))

def headroomResetWithCombine (qbuf : Buf) (next : List Buf) (headroomSize blockSize : Nat) : Bool × List Buf :=
  let alignSize := sub32 blockSize sizeofUmqBuf
  if resetBufCount qbuf.totalDataSize headroomSize alignSize > resetBufCount qbuf.totalDataSize qbuf.headroomSize
    alignSize then
    (false, qbuf :: next)
  else
    (true, resetCombine headroomSize alignSize (headroomSize - qbuf.headroomSize) (sub32 alignSize headroomSize)
      qbuf.totalDataSize (qbuf :: next))

/-- The pool is initialised and the chain has a first buffer. -/
def umqQbufHeadroomReset (mode : BufMode) (qbuf : Buf) (next : List Buf) (headroomSize : Nat) : Bool × List Buf :=
  match mode with
  | .split =>
    if qbuf.bufSize < sizeofUmqBuf then (false, qbuf :: next)
    else headroomResetWithSplit qbuf next headroomSize (qbuf.bufSize - sizeofUmqBuf)
  | .combine => headroomResetWithCombine qbuf next headroomSize qbuf.bufSize

/-! ## What should come out -/

/-- The bytes of a block for headroom and data, in either mode. -/
def Buf.capacity (buf : Buf) : Nat := buf.bufSize - sizeofUmqBuf

/-- A packet of blocks with data; only its first fragment has headroom. -/
structure PacketShape (packet : List Buf) : Prop where
  first : ∃ first others, packet = first :: others ∧ first.firstFragment = true ∧
    ∀ buf ∈ others, buf.firstFragment = false ∧ buf.headroomSize = 0
  roomy : ∀ buf ∈ packet, umqHeadroomSizeLimit ≤ buf.capacity ∧ buf.bufSize < 2 ^ 32

/-- The data sizes add up to the total of the packet and each fragment has its data and
headroom in its own block. -/
def PacketRight (packet : List Buf) : Prop :=
  (∀ first ∈ packet.head?, dataSum packet = first.totalDataSize) ∧
    ∀ buf ∈ packet, buf.headroomSize + buf.dataSize ≤ buf.capacity

/-- An error leaves the chain as it is, and after a success every packet is right. -/
def ResetRight (packets : List (List Buf)) (result : Bool × List Buf) : Prop :=
  if result.1 then
    ∃ after : List (List Buf), result.2 = after.flatten ∧ after.map length = packets.map length ∧
      ∀ packet ∈ after, PacketRight packet
  else result.2 = packets.flatten

/-! ## One packet -/

/-- Fragments behind the first one, filled up with what remains. -/
def refill (blockSize : Nat) : Nat → List Buf → List Buf
  | _, [] => []
  | remainingSize, data :: next =>
    { data with dataSize := min remainingSize blockSize } :: refill blockSize
    (remainingSize - min remainingSize blockSize) next

def Buf.relayFirst (first : Buf) (headroomSize : Nat) (diff : Int) (firstCapacity : Nat) : Buf :=
  { first.setHeadroom diff headroomSize with dataSize := min first.totalDataSize firstCapacity }

/-- A packet laid out anew, with room for `firstCapacity` bytes of data in its first fragment. -/
def relay (headroomSize blockSize : Nat) (diff : Int) (firstCapacity : Nat) : List Buf → List Buf
  | [] => []
  | first :: others =>
    first.relayFirst headroomSize diff firstCapacity ::
      refill blockSize (first.totalDataSize - min first.totalDataSize firstCapacity) others

variable {headroomSize blockSize firstCapacity remaining : Nat} {diff : Int} {packet bufs : List Buf} {first : Buf}

@[simp] theorem length_refill : (refill blockSize remaining bufs).length = bufs.length := by
  induction bufs generalizing remaining with
  | nil => rfl
  | cons data next ih => rw [refill, length_cons, ih, length_cons]

@[simp] theorem length_relay : (relay headroomSize blockSize diff firstCapacity packet).length = packet.length := by
  cases packet with
  | nil => rfl
  | cons first others => rw [relay, length_cons, length_refill, length_cons]

theorem dataSum_refill : dataSum (refill blockSize remaining bufs) = min remaining (bufs.length * blockSize) := by
  induction bufs generalizing remaining with
  | nil => simp [refill]
  | cons data next ih =>
    rw [refill, dataSum_cons, ih, length_cons, Nat.succ_mul]
    show min remaining blockSize + _ = _
    omega

theorem getElem?_refill {k : Nat} : (refill blockSize remaining bufs)[k]? =
    bufs[k]?.map fun data => { data with dataSize := min (remaining - k * blockSize) blockSize } := by
  induction bufs generalizing remaining k with
  | nil => rfl
  | cons data next ih =>
    cases k with
    | zero => simp [refill]
    | succ k =>
      rw [refill, getElem?_cons_succ, getElem?_cons_succ, ih, Nat.succ_mul]
      have same : remaining - min remaining blockSize - k * blockSize =
          remaining - (k * blockSize + blockSize) := by omega
      rw [same]

/-- Blocks of `blockSize` bytes are enough for the headroom and the data, and what falls into
each of them fits into the block of its own fragment. -/
structure Fits (headroomSize blockSize : Nat) (packet : List Buf) : Prop where
  room : ∀ first ∈ packet.head?, first.totalDataSize + headroomSize ≤ packet.length * blockSize
  own : ∀ first ∈ packet.head?, ∀ k buf, packet[k]? = some buf →
    min (first.totalDataSize + headroomSize - k * blockSize) blockSize ≤ buf.capacity

variable {maxDataCapacity : Nat} {others : List Buf}

theorem fits_cons :
    Fits headroomSize blockSize (first :: others) ↔
      first.totalDataSize + headroomSize ≤ (others.length + 1) * blockSize ∧
        min (first.totalDataSize + headroomSize) blockSize ≤ first.capacity ∧
        ∀ k buf, others[k]? = some buf →
          min (first.totalDataSize + headroomSize - (k + 1) * blockSize) blockSize ≤ buf.capacity := by
  constructor
  · rintro ⟨room, own⟩
    refine ⟨room first rfl, ?_, fun k buf found => own first rfl (k + 1) buf found⟩
    simpa using own first rfl 0 first rfl
  · rintro ⟨room, here, behind⟩
    constructor
    · rintro _ ⟨⟩
      exact room
    · rintro _ ⟨⟩ k buf found
      cases k with
      | zero =>
        cases found
        simpa using here
      | succ k => exact behind k buf found

theorem packetRight_relay_cons (bare : ∀ buf ∈ others, buf.headroomSize = 0) :
    PacketRight (relay headroomSize blockSize diff firstCapacity (first :: others)) ↔
      first.totalDataSize ≤ firstCapacity + others.length * blockSize ∧
        headroomSize + min first.totalDataSize firstCapacity ≤ first.capacity ∧
        ∀ k buf, others[k]? = some buf →
          min (first.totalDataSize - min first.totalDataSize firstCapacity - k * blockSize) blockSize ≤
            buf.capacity := by
  have sum : dataSum (relay headroomSize blockSize diff firstCapacity (first :: others)) = first.totalDataSize ↔
      first.totalDataSize ≤ firstCapacity + others.length * blockSize := by
    rw [relay, dataSum_cons, dataSum_refill]
    show min first.totalDataSize firstCapacity + _ = _ ↔ _
    omega
  have fragments : (∀ buf ∈ refill blockSize (first.totalDataSize - min first.totalDataSize firstCapacity) others,
        buf.headroomSize + buf.dataSize ≤ buf.capacity) ↔
      ∀ k buf, others[k]? = some buf →
        min (first.totalDataSize - min first.totalDataSize firstCapacity - k * blockSize) blockSize ≤ buf.capacity := by
    constructor
    · intro right k buf found
      have filled := right _ (mem_of_getElem? (by rw [getElem?_refill, found]; rfl))
      exact Nat.le_trans (Nat.le_add_left _ _) filled
    · intro right buf mem
      obtain ⟨k, found⟩ := getElem?_of_mem mem
      rw [getElem?_refill, Option.map_eq_some_iff] at found
      obtain ⟨data, found, rfl⟩ := found
      have bound := right k data found
      rw [bare data (mem_of_getElem? found), Nat.zero_add]
      exact bound
  rw [← sum, ← fragments, PacketRight, relay, forall_mem_cons]
  apply and_congr
  · constructor
    · exact fun total => total (first.relayFirst headroomSize diff firstCapacity) rfl
    · rintro total _ ⟨⟩
      exact total
  · exact Iff.rfl

/-- Data behind the headroom in blocks of one size. -/
theorem packetRight_relay_iff (small : headroomSize ≤ blockSize) (bare : ∀ buf ∈ others, buf.headroomSize = 0) :
    PacketRight (relay headroomSize blockSize diff (blockSize - headroomSize) (first :: others)) ↔
      Fits headroomSize blockSize (first :: others) := by
  rw [packetRight_relay_cons bare, fits_cons]
  refine and_congr ?_ (and_congr ?_ (forall_congr' fun k => forall_congr' fun buf => imp_congr_right fun _ => ?_))
  · rw [Nat.succ_mul]
    omega
  · omega
  · rw [Nat.succ_mul]
    omega

/-! ## A chain of packets -/

variable {packets : List (List Buf)} {others rest : List Buf}

theorem resetSplit_unflagged (unflagged : ∀ buf ∈ others, buf.firstFragment = false) :
    ∃ after, resetSplit headroomSize blockSize diff remaining (others ++ rest) =
      refill blockSize remaining others ++ resetSplit headroomSize blockSize diff after rest := by
  induction others generalizing remaining with
  | nil => exact ⟨remaining, rfl⟩
  | cons data next ih =>
    rw [forall_mem_cons] at unflagged
    obtain ⟨after, same⟩ := @ih (remaining - min remaining blockSize) unflagged.2
    refine ⟨after, ?_⟩
    rw [cons_append, resetSplit, if_neg (Bool.eq_false_iff.mp unflagged.1), refill, cons_append, ← same]

theorem resetSplit_packets (shape : ∀ packet ∈ packets, PacketShape packet) :
    resetSplit headroomSize blockSize diff remaining packets.flatten =
      (packets.map (relay headroomSize blockSize diff (sub32 blockSize headroomSize))).flatten := by
  induction packets generalizing remaining with
  | nil => rfl
  | cons packet packets ih =>
    rw [forall_mem_cons] at shape
    obtain ⟨first, others, rfl, flagged, bare⟩ := shape.1.first
    obtain ⟨after, same⟩ := @resetSplit_unflagged headroomSize blockSize
      (first.totalDataSize - min first.totalDataSize (sub32 blockSize headroomSize)) diff others packets.flatten
      fun buf listed => (bare buf listed).1
    rw [flatten_cons, cons_append, resetSplit, if_pos flagged]
    dsimp only
    rw [same, ih shape.2, map_cons, flatten_cons, relay, cons_append]
    rfl

/-- Behind a packet of several fragments the first capacity is that of a whole block. -/
def relayCombine (headroomSize alignSize : Nat) (diff : Int) : Nat → List (List Buf) → List (List Buf)
  | _, [] => []
  | maxDataCapacity, packet :: packets =>
    relay headroomSize alignSize diff maxDataCapacity packet ::
      relayCombine headroomSize alignSize diff (if packet.length = 1 then maxDataCapacity else alignSize) packets

theorem resetCombine_unflagged (unflagged : ∀ buf ∈ others, buf.firstFragment = false) :
    ∃ after, resetCombine headroomSize blockSize diff maxDataCapacity remaining (others ++ rest) =
      refill blockSize remaining others ++
        resetCombine headroomSize blockSize diff (if others = [] then maxDataCapacity else blockSize) after rest := by
  induction others generalizing remaining maxDataCapacity with
  | nil => exact ⟨remaining, rfl⟩
  | cons data next ih =>
    rw [forall_mem_cons] at unflagged
    obtain ⟨after, same⟩ := @ih (remaining - min remaining blockSize) blockSize unflagged.2
    refine ⟨after, ?_⟩
    rw [cons_append, resetCombine, if_neg (Bool.eq_false_iff.mp unflagged.1), refill, cons_append,
      if_neg (cons_ne_nil data next)]
    simp only [ite_self] at same
    rw [← same]

theorem resetCombine_packets (shape : ∀ packet ∈ packets, PacketShape packet) :
    resetCombine headroomSize blockSize diff maxDataCapacity remaining packets.flatten =
      (relayCombine headroomSize blockSize diff maxDataCapacity packets).flatten := by
  induction packets generalizing remaining maxDataCapacity with
  | nil => rfl
  | cons packet packets ih =>
    rw [forall_mem_cons] at shape
    obtain ⟨first, others, rfl, flagged, bare⟩ := shape.1.first
    obtain ⟨after, same⟩ := @resetCombine_unflagged headroomSize blockSize
      (first.totalDataSize - min first.totalDataSize maxDataCapacity) diff maxDataCapacity others packets.flatten
      fun buf listed => (bare buf listed).1
    rw [flatten_cons, cons_append, resetCombine, if_pos flagged]
    dsimp only
    rw [same, ih shape.2, relayCombine, relay]
    simp [Buf.relayFirst]

/-! ## The two variants -/

/-- Behind a packet of several fragments (`late`) the packets have no headroom to forget, or
lie in their first block with it. -/
def LateSmall (headroomSize blockSize : Nat) : Bool → List (List Buf) → Prop
  | _, [] => True
  | late, packet :: packets =>
    (late = true → ∀ first ∈ packet.head?, headroomSize = 0 ∨ first.totalDataSize + headroomSize ≤ blockSize) ∧
      LateSmall headroomSize blockSize (late || packet.length ≠ 1) packets

theorem relay_eq_of_small
    (small : ∀ first ∈ packet.head?, headroomSize = 0 ∨ first.totalDataSize + headroomSize ≤ blockSize) :
    relay headroomSize blockSize diff blockSize packet =
      relay headroomSize blockSize diff (blockSize - headroomSize) packet := by
  cases packet with
  | nil => rfl
  | cons first others =>
    have same : min first.totalDataSize blockSize = min first.totalDataSize (blockSize - headroomSize) := by
      have := small first rfl
      omega
    rw [relay, relay, Buf.relayFirst, Buf.relayFirst, same]

theorem small_of_dataSize_eq (fits : headroomSize ≤ blockSize)
    (same : (relay headroomSize blockSize diff blockSize packet).map Buf.dataSize =
      (relay headroomSize blockSize diff (blockSize - headroomSize) packet).map Buf.dataSize) :
    ∀ first ∈ packet.head?, headroomSize = 0 ∨ first.totalDataSize + headroomSize ≤ blockSize := by
  cases packet with
  | nil => exact fun first found => nomatch found
  | cons first others =>
    rintro _ ⟨⟩
    have heads : min first.totalDataSize blockSize = min first.totalDataSize (blockSize - headroomSize) :=
      (cons.inj same).1
    omega

/-- The capacity the variant for combined mode has at the start of a packet. -/
def combineCapacity (headroomSize blockSize : Nat) (late : Bool) : Nat :=
  if late then blockSize else blockSize - headroomSize

theorem combineCapacity_next {late : Bool} {packet : List Buf} :
    (if packet.length = 1 then combineCapacity headroomSize blockSize late else blockSize) =
      combineCapacity headroomSize blockSize (late || packet.length ≠ 1) := by
  by_cases single : packet.length = 1 <;> simp [combineCapacity, single]

theorem relayCombine_eq {late : Bool} (small : LateSmall headroomSize blockSize late packets) :
    relayCombine headroomSize blockSize diff (combineCapacity headroomSize blockSize late) packets =
      packets.map (relay headroomSize blockSize diff (blockSize - headroomSize)) := by
  induction packets generalizing late with
  | nil => rfl
  | cons packet packets ih =>
    rw [relayCombine, combineCapacity_next, ih small.2, map_cons]
    cases late with
    | false => rfl
    | true => rw [combineCapacity, if_pos rfl, relay_eq_of_small (small.1 rfl)]

theorem lateSmall_of_dataSize_eq {late : Bool} (fits : headroomSize ≤ blockSize)
    (same : (relayCombine headroomSize blockSize diff
      (combineCapacity headroomSize blockSize late) packets).flatten.map Buf.dataSize =
      (packets.map (relay headroomSize blockSize diff (blockSize - headroomSize))).flatten.map Buf.dataSize) :
    LateSmall headroomSize blockSize late packets := by
  induction packets generalizing late with
  | nil => trivial
  | cons packet packets ih =>
    rw [relayCombine, combineCapacity_next, flatten_cons, map_append, map_cons, flatten_cons,
      map_append] at same
    obtain ⟨here, behind⟩ := append_inj same (by simp only [length_map, length_relay])
    refine ⟨fun isLate => ?_, ih behind⟩
    rw [isLate] at here
    exact small_of_dataSize_eq fits here

theorem resetRight_flatten_iff {after : List (List Buf)} (lengths : after.map length = packets.map length) :
    ResetRight packets (true, after.flatten) ↔ ∀ packet ∈ after, PacketRight packet := by
  constructor
  · rintro ⟨other, same, otherLengths, right⟩
    rw [eq_iff_flatten_eq.mpr ⟨same, lengths.trans otherLengths.symm⟩]
    exact right
  · exact fun right => ⟨after, rfl, lengths, right⟩

theorem fits_of_shape (shape : PacketShape packet) (fits : headroomSize ≤ blockSize) :
    PacketRight (relay headroomSize blockSize diff (blockSize - headroomSize) packet) ↔
      Fits headroomSize blockSize packet := by
  obtain ⟨first, others, rfl, -, bare⟩ := shape.first
  exact packetRight_relay_iff fits fun buf listed => (bare buf listed).2

theorem sub32_of_le {a b : Nat} (le : b ≤ a) (small : a < 2 ^ 32) : sub32 a b = a - b := by
  rw [sub32]
  omega

section Calls

variable {qbuf : Buf} {next : List Buf} (chain : packets.flatten = qbuf :: next)
  (shape : ∀ packet ∈ packets, PacketShape packet) (limit : headroomSize ≤ umqHeadroomSizeLimit)

include chain shape in
theorem roomy_first : umqHeadroomSizeLimit ≤ qbuf.capacity ∧ qbuf.bufSize < 2 ^ 32 := by
  have listed : qbuf ∈ packets.flatten := chain ▸ mem_cons_self
  obtain ⟨packet, inPackets, inPacket⟩ := mem_flatten.mp listed
  exact (shape packet inPackets).roomy qbuf inPacket

include chain shape

theorem capacity_first :
    sizeofUmqBuf ≤ qbuf.bufSize ∧ qbuf.capacity < 2 ^ 32 ∧ sub32 qbuf.bufSize sizeofUmqBuf = qbuf.capacity := by
  have roomy := roomy_first chain shape
  have capacity : qbuf.capacity = qbuf.bufSize - sizeofUmqBuf := rfl
  have limit : umqHeadroomSizeLimit = 512 := rfl
  have header : sizeofUmqBuf ≤ qbuf.bufSize := by omega
  exact ⟨header, by omega, sub32_of_le header roomy.2⟩

theorem umqQbufHeadroomReset_split_eq :
    umqQbufHeadroomReset .split qbuf next headroomSize = headroomResetWithSplit qbuf next headroomSize qbuf.capacity :=
  if_neg (Nat.not_lt.mpr (capacity_first chain shape).1)

theorem umqQbufHeadroomReset_rejected {mode : BufMode}
    (rejected : ¬ resetBufCount qbuf.totalDataSize headroomSize qbuf.capacity ≤
      resetBufCount qbuf.totalDataSize qbuf.headroomSize qbuf.capacity) :
    umqQbufHeadroomReset mode qbuf next headroomSize = (false, qbuf :: next) := by
  cases mode with
  | split =>
    rw [umqQbufHeadroomReset_split_eq chain shape]
    exact if_pos (Nat.lt_of_not_le rejected)
  | combine =>
    simp only [umqQbufHeadroomReset, headroomResetWithCombine, (capacity_first chain shape).2.2]
    exact if_pos (Nat.lt_of_not_le rejected)

include limit

theorem sub32_capacity_first : sub32 qbuf.capacity headroomSize = qbuf.capacity - headroomSize :=
  sub32_of_le (Nat.le_trans limit (roomy_first chain shape).1) (capacity_first chain shape).2.1

section

variable (accepted : resetBufCount qbuf.totalDataSize headroomSize qbuf.capacity ≤
  resetBufCount qbuf.totalDataSize qbuf.headroomSize qbuf.capacity)
include accepted

theorem umqQbufHeadroomReset_split :
    umqQbufHeadroomReset .split qbuf next headroomSize =
      (true, (packets.map (relay headroomSize qbuf.capacity (headroomSize - qbuf.headroomSize)
        (qbuf.capacity - headroomSize))).flatten) := by
  rw [umqQbufHeadroomReset_split_eq chain shape, headroomResetWithSplit, if_neg (Nat.not_lt.mpr accepted), ← chain,
    resetSplit_packets shape, sub32_capacity_first chain shape limit]

theorem umqQbufHeadroomReset_combine :
    umqQbufHeadroomReset .combine qbuf next headroomSize =
      (true, (relayCombine headroomSize qbuf.capacity (headroomSize - qbuf.headroomSize)
        (combineCapacity headroomSize qbuf.capacity false) packets).flatten) := by
  simp only [umqQbufHeadroomReset, headroomResetWithCombine, (capacity_first chain shape).2.2]
  rw [if_neg (Nat.not_lt.mpr accepted), ← chain, resetCombine_packets shape, sub32_capacity_first chain shape limit]
  rfl

end

end Calls

/-- Both variants do what they should and agree on the data sizes exactly when, if the check
on the first packet passes, every packet fits behind the headroom and no packet behind one of
several fragments needs a second block. -/
theorem umqQbufHeadroomReset_right_iff {qbuf : Buf} {next : List Buf} (chain : packets.flatten = qbuf :: next)
    (shape : ∀ packet ∈ packets, PacketShape packet) (limit : headroomSize ≤ umqHeadroomSizeLimit) :
    ((∀ mode, ResetRight packets (umqQbufHeadroomReset mode qbuf next headroomSize)) ∧
        (umqQbufHeadroomReset .combine qbuf next headroomSize).2.map Buf.dataSize =
          (umqQbufHeadroomReset .split qbuf next headroomSize).2.map Buf.dataSize) ↔
      (resetBufCount qbuf.totalDataSize headroomSize qbuf.capacity ≤
          resetBufCount qbuf.totalDataSize qbuf.headroomSize qbuf.capacity →
        (∀ packet ∈ packets, Fits headroomSize qbuf.capacity packet) ∧
          LateSmall headroomSize qbuf.capacity false packets) := by
  have fits : headroomSize ≤ qbuf.capacity := Nat.le_trans limit (roomy_first chain shape).1
  by_cases accepted : resetBufCount qbuf.totalDataSize headroomSize qbuf.capacity ≤
      resetBufCount qbuf.totalDataSize qbuf.headroomSize qbuf.capacity
  · have split := umqQbufHeadroomReset_split chain shape limit accepted
    have combine := umqQbufHeadroomReset_combine chain shape limit accepted
    have lengths : (packets.map (relay headroomSize qbuf.capacity (headroomSize - qbuf.headroomSize)
        (qbuf.capacity - headroomSize))).map length = packets.map length := by
      rw [map_map]
      exact map_congr_left fun packet _ => length_relay
    have splitRight : ResetRight packets (umqQbufHeadroomReset .split qbuf next headroomSize) ↔
        ∀ packet ∈ packets, Fits headroomSize qbuf.capacity packet := by
      rw [split, resetRight_flatten_iff lengths, forall_mem_map]
      exact forall₂_congr fun packet listed => fits_of_shape (shape packet listed) fits
    constructor
    · rintro ⟨right, same⟩ -
      refine ⟨splitRight.mp (right .split), ?_⟩
      rw [split, combine] at same
      exact lateSmall_of_dataSize_eq fits same
    · intro condition
      obtain ⟨allFit, small⟩ := condition accepted
      -- the variants then compute the same chain
      have agree : umqQbufHeadroomReset .combine qbuf next headroomSize =
          umqQbufHeadroomReset .split qbuf next headroomSize := by
        rw [split, combine, relayCombine_eq small]
      refine ⟨fun mode => ?_, by rw [agree]⟩
      cases mode with
      | split => exact splitRight.mpr allFit
      | combine =>
        rw [agree]
        exact splitRight.mpr allFit
  · refine iff_of_true ⟨fun mode => ?_, ?_⟩ fun isAccepted => absurd isAccepted accepted
    · rw [umqQbufHeadroomReset_rejected chain shape accepted]
      exact chain.symm
    · rw [umqQbufHeadroomReset_rejected chain shape accepted,
        umqQbufHeadroomReset_rejected chain shape accepted]

/-- A first fragment, and one behind it, in blocks of 4096 bytes. -/
def sampleHead (totalDataSize dataSize : Nat) : Buf :=
  { sampleNormal with totalDataSize := totalDataSize, dataSize := dataSize }

def sampleTail (dataSize : Nat) : Buf :=
  { sampleNormal with totalDataSize := 0, dataSize := dataSize, firstFragment := false }

theorem sample_shape {totalDataSize dataSize tailSize : Nat} :
    PacketShape [sampleHead totalDataSize dataSize, sampleTail tailSize] := by
  constructor
  · exact ⟨_, _, rfl, rfl, forall_mem_singleton.mpr ⟨rfl, rfl⟩⟩
  · have block : umqHeadroomSizeLimit ≤ 4224 - sizeofUmqBuf ∧ 4224 < 2 ^ 32 := by decide
    exact forall_mem_cons.mpr ⟨block, forall_mem_singleton.mpr block⟩

/-- A packet of 5000 bytes in two blocks. -/
theorem umqQbufHeadroomReset_sample :
    (∀ mode, ResetRight [[sampleHead 5000 4096, sampleTail 904]]
        (umqQbufHeadroomReset mode (sampleHead 5000 4096) [sampleTail 904] 512)) ∧
      (umqQbufHeadroomReset .combine (sampleHead 5000 4096) [sampleTail 904] 512).2.map Buf.dataSize =
        (umqQbufHeadroomReset .split (sampleHead 5000 4096) [sampleTail 904] 512).2.map Buf.dataSize := by
  refine (umqQbufHeadroomReset_right_iff rfl (forall_mem_singleton.mpr sample_shape) (by decide)).mpr fun _ => ?_
  have fits : Fits 512 4096 [sampleHead 5000 4096, sampleTail 904] := by
    refine fits_cons.mpr ⟨by decide, by decide, fun k buf found => ?_⟩
    obtain rfl := mem_singleton.mp (mem_of_getElem? found)
    exact Nat.min_le_right _ _
  exact ⟨forall_mem_singleton.mpr fits, nofun, trivial⟩

/-- Two packets of 5000 bytes: in combined mode the second one gets 4096 bytes behind a headroom
of 512 in a block of 4096.  And a packet of 100 bytes before one of 4096: the second one keeps
3584 bytes. -/
theorem umqQbufHeadroomReset_second_packet :
    ¬ ResetRight [[sampleHead 5000 4096, sampleTail 904], [sampleHead 5000 4096, sampleTail 904]]
      (umqQbufHeadroomReset .combine (sampleHead 5000 4096) [sampleTail 904, sampleHead 5000 4096, sampleTail 904] 512)
        ∧
    ¬ ResetRight [[sampleHead 100 100], [sampleHead 4096 4096]]
      (umqQbufHeadroomReset .split (sampleHead 100 100) [sampleHead 4096 4096] 512) := by
  have large : umqQbufHeadroomReset .combine (sampleHead 5000 4096)
      [sampleTail 904, sampleHead 5000 4096, sampleTail 904] 512 =
      (true, [[(sampleHead 5000 3584).setHeadroom 512 512, sampleTail 1416],
        [(sampleHead 5000 4096).setHeadroom 512 512, sampleTail 904]].flatten) := by decide
  have small : umqQbufHeadroomReset .split (sampleHead 100 100) [sampleHead 4096 4096] 512 =
      (true, [[(sampleHead 100 100).setHeadroom 512 512], [(sampleHead 4096 3584).setHeadroom 512 512]].flatten) := by
    decide
  constructor
  · rw [large, resetRight_flatten_iff (by decide)]
    exact fun right => absurd ((right _ (mem_cons_of_mem _ mem_cons_self)).2 _ mem_cons_self) (by decide)
  · rw [small, resetRight_flatten_iff (by decide)]
    exact fun right => absurd ((right _ (mem_cons_of_mem _ mem_cons_self)).1 _ rfl) (by decide)

end UbsComm.Qbuf
