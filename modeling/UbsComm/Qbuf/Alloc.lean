import UbsComm.Qbuf.Headroom
import UbsComm.Qbuf.Layout

/-! # What an allocation hands out

Blocks from the cache of the thread are cut into packets of the requested size.  When the
cache cannot be filled, one block of the heap takes the place of a packet. -/

namespace UbsComm.Qbuf

open List

def umqMaxBufRequestSize : Nat := 10485760

structure AllocPool where
  mode : BufMode
  blockSizes : List Nat
  disableMallocEscape : Bool

/-- A request, with the headroom it asks for or gets by default.  `headroomFlag` says that it
asks, `explicitNormal` that it names the normal pool. -/
structure AllocCall where
  requestSize : Nat
  num : Nat
  headroomSize : Nat
  headroomFlag : Bool
  explicitNormal : Bool

/-- What `umq_buf_alloc` lets through. -/
structure AllocCall.Accepted (call : AllocCall) : Prop where
  some : call.num ≠ 0
  small : call.requestSize ≤ umqMaxBufRequestSize
  headroom : call.headroomSize ≤ umqHeadroomSizeLimit

/-- What an allocation finds: the blocks of its class and those without data that are in the
cache of the thread when it has been filled, if it could be, and the memory of `memalign`. -/
structure AllocEnv where
  fetched : Bool
  blocks : List Buf
  nodata : List Buf
  address : Nat

/-- `umq_qbuf_alloc_escape`: a header behind a block of its own. -/
def AllocEnv.umqQbufAllocEscape (env : AllocEnv) (blkSize : Nat) : Buf :=
  { addr := env.address + blkSize, mempoolId := qbufPoolMempoolIdMax, mempoolWithoutData := false
    bufSize := blkSize + sizeofUmqBuf, dataSize := blkSize, totalDataSize := blkSize, headroomSize := 0
    firstFragment := true, bufData := env.address, rxFallback := false }

namespace AllocPool

variable (pool : AllocPool) (call : AllocCall) (env : AllocEnv)

/-- `select_size_class`, as the block size of the class. -/
def selectSizeClass (need : Nat) : Option Nat := pool.blockSizes.find? (need ≤ ·)

/-- The bytes of a block for headroom and data. -/
def maxDataSize (blkSize : Nat) : Nat :=
  match pool.mode with
  | .split => blkSize
  | .combine => blkSize - sizeofUmqBuf

def actualBufCount (need blkSize : Nat) : Nat :=
  if need ≤ pool.maxDataSize blkSize then call.num
  else call.num * ((need + pool.maxDataSize blkSize - 1) / pool.maxDataSize blkSize) % 2 ^ 32

/-- Between two blocks of `umq_qbuf_alloc_data_with_split` or `umq_qbuf_alloc_data_with_combine`. -/
structure Filling where
  headroomSize : Nat
  totalDataSize : Nat
  remainingSize : Nat
  maxDataCapacity : Nat
  firstFragment : Bool

/-- The next block of a packet, with the fields that are written. -/
def fragment (blkSize : Nat) (filling : Filling) (dataSize : Nat) (buf : Buf) : Buf :=
  let buf : Buf := { buf with
    totalDataSize := filling.totalDataSize, dataSize, headroomSize := filling.headroomSize,
    firstFragment := filling.firstFragment }
  match pool.mode with
  | .split =>
    { buf with bufData := buf.bufData / blkSize * blkSize + filling.headroomSize, bufSize := blkSize + sizeofUmqBuf }
  | .combine => { buf with bufData := buf.addr + sizeofUmqBuf + filling.headroomSize, bufSize := blkSize }

def newPacket (blkSize : Nat) : Filling :=
  ⟨call.headroomSize, call.requestSize, call.requestSize, sub32 (pool.maxDataSize blkSize) call.headroomSize, true⟩

def fill (blkSize : Nat) : Nat → Filling → List Buf → List Buf
  | cnt + 1, filling, buf :: bufs =>
    let dataSize := min filling.remainingSize filling.maxDataCapacity
    let remaining := filling.remainingSize - dataSize
    pool.fragment blkSize filling dataSize buf ::
      fill blkSize cnt
        (if remaining = 0 then pool.newPacket call blkSize else ⟨0, 0, remaining, pool.maxDataSize blkSize, false⟩) bufs
  | _, _, _ => []

def umqNormalQbufAlloc : Option (List Buf) :=
  if call.requestSize * call.num > qbufPoolMemSizeMax then none
  else if call.requestSize = 0 then
    if call.headroomFlag ∧ call.headroomSize > 0 then none
    else if pool.mode ≠ .split then none
    else if env.fetched then some (env.nodata.take call.num) else none
  else
    let need := (call.requestSize + call.headroomSize) % 2 ^ 32
    match pool.selectSizeClass need with
    | none => none
    | some blkSize =>
      let count := pool.actualBufCount call need blkSize
      if env.fetched then some (pool.fill call blkSize count (pool.newPacket call blkSize) env.blocks)
      else if count = 1 ∧ !call.explicitNormal ∧ !pool.disableMallocEscape then some [env.umqQbufAllocEscape blkSize]
      else none

def umqQbufEscapeAlloc : Option (List Buf) :=
  if pool.disableMallocEscape ∨ call.requestSize = 0 ∨ call.num ≠ 1 then none
  else
    let need := (call.requestSize + call.headroomSize) % 2 ^ 32
    if need > pool.blockSizes.headD 0 then none
    else (pool.selectSizeClass need).map fun blkSize => [env.umqQbufAllocEscape blkSize]

/-- `umq_qbuf_alloc`, for the normal pool or for no pool in particular. -/
def umqQbufAlloc : Option (List Buf) :=
  (pool.umqNormalQbufAlloc call env).or (if call.explicitNormal then none else pool.umqQbufEscapeAlloc call env)

end AllocPool

/-! ## What is asked of it -/

/-- The data sizes add up to the request, every fragment is inside its block, and the first
one alone is marked and tells the size. -/
structure PacketServes (requestSize : Nat) (packet : List Buf) : Prop where
  sum : dataSum packet = requestSize
  fits : ∀ buf ∈ packet, buf.headroomSize + buf.dataSize ≤ buf.capacity
  first : ∃ first others, packet = first :: others ∧ (first.firstFragment = true ∧ first.totalDataSize = requestSize) ∧
    ∀ buf ∈ others, buf.firstFragment = false

/-- The list is made of as many packets as were asked for. -/
def Serves (call : AllocCall) (list : List Buf) : Prop :=
  ∃ packets : List (List Buf), list = packets.flatten ∧ packets.length = call.num ∧
    ∀ packet ∈ packets, PacketServes call.requestSize packet

/-! ## Blocks of the cache -/

variable {pool : AllocPool} {call : AllocCall} {env : AllocEnv} {blkSize : Nat} {bufs : List Buf}

theorem fragment_spec (filling : AllocPool.Filling) (dataSize : Nat) (buf : Buf) :
    let fragment := pool.fragment blkSize filling dataSize buf
    fragment.dataSize = dataSize ∧ fragment.headroomSize = filling.headroomSize ∧
      fragment.firstFragment = filling.firstFragment ∧
      fragment.totalDataSize = filling.totalDataSize ∧ fragment.capacity = pool.maxDataSize blkSize := by
  simp only [AllocPool.fragment, AllocPool.maxDataSize]
  cases pool.mode
  · exact ⟨rfl, rfl, rfl, rfl, Nat.add_sub_cancel ..⟩
  · exact ⟨rfl, rfl, rfl, rfl, rfl⟩

/-- The blocks of one packet, and then the next one. -/
def AllocPool.fragments (pool : AllocPool) (call : AllocCall) (blkSize : Nat) : Nat :=
  if call.requestSize + call.headroomSize ≤ pool.maxDataSize blkSize then 1 else 2

/-- A request that is not empty, and does not fill more than two blocks. -/
structure Sized (pool : AllocPool) (call : AllocCall) (blkSize : Nat) : Prop where
  pos : 0 < call.requestSize
  headroom : call.headroomSize + 1024 ≤ pool.maxDataSize blkSize
  word : pool.maxDataSize blkSize < 2 ^ 32
  two : call.requestSize + call.headroomSize ≤ 2 * pool.maxDataSize blkSize

theorem fill_packet (sized : Sized pool call blkSize) (count : Nat)
    (enough : pool.fragments call blkSize ≤ bufs.length) :
    ∃ packet, PacketServes call.requestSize packet ∧
      pool.fill call blkSize (pool.fragments call blkSize + count) (pool.newPacket call blkSize) bufs =
        packet ++
          pool.fill call blkSize count (pool.newPacket call blkSize) (bufs.drop (pool.fragments call blkSize)) := by
  obtain ⟨pos, headroom, word, two⟩ := sized
  have room : (pool.newPacket call blkSize).maxDataCapacity = pool.maxDataSize blkSize - call.headroomSize :=
    sub32_of_le (Nat.le_of_add_right_le headroom) word
  have all : (pool.newPacket call blkSize).remainingSize = call.requestSize := rfl
  unfold AllocPool.fragments at *
  by_cases one : call.requestSize + call.headroomSize ≤ pool.maxDataSize blkSize
  · rw [if_pos one] at enough ⊢
    obtain ⟨buf, rest, rfl⟩ := exists_cons_of_length_pos enough
    obtain ⟨dataSize, headroomSize, marked, total, capacity⟩ :=
      @fragment_spec pool blkSize (pool.newPacket call blkSize) call.requestSize buf
    have whole : min call.requestSize (pool.maxDataSize blkSize - call.headroomSize) = call.requestSize := by omega
    refine ⟨[pool.fragment blkSize (pool.newPacket call blkSize) call.requestSize buf],
      ⟨?_, forall_mem_singleton.mpr ?_, _, [], rfl, ⟨marked, total⟩, forall_mem_nil _⟩, ?_⟩
    · rw [dataSum_cons, dataSize]
      rfl
    · rw [headroomSize, dataSize, capacity]
      exact (Nat.add_comm ..).trans_le one
    · rw [Nat.add_comm, AllocPool.fill]
      simp only [room, all, whole, Nat.sub_self, if_true, cons_append, nil_append, drop_succ_cons, drop_zero]
  · rw [if_neg one] at enough ⊢
    obtain ⟨first, rest, rfl⟩ := exists_cons_of_length_pos (Nat.lt_of_lt_of_le Nat.zero_lt_two enough)
    obtain ⟨second, rest, rfl⟩ := exists_cons_of_length_pos (Nat.lt_of_succ_le (Nat.le_of_succ_le_succ enough))
    -- what the first block holds, and what is left for the second
    generalize held : pool.maxDataSize blkSize - call.headroomSize = firstSize at room
    generalize left : call.requestSize - firstSize = secondSize
    obtain ⟨dataSize, headroomSize, marked, total, capacity⟩ :=
      @fragment_spec pool blkSize (pool.newPacket call blkSize) firstSize first
    obtain ⟨dataSizeNext, headroomSizeNext, markedNext, -, capacityNext⟩ :=
      @fragment_spec pool blkSize ⟨0, 0, secondSize, pool.maxDataSize blkSize, false⟩ secondSize second
    have full : min call.requestSize firstSize = firstSize := by omega
    have more : secondSize ≠ 0 := by omega
    have last : min secondSize (pool.maxDataSize blkSize) = secondSize := by omega
    refine ⟨[pool.fragment blkSize (pool.newPacket call blkSize) firstSize first,
      pool.fragment blkSize ⟨0, 0, secondSize, pool.maxDataSize blkSize, false⟩ secondSize second],
      ⟨?_, ?_, _, _, rfl, ⟨marked, total⟩, forall_mem_singleton.mpr markedNext⟩, ?_⟩
    · rw [dataSum_cons, dataSum_cons, dataSum_nil]
      omega
    · rw [forall_mem_cons, forall_mem_singleton, headroomSize, dataSize, headroomSizeNext, dataSizeNext]
      show call.headroomSize + firstSize ≤ _ ∧ 0 + secondSize ≤ _
      omega
    · rw [Nat.add_comm, AllocPool.fill, AllocPool.fill]
      simp only [room, all, full, left, if_neg more, last, Nat.sub_self, if_true, cons_append, nil_append,
        drop_succ_cons, drop_zero]

theorem fill_serves (sized : Sized pool call blkSize) {num : Nat} : ∀ {bufs : List Buf},
    num * pool.fragments call blkSize ≤ bufs.length →
    ∃ packets : List (List Buf), packets.length = num ∧ (∀ packet ∈ packets, PacketServes call.requestSize packet) ∧
      pool.fill call blkSize (num * pool.fragments call blkSize) (pool.newPacket call blkSize) bufs =
        packets.flatten := by
  induction num with
  | zero =>
    intro bufs _
    refine ⟨[], rfl, forall_mem_nil _, ?_⟩
    rw [Nat.zero_mul, AllocPool.fill]
    · rfl
    · nofun
  | succ num ih =>
    intro bufs enough
    rw [Nat.succ_mul] at enough
    obtain ⟨packet, serves, filled⟩ :=
      fill_packet sized (num * pool.fragments call blkSize) (Nat.le_trans (Nat.le_add_left ..) enough)
    obtain ⟨packets, length, all, rest⟩ := @ih (bufs.drop (pool.fragments call blkSize)) (by rw [length_drop]; omega)
    refine ⟨packet :: packets, congrArg (· + 1) length, forall_mem_cons.mpr ⟨serves, all⟩, ?_⟩
    rw [Nat.succ_mul, Nat.add_comm, filled, rest, flatten_cons]

/-- The sizes of the pool's blocks, which are multiples of 4096. -/
def AllocPool.Valid (pool : AllocPool) : Prop := ∀ blkSize ∈ pool.blockSizes, 4096 ≤ blkSize ∧ blkSize ≤ 1024 * 1024

theorem sized_of_selected (valid : pool.Valid) (accepted : call.Accepted) (pos : call.requestSize ≠ 0)
    (selected : pool.selectSizeClass (call.requestSize + call.headroomSize) = some blkSize) :
    Sized pool call blkSize := by
  have listed := valid blkSize (mem_of_find?_eq_some selected)
  have enough : call.requestSize + call.headroomSize ≤ blkSize := by simpa using find?_some selected
  have headroom := accepted.headroom
  have room : blkSize ≤ pool.maxDataSize blkSize + 128 ∧ pool.maxDataSize blkSize ≤ blkSize := by
    simp only [AllocPool.maxDataSize, sizeofUmqBuf]
    cases pool.mode <;> simp only <;> omega
  simp only [umqHeadroomSizeLimit] at headroom
  exact ⟨by omega, by omega, by omega, by omega⟩

theorem actualBufCount_eq (sized : Sized pool call blkSize) (small : call.requestSize * call.num ≤ qbufPoolMemSizeMax) :
    pool.actualBufCount call (call.requestSize + call.headroomSize) blkSize =
      call.num * pool.fragments call blkSize := by
  obtain ⟨-, headroom, -, two⟩ := sized
  unfold AllocPool.actualBufCount AllocPool.fragments
  split
  · exact (Nat.mul_one _).symm
  · next more =>
    have quotient :
        (call.requestSize + call.headroomSize + pool.maxDataSize blkSize - 1) / pool.maxDataSize blkSize = 2 := by
      rw [Nat.div_eq_iff (by omega)]
      omega
    have few : 1024 * call.num ≤ qbufPoolMemSizeMax :=
      Nat.le_trans (Nat.mul_le_mul_right _ (by omega)) small
    simp only [qbufPoolMemSizeMax] at few
    rw [quotient, Nat.mod_eq_of_lt (by omega)]

/-! ## A block of the heap, and blocks without data -/

theorem forall_singleton {packets : List (List Buf)} {p : List Buf → Prop}
    (all : ∀ packet ∈ packets, packet ≠ [] ∧ p packet) :
    packets.length ≤ packets.flatten.length ∧
      (packets.flatten.length ≤ packets.length → ∀ buf ∈ packets.flatten, p [buf]) := by
  induction packets with
  | nil => exact ⟨Nat.le_refl _, fun _ => forall_mem_nil _⟩
  | cons packet packets ih =>
    obtain ⟨⟨nonempty, holds⟩, others⟩ := forall_mem_cons.mp all
    obtain ⟨rest, single⟩ := ih others
    have pos := length_pos_iff.mpr nonempty
    rw [flatten_cons, length_append, length_cons]
    refine ⟨by omega, fun few => ?_⟩
    obtain ⟨buf, rfl⟩ := length_eq_one_iff.mp (show packet.length = 1 by omega)
    exact forall_mem_cons.mpr ⟨holds, single (by omega)⟩

/-- As many buffers as packets: each is one. -/
theorem serves_iff_each (length : bufs.length = call.num) :
    Serves call bufs ↔ ∀ buf ∈ bufs, PacketServes call.requestSize [buf] := by
  constructor
  · rintro ⟨packets, rfl, count, serves⟩
    refine (forall_singleton fun packet mem => ⟨?_, serves packet mem⟩).2 (by omega)
    obtain ⟨first, others, rfl, -⟩ := (serves packet mem).first
    exact cons_ne_nil _ _
  · intro serves
    refine ⟨bufs.map ([·]), ?_, (length_map _).trans length, forall_mem_map.mpr serves⟩
    rw [← flatMap_def, flatMap_singleton']

theorem escape_serves_iff (one : call.num = 1) :
    Serves call [env.umqQbufAllocEscape blkSize] ↔ call.requestSize = blkSize := by
  rw [serves_iff_each (length_singleton.trans one.symm), forall_mem_singleton]
  refine ⟨fun serves => serves.sum.symm, fun same => ⟨same.symm, ?_, _, [], rfl, ⟨rfl, same.symm⟩, forall_mem_nil _⟩⟩
  exact forall_mem_singleton.mpr (Nat.le_of_eq (by simp [AllocEnv.umqQbufAllocEscape, Buf.capacity]))

/-! ## Every allocation -/

/-- A cache that could be filled has the blocks that are needed. -/
structure AllocEnv.Filled (env : AllocEnv) (pool : AllocPool) (call : AllocCall) : Prop where
  nodata : env.fetched = true → call.num ≤ env.nodata.length
  blocks : env.fetched = true → ∀ blkSize, pool.selectSizeClass (call.requestSize + call.headroomSize) = some blkSize →
    pool.actualBufCount call (call.requestSize + call.headroomSize) blkSize ≤ env.blocks.length

/-- Where the blocks come from that are handed out. -/
theorem umqQbufAlloc_cases (accepted : call.Accepted) {list : List Buf}
    (allocated : pool.umqQbufAlloc call env = some list) :
    (call.requestSize = 0 ∧ env.fetched = true ∧ list = env.nodata.take call.num) ∨
    (call.requestSize ≠ 0 ∧ call.requestSize * call.num ≤ qbufPoolMemSizeMax ∧
      ∃ blkSize, pool.selectSizeClass (call.requestSize + call.headroomSize) = some blkSize ∧
        ((env.fetched = true ∧ list = pool.fill call blkSize
            (pool.actualBufCount call (call.requestSize + call.headroomSize) blkSize)
              (pool.newPacket call blkSize) env.blocks) ∨
          (env.fetched = false ∧ list = [env.umqQbufAllocEscape blkSize] ∧
            (call.num = 1 ∨ pool.actualBufCount call (call.requestSize + call.headroomSize) blkSize = 1)))) := by
  have word : (call.requestSize + call.headroomSize) % 2 ^ 32 = call.requestSize + call.headroomSize := by
    have small := accepted.small
    have headroom := accepted.headroom
    simp only [umqMaxBufRequestSize, umqHeadroomSizeLimit] at small headroom
    exact Nat.mod_eq_of_lt (by omega)
  -- one packet of the request is never too large
  have alone : call.num = 1 → call.requestSize * call.num ≤ qbufPoolMemSizeMax := by
    have small := accepted.small
    intro one
    rw [one, Nat.mul_one]
    exact Nat.le_trans small (by decide)
  rcases Option.or_eq_some_iff.mp allocated with normal | ⟨failed, escape⟩
  · unfold AllocPool.umqNormalQbufAlloc at normal
    simp only [word] at normal
    split at normal
    · cases normal
    next large =>
    by_cases zero : call.requestSize = 0
    · split_ifs at normal with refused combined fetched
      exact .inl ⟨zero, fetched, (Option.some.inj normal).symm⟩
    · rw [if_neg zero] at normal
      cases selected : pool.selectSizeClass (call.requestSize + call.headroomSize) with
      | none =>
        rw [selected] at normal
        cases normal
      | some blkSize =>
        rw [selected] at normal
        dsimp only at normal
        refine .inr ⟨zero, Nat.le_of_not_lt large, blkSize, rfl, ?_⟩
        split_ifs at normal with fetched single
        · exact .inl ⟨fetched, (Option.some.inj normal).symm⟩
        · exact .inr ⟨Bool.eq_false_iff.mpr fetched, (Option.some.inj normal).symm, .inr single.1⟩
  · split_ifs at escape
    unfold AllocPool.umqQbufEscapeAlloc at escape
    simp only [word] at escape
    split_ifs at escape with refused
    simp only [not_or, not_not] at refused
    obtain ⟨blkSize, selected, rfl⟩ := Option.map_eq_some_iff.mp escape
    have fits := alone refused.2.2
    refine .inr ⟨refused.2.1, fits, blkSize, selected, .inr ⟨?_, rfl, .inl refused.2.2⟩⟩
    rw [← Bool.not_eq_true]
    intro fetched
    simp only [AllocPool.umqNormalQbufAlloc, word, selected, fetched, if_neg refused.2.1, if_neg (Nat.not_lt.mpr fits)]
      at failed
    cases failed

/-- The blocks of the cache always make the packets; a block of the heap makes one of its own size. -/
theorem umqQbufAlloc_serves_iff (valid : pool.Valid) (accepted : call.Accepted) (filled : env.Filled pool call)
    {list : List Buf}
    (allocated : pool.umqQbufAlloc call env = some list) :
    Serves call list ↔
      if call.requestSize = 0 then ∀ buf ∈ env.nodata.take call.num, PacketServes 0 [buf]
      else env.fetched = true ∨
        pool.selectSizeClass (call.requestSize + call.headroomSize) = some call.requestSize := by
  rcases umqQbufAlloc_cases accepted allocated with ⟨zero, fetched, rfl⟩ | ⟨pos, small, blkSize, selected, source⟩
  · have length : (env.nodata.take call.num).length = call.num := by
      rw [length_take]
      exact Nat.min_eq_left (filled.nodata fetched)
    rw [if_pos zero, serves_iff_each length, zero]
  · have sized := sized_of_selected valid accepted pos selected
    have count := actualBufCount_eq sized small
    rw [if_neg pos, selected]
    rcases source with ⟨fetched, rfl⟩ | ⟨unfetched, rfl, single⟩
    · have enough := filled.blocks fetched blkSize selected
      rw [count] at enough ⊢
      obtain ⟨packets, length, serves, flat⟩ := fill_serves sized enough
      exact ⟨fun _ => .inl fetched, fun _ => ⟨packets, flat, length, serves⟩⟩
    · have one : call.num = 1 := by
        rcases single with one | one
        · exact one
        · exact Nat.eq_one_of_mul_eq_one_right (count.symm.trans one)
      rw [escape_serves_iff one, unfetched]
      simp [eq_comm]

/-! ### A packet of two blocks, and one of a whole block -/

def onePool (mode : BufMode) : AllocPool := ⟨mode, [4096], false⟩

def oneCall (requestSize num : Nat) : AllocCall := ⟨requestSize, num, 64, true, false⟩

def freeBlock (addr : Nat) : Buf := ⟨addr, 0, false, 4096, 0, 0, 0, false, addr + 128, false⟩

def allocEnv (fetched : Bool) : AllocEnv :=
  ⟨fetched, [freeBlock 0, freeBlock 4096, freeBlock 8192, freeBlock 12288], [freeBlock 0, freeBlock 0], 4096⟩

theorem umqQbufAlloc_twoFragments :
    ∃ list, (onePool .combine).umqQbufAlloc (oneCall 4000 2) (allocEnv true) = some list ∧
      Serves (oneCall 4000 2) list := by
  have valid : (onePool .combine).Valid := forall_mem_singleton.mpr (by decide)
  have accepted : (oneCall 4000 2).Accepted := ⟨by decide, by decide, by decide⟩
  have filled : (allocEnv true).Filled (onePool .combine) (oneCall 4000 2) := by
    refine ⟨fun _ => by decide, fun _ blkSize selected => ?_⟩
    cases selected
    decide
  exact ⟨_, rfl, (umqQbufAlloc_serves_iff valid accepted filled rfl).mpr (.inl rfl)⟩

/-- The buffer tells 4096 bytes of data for a request of 100, and no headroom. -/
theorem umqQbufAlloc_wholeBlock :
    ∃ list, (onePool .split).umqQbufAlloc (oneCall 100 1) (allocEnv false) = some list ∧
      ¬ Serves (oneCall 100 1) list :=
  ⟨_, rfl, mt (escape_serves_iff rfl).mp (by decide)⟩

end UbsComm.Qbuf
