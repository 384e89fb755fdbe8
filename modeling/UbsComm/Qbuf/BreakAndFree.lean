import UbsComm.Qbuf.FreeEscape

/-! # Breaking the first packet off a chain

`umq_buf_break_and_free` counts the data sizes down from the total of the first buffer, cuts
behind the buffer that reaches it, frees what is before the cut and returns what is behind.
Without a cut it frees the whole chain and still returns the second buffer. -/

namespace UbsComm.Qbuf

open List

/-- The loop: the chain up to the buffer that covers `restDataSize`, and the rest. -/
def cutAt : Nat → List Buf → Option (List Buf × List Buf)
  | _, [] => none
  | restDataSize, tmpBuf :: next =>
    if restDataSize = 0 then none
    else if restDataSize ≤ tmpBuf.dataSize then some ([tmpBuf], next)
    else (cutAt (restDataSize - tmpBuf.dataSize) next).map fun cut => (tmpBuf :: cut.1, cut.2)

/-- What is handed to `umq_buf_free`, and what the returned pointer leads to. -/
def breakChain : List Buf → List Buf × List Buf
  | [] => ([], [])
  | qbuf :: next =>
    if qbuf.totalDataSize = 0 then ([qbuf], next)
    else (cutAt qbuf.totalDataSize (qbuf :: next)).getD (qbuf :: next, next)

def umqBufBreakAndFree (config : PoolConfig) (pools : Pools) (chain : List Buf) : Pools × List Buf :=
  if config.umqInited then (umqBufFree config pools (breakChain chain).1, (breakChain chain).2) else (pools, [])

/-! ## The cut -/

def dataSum (bufs : List Buf) : Nat := (bufs.map Buf.dataSize).sum

@[simp] theorem dataSum_nil : dataSum [] = 0 := rfl

@[simp] theorem dataSum_cons {buf : Buf} {bufs : List Buf} : dataSum (buf :: bufs) = buf.dataSize + dataSum bufs := rfl

theorem dataSum_append {first second : List Buf} : dataSum (first ++ second) = dataSum first + dataSum second := by
  rw [dataSum, map_append, sum_append]
  rfl

variable {size : Nat} {buf : Buf} {chain rest packet init : List Buf} {cut : List Buf × List Buf}

theorem cutAt_parts (found : cutAt size chain = some cut) : cut.1 ++ cut.2 = chain ∧ cut.1 ≠ [] := by
  induction chain generalizing size cut with
  | nil => cases found
  | cons tmpBuf next ih =>
    simp only [cutAt] at found
    split at found
    · cases found
    · split at found
      · cases found
        exact ⟨rfl, cons_ne_nil _ _⟩
      · obtain ⟨behind, foundBehind, rfl⟩ := Option.map_eq_some_iff.mp found
        exact ⟨congrArg (tmpBuf :: ·) (ih foundBehind).1, cons_ne_nil _ _⟩

theorem cutAt_eq_none_iff (pos : 0 < size) : cutAt size chain = none ↔ dataSum chain < size := by
  induction chain generalizing size with
  | nil => simpa [cutAt] using pos
  | cons tmpBuf next ih =>
    simp only [cutAt, if_neg (Nat.ne_of_gt pos), dataSum_cons]
    split
    next covered =>
      simp only [reduceCtorEq, false_iff]
      omega
    next short =>
      rw [Option.map_eq_none_iff, ih (by omega)]
      omega

theorem cutAt_append (short : dataSum packet < size) :
    cutAt size (packet ++ rest) = (cutAt (size - dataSum packet) rest).map fun cut => (packet ++ cut.1, cut.2) := by
  induction packet generalizing size with
  | nil => simp
  | cons tmpBuf next ih =>
    rw [dataSum_cons] at short
    rw [cons_append, cutAt, if_neg (by omega), if_neg (by omega), ih (by omega), Option.map_map, Nat.sub_sub]
    rfl

theorem cutAt_within (pos : 0 < size) (covered : size ≤ dataSum packet) :
    ∃ behind, cutAt size (packet ++ rest) = some behind ∧ behind.1.length ≤ packet.length := by
  induction packet generalizing size with
  | nil => simp at covered; omega
  | cons tmpBuf next ih =>
    rw [dataSum_cons] at covered
    simp only [cons_append, cutAt, if_neg (Nat.ne_of_gt pos)]
    split
    next here => exact ⟨_, rfl, by simp⟩
    next short =>
      obtain ⟨behind, found, length⟩ := @ih (size - tmpBuf.dataSize) (by omega) (by omega)
      exact ⟨(tmpBuf :: behind.1, behind.2), by rw [found]; rfl, Nat.succ_le_succ length⟩

/-! ## Parts of the chain -/

/-- The data of the chain reaches the total that the first buffer tells, or there is no
second buffer to return. -/
def Reaches : List Buf → Prop
  | [] => True
  | qbuf :: next => qbuf.totalDataSize ≤ dataSum (qbuf :: next) ∨ next = []

theorem breakChain_parts_iff : (breakChain chain).1 ++ (breakChain chain).2 = chain ↔ Reaches chain := by
  cases chain with
  | nil => exact iff_of_true rfl trivial
  | cons qbuf next =>
    simp only [breakChain]
    split
    next empty => exact iff_of_true rfl (Or.inl (by omega))
    next full =>
      cases found : cutAt qbuf.totalDataSize (qbuf :: next) with
      | some cut =>
        have covered : ¬ dataSum (qbuf :: next) < qbuf.totalDataSize := by
          rw [← cutAt_eq_none_iff (Nat.pos_of_ne_zero full), found]
          exact Option.some_ne_none cut
        exact iff_of_true (cutAt_parts found).1 (Or.inl (Nat.le_of_not_lt covered))
      | none =>
        have short := (cutAt_eq_none_iff (Nat.pos_of_ne_zero full)).mp found
        simp only [Option.getD_none, append_right_eq_self]
        constructor
        · exact Or.inr
        · rintro (covered | single)
          · omega
          · exact single

/-! ## The first packet -/

/-- A packet begins with its only first fragment, which tells the sum of its data. -/
inductive IsPacket : List Buf → Prop where
  | mk {first : Buf} {others : List Buf} (flagged : first.firstFragment = true)
      (unflagged : ∀ buf ∈ others, buf.firstFragment = false)
      (total : dataSum (first :: others) = first.totalDataSize) : IsPacket (first :: others)

/-- The packet has one fragment, or its last fragment has data. -/
def EndsWithData (packet : List Buf) : Prop := packet.length = 1 ∨ ∃ last ∈ packet.getLast?, last.dataSize ≠ 0

theorem endsWithData_snoc {last : Buf} : EndsWithData (init ++ [last]) ↔ init = [] ∨ last.dataSize ≠ 0 := by
  simp [EndsWithData]

/-- For a packet with data, the cut is behind its last fragment exactly when that has data. -/
theorem cutAt_packet_iff {last : Buf} (pos : 0 < dataSum (init ++ [last])) :
    ((cutAt (dataSum (init ++ [last])) (init ++ [last] ++ rest)).map Prod.fst = some (init ++ [last])) ↔
      EndsWithData (init ++ [last]) := by
  have sum : dataSum (init ++ [last]) = dataSum init + last.dataSize := dataSum_append
  rw [endsWithData_snoc]
  by_cases empty : last.dataSize = 0
  · -- the fragments before the last one have all the data
    obtain ⟨behind, found, length⟩ :=
      @cutAt_within (dataSum (init ++ [last])) ([last] ++ rest) init pos (by omega)
    rw [append_assoc, found]
    simp only [Option.map_some, Option.some.injEq, empty, ne_eq, not_true_eq_false, or_false]
    constructor
    · intro same
      have := congrArg List.length same
      simp at this
      omega
    · rintro rfl
      simp [empty] at pos
  · rw [append_assoc, cutAt_append (by omega), singleton_append, cutAt, if_neg (by omega), if_pos (by omega)]
    simp [empty]

theorem breakChain_packet_iff (isPacket : IsPacket packet) :
    (breakChain (packet ++ rest)).1 = packet ↔ EndsWithData packet := by
  cases isPacket with
  | @mk first others flagged unflagged total =>
    rw [cons_append, breakChain]
    split
    next empty =>
      -- without data only the first buffer is freed
      have noData : ∀ buf ∈ first :: others, buf.dataSize = 0 := by
        rw [empty] at total
        intro buf mem
        exact List.sum_eq_zero_iff_forall_eq_nat.mp total _ (List.mem_map_of_mem mem)
      have last : ∀ last ∈ (first :: others).getLast?, last.dataSize = 0 := fun last found =>
        noData last (mem_of_getLast? found)
      simp only [EndsWithData, length_cons, Nat.add_eq_right, length_eq_zero_iff, cons.injEq, true_and]
      constructor
      · exact fun single => Or.inl single.symm
      · rintro (single | ⟨buf, found, hasData⟩)
        · exact single.symm
        · exact absurd (last buf found) hasData
    next full =>
      have pos : 0 < dataSum (first :: others) := by omega
      obtain ⟨cut, found, -⟩ := @cutAt_within _ rest _ pos (Nat.le_refl _)
      obtain ⟨init, last, same⟩ : ∃ init last, first :: others = init ++ [last] :=
        ⟨_, _, (dropLast_concat_getLast (cons_ne_nil first others)).symm⟩
      have cutIff := @cutAt_packet_iff rest init last (same ▸ pos)
      rw [← same, found] at cutIff
      rw [cons_append, total] at found
      rw [found, ← cutIff]
      exact Option.some_inj.symm

/-! ## The call -/

variable {config : PoolConfig} {origin : Buf → Origin} {pools : Pools}

/-- The chain is a list of packets, and this is the first one. -/
def FirstPacket (chain packet : List Buf) : Prop :=
  IsPacket packet ∧ ∃ packets : List (List Buf), (∀ other ∈ packets, IsPacket other) ∧ chain = packet ++ packets.flatten

/-- What the call should do with a chain of live buffers: free a prefix, each buffer of it
exactly once, and return the rest; if the chain is a list of packets, free the first one. -/
structure BrokenOff (config : PoolConfig) (origin : Buf → Origin) (pools : Pools) (chain : List Buf) : Prop where
  parts : (breakChain chain).1 ++ (umqBufBreakAndFree config pools chain).2 = chain
  freed : FreedExactly origin pools (breakChain chain).1 (umqBufBreakAndFree config pools chain).1
  packet : ∀ packet, FirstPacket chain packet → (breakChain chain).1 = packet

theorem breakChain_start : (breakChain chain).1 <+: chain := by
  cases chain with
  | nil => exact prefix_rfl
  | cons qbuf next =>
    rw [breakChain]
    split
    · exact prefix_append [qbuf] next
    · cases found : cutAt qbuf.totalDataSize (qbuf :: next) with
      | none => exact prefix_rfl
      | some cut => exact ⟨cut.2, (cutAt_parts found).1⟩

/-- The prefix is freed once and the rest returned exactly when the data reaches the total, the
first packet does not end in empty fragments, and `umq_buf_free` frees the prefix exactly. -/
theorem brokenOff_iff (configValid : config.Valid) (valid : pools.Valid config) (nodup : (chain.map Buf.addr).Nodup)
    (live : ∀ buf ∈ chain, LiveAs config pools buf (origin buf)) :
    BrokenOff config origin pools chain ↔
      Reaches chain ∧ EscapesIntact config origin (breakChain chain).1 ∧
        ∀ packet, FirstPacket chain packet → EndsWithData packet := by
  have call :
      umqBufBreakAndFree config pools chain = (umqBufFree config pools (breakChain chain).1, (breakChain chain).2) :=
    if_pos configValid.umqInited
  have prefixDistinct : ((breakChain chain).1.map Buf.addr).Nodup := (breakChain_start.sublist.map Buf.addr).nodup nodup
  have prefixLive : ∀ buf ∈ (breakChain chain).1, LiveAs config pools buf (origin buf) := fun buf mem =>
    live buf (breakChain_start.subset mem)
  have first : ∀ packet, FirstPacket chain packet → ((breakChain chain).1 = packet ↔ EndsWithData packet) := by
    rintro packet ⟨isPacket, packets, -, rfl⟩
    exact breakChain_packet_iff isPacket
  constructor
  · rintro ⟨parts, freed, packet⟩
    rw [call] at parts freed
    refine ⟨breakChain_parts_iff.mp parts, escapesIntact_of_freed configValid valid prefixDistinct prefixLive freed, ?_⟩
    exact fun candidate is => (first candidate is).mp (packet candidate is)
  · rintro ⟨reaches, intact, ends⟩
    constructor
    · rw [call]
      exact breakChain_parts_iff.mpr reaches
    · rw [call]
      exact freedExactly_of_intact configValid valid prefixDistinct prefixLive intact
    · exact fun candidate is => (first candidate is).mpr (ends candidate is)

/-- Two packets of one buffer each, the first one an escape buffer. -/
theorem brokenOff_sample : BrokenOff sampleConfig sampleOrigin samplePools [sampleFirst, sampleNormal] := by
  refine (brokenOff_iff sampleConfig_valid samplePools_valid (by decide) ?_).mpr ⟨.inl (by decide), ?_, ?_⟩
  · rw [forall_mem_cons, forall_mem_singleton]
    exact ⟨sampleFirst_live, sampleNormal_live⟩
  · have prefix' : (breakChain [sampleFirst, sampleNormal]).1 = [sampleFirst] := by decide
    rw [prefix']
    constructor <;> simp [sampleFirst, sampleBuf, sampleOrigin, Intact, sampleConfig]
  · rintro packet ⟨@⟨first, others, _, _, _⟩, packets, -, same⟩
    have data : ∀ buf ∈ [sampleFirst, sampleNormal], buf.dataSize ≠ 0 := by decide
    rw [same] at data
    have nonempty := cons_ne_nil first others
    exact .inr ⟨_, getLast?_eq_some_getLast nonempty, data _ (mem_append_left _ (getLast_mem nonempty))⟩

/-- A buffer of the pool whose total tells more than the chain has. -/
def sampleOverstated : Buf := { sampleNormal with addr := 192, totalDataSize := 10000 }

/-- An empty last fragment. -/
def sampleEmpty : Buf := { sampleNormal with addr := 320, dataSize := 0, totalDataSize := 0, firstFragment := false }

/-- The second buffer is freed and returned; and of a packet with an empty last fragment only
the first fragment is freed. -/
theorem breakAndFree_returns_freed :
    breakChain [sampleOverstated, sampleNormal] = ([sampleOverstated, sampleNormal], [sampleNormal]) ∧
      (umqBufBreakAndFree sampleConfig samplePools [sampleOverstated, sampleNormal]).2 = [sampleNormal] ∧
      sampleNormal ∈
        ((umqBufBreakAndFree sampleConfig samplePools [sampleOverstated, sampleNormal]).1.withData 0).cache.head ∧
      ¬ BrokenOff sampleConfig sampleOrigin samplePools [sampleOverstated, sampleNormal] ∧
      FirstPacket [sampleNormal, sampleEmpty] [sampleNormal, sampleEmpty] ∧
      breakChain [sampleNormal, sampleEmpty] = ([sampleNormal], [sampleEmpty]) := by
  refine ⟨by decide, by decide, by decide +kernel, fun broken => absurd broken.parts (by decide), ?_, by decide⟩
  exact ⟨.mk rfl (by decide) rfl, [], forall_mem_nil _, rfl⟩

end UbsComm.Qbuf
