import UbsComm.Qbuf.FreeExact
import UbsComm.Qbuf.PoolLaid

/-! # The header of an allocated block is found

The pools lie apart, so an address belongs to at most one of them, and in its pool it belongs to one
block. -/

namespace UbsComm.Qbuf

open Library List Function

/-! ## The main pool -/

namespace QbufMap

variable {map : QbufMap} {region : ClassRegion} {block : PoolBlock} {slot : ExpSlot} {area : Area}
  {i data sc start bucket headroom dataSize : Nat}

theorem bufDataToSizeClass_eq (laid : PoolLaid map.pool) (mem : region ∈ map.pool.regions) (small : i < region.blkCnt)
    (low : region.block i ≤ data) (high : data < region.block i + region.blkSz) :
    map.bufDataToSizeClass data = some region := by
  have inRegion := ClassRegion.inside_of_block small low high
  have found : (map.bufDataToSizeClass data).isSome := by
    rw [bufDataToSizeClass, find?_isSome]
    exact ⟨region, mem, by simpa using ⟨Nat.ne_of_gt (laid.counts _ mem), inRegion⟩⟩
  obtain ⟨other, same⟩ := Option.isSome_iff_exists.mp found
  have hit := find?_some same
  simp only [decide_eq_true_eq] at hit
  rw [same, laid.region_unique mem (mem_of_find?_eq_some same) inRegion.1 inRegion.2 hit.2.1 hit.2.2]

/-- The fast path finds the block from every address of its data area. -/
theorem mainCandidate_eq (laid : PoolLaid map.pool) (mem : region ∈ map.pool.regions) (small : i < region.blkCnt)
    (pointer : (map.headers (region.header map.pool.mode i)).bufData =
      (dataArea map.pool.mode (region.block i) region.blkSz).start + headroom)
    (ok : map.HeadroomOk (.main region i) headroom)
    (low : (dataArea map.pool.mode (region.block i) region.blkSz).start ≤ data)
    (high : data < (dataArea map.pool.mode (region.block i) region.blkSz).stop) :
    map.mainCandidate data = some (region.header map.pool.mode i) := by
  have inPool := laid.inside mem small
  have inBlock : region.block i ≤ data ∧ data < region.block i + region.blkSz := by
    cases mode : map.pool.mode <;> simp only [mode, dataArea, Span.stop] at low high <;> omega
  rw [mainCandidate, if_pos (by omega), bufDataToSizeClass_eq laid mem small inBlock.1 inBlock.2]
  simp only [ClassRegion.id_eq inBlock.1 inBlock.2]
  unfold HeadroomOk at ok
  cases mode : map.pool.mode with
  | split =>
    simp only [mode, dataArea, ClassRegion.header, ClassRegion.block, Span.stop] at pointer ok low high ⊢
    rw [if_pos small]
    exact if_pos (by omega)
  | combine =>
    have last := ClassRegion.inside_of_block small (Nat.le_add_right _ (region.blkSz - 1)) (by omega)
    simp only [mode, dataArea, ClassRegion.header, ClassRegion.block, Span.stop] at pointer ok low high last ⊢
    have header : 0 < sizeofUmqBuf := by decide
    exact if_pos (by omega)

theorem mainCandidate_none
    (outside : ¬ (map.pool.dataBuffer ≤ data ∧ data < map.pool.dataBuffer + map.pool.totalSize)) :
    map.mainCandidate data = none := if_neg outside

end QbufMap

/-! ## The expansion slots -/

namespace ExpSlot

variable {slot : ExpSlot} {mode : BufMode} {blkSize i data k : Nat}

theorem block_row (mode : BufMode) (i : Nat) (small : blkSize ≤ 2 ^ 20) (large : sizeofUmqBuf < blkSize) :
    i % subSlotBlkCount mode blkSize * blkSize + blkSize ≤ subSlotDataBufSize mode blkSize :=
  row_le blkSize (Nat.mod_lt i (subSlotBlkCount_pos mode small large))

theorem subSlot_inside (mode : BufMode) (small : blkSize ≤ 2 ^ 20) (large : sizeofUmqBuf < blkSize)
    (counted : i < slot.totalBlockCnt) :
    slot.buffer ≤ slot.subSlot mode blkSize i ∧
      slot.subSlot mode blkSize i + qbufMemalignSize ≤ (slot.span mode blkSize).stop := by
  have row := subSlot_lt (subSlotBlkCount_pos mode small large) counted
  rw [subSlot, span, Span.stop, Nat.add_assoc]
  exact ⟨Nat.le_add_right _ _, Nat.add_le_add_left row _⟩

/-- An address of a block is masked to its sub slot, and its distance counts the blocks. -/
theorem locate (small : blkSize ≤ 2 ^ 20) (large : sizeofUmqBuf < blkSize) (aligned : qbufMemalignSize ∣ slot.buffer)
    (top : (slot.span mode blkSize).stop ≤ 2 ^ 64) (counted : i < slot.totalBlockCnt)
    (low : slot.block mode blkSize i ≤ data) (high : data < slot.block mode blkSize i + blkSize) :
    maskDown 64 data qbufMemalignSize = slot.subSlot mode blkSize i ∧
      (data - slot.subSlot mode blkSize i) / blkSize = i % subSlotBlkCount mode blkSize := by
  have row := block_row mode i small large
  have fits : subSlotDataBufSize mode blkSize ≤ qbufMemalignSize :=
    Nat.le_trans (Nat.le_add_right _ _) (subSlot_fits mode blkSize)
  have inside := subSlot_inside mode small large counted
  have subAligned : qbufMemalignSize ∣ slot.subSlot mode blkSize i := Nat.dvd_add aligned (Nat.dvd_mul_left _ _)
  rw [block] at low high
  obtain ⟨offset, rfl⟩ := Nat.exists_eq_add_of_le low
  generalize slot.subSlot mode blkSize i = head at *
  generalize i % subSlotBlkCount mode blkSize = id at *
  constructor
  · have power : qbufMemalignSize = 2 ^ 21 := rfl
    rw [power] at subAligned inside fits ⊢
    rw [Nat.add_assoc]
    exact maskDown_two_pow_of_dvd (by decide) (by omega) subAligned (by omega) (by omega)
  · have shape : head + id * blkSize + offset - head = blkSize * id + offset := by
      rw [Nat.mul_comm blkSize]
      omega
    rw [shape, Nat.mul_add_div (by omega), Nat.div_eq_of_lt (by omega), Nat.add_zero]

end ExpSlot

/-! ## What holds in every state -/

namespace QbufMap

def escapeNode (map : QbufMap) (sc start : Nat) : EscapeNode :=
  ⟨start + map.pool.blockSize sc, start, map.pool.blockSize sc⟩

structure Sound (map : QbufMap) : Prop where
  umqInited : map.umqInited = true
  inited : map.inited = true
  laid : PoolLaid map.pool
  tiny : map.tiny.mode = .split → map.tiny.headerBuffer ≤ map.tiny.span.stop
  rx : umqRxQbufBlockSize ∣ map.rx.bufferAddr
  rxTop : map.rx.span.stop ≤ 2 ^ 64
  apart : ∀ one ∈ map.areas, ∀ two ∈ map.areas, one ≠ two → (map.areaSpan one).Apart (map.areaSpan two)
  slots : ∀ slot ∈ map.slots, slot.sizeClass < map.pool.sizes.length ∧ qbufMemalignSize ∣ slot.buffer ∧
    0 < slot.buffer ∧ (slot.span map.pool.mode (map.pool.blockSize slot.sizeClass)).stop ≤ 2 ^ 64
  mainHeld : ∀ region i, .main region i ∈ map.held → region ∈ map.pool.regions ∧ i < region.blkCnt ∧
    ∃ headroom, map.HeadroomOk (.main region i) headroom ∧ (map.headers (region.header map.pool.mode i)).bufData =
      (dataArea map.pool.mode (region.block i) region.blkSz).start + headroom
  slotHeld : ∀ slot i, .slot slot i ∈ map.held → slot ∈ map.slots ∧ i < slot.totalBlockCnt
  escapeHeld : ∀ sc start, .escape sc start ∈ map.held → sc < map.pool.sizes.length ∧ map.pool.blockSize sc ∣ start ∧
    0 < start ∧ start + map.pool.blockSize sc ≤ 2 ^ 64
  registry : ∀ sc bucket node, node ∈ map.escape.registry sc bucket ↔
    ∃ start, .escape sc start ∈ map.held ∧ node = map.escapeNode sc start ∧ bucket = escapeBufHash start
  filedOnce : ∀ sc bucket, ((map.escape.registry sc bucket).map EscapeNode.qbuf).Nodup
  bufCnt : ∀ sc, map.escape.bufCnt sc = map.held.countP (PoolBlock.isEscape sc)
  nodup : map.held.Nodup

variable {map : QbufMap} {region : ClassRegion} {block : PoolBlock} {slot : ExpSlot} {area other : Area}
  {i data sc start bucket headroom dataSize : Nat}

theorem mem_areas : area ∈ map.areas ↔
    match area with
    | .main | .tiny | .rx => True
    | .slot slot => slot ∈ map.slots
    | .escape sc start => PoolBlock.escape sc start ∈ map.held := by
  cases area with
  | main | tiny | rx => simp [areas]
  | slot slot =>
    simp only [areas, mem_append, mem_cons, not_mem_nil, reduceCtorEq, mem_map, Area.slot.injEq, exists_eq_right,
      false_or, mem_filterMap, or_iff_left_iff_imp]
    rintro ⟨block, -, same⟩
    cases block <;> cases same
  | escape sc start =>
    simp only [areas, mem_append, mem_cons, not_mem_nil, reduceCtorEq, mem_map, and_false, exists_false, false_or,
      mem_filterMap]
    constructor
    · rintro ⟨block, held, same⟩
      cases block <;> cases same
      exact held
    · exact fun held => ⟨_, held, rfl⟩

theorem slot_mem_areas (mem : slot ∈ map.slots) : Area.slot slot ∈ map.areas := mem_areas.mpr mem

theorem escape_mem_areas (held : PoolBlock.escape sc start ∈ map.held) : Area.escape sc start ∈ map.areas :=
  mem_areas.mpr held

theorem blockSize_mem (known : sc < map.pool.sizes.length) : map.pool.blockSize sc ∈ map.pool.sizes := by
  rw [QbufPool.blockSize, getD_eq_getElem _ _ known]
  exact getElem_mem known

theorem findSlot_none (outside : ∀ slot ∈ map.slots, ¬ map.Within (.slot slot) data) : map.findSlot data = none := by
  rw [findSlot, findSome?_eq_none_iff]
  intro sc _
  rw [find?_eq_none]
  intro slot mem hit
  simp only [decide_eq_true_eq] at hit
  obtain ⟨rfl, low, high⟩ := hit
  exact outside slot mem ⟨low, high⟩

namespace Sound

variable (sound : map.Sound)

include sound

theorem area_unique (mem : area ∈ map.areas) (otherListed : other ∈ map.areas) (within : map.Within area data)
    (otherWithin : map.Within other data) : area = other := by
  by_contra ne
  have apart := sound.apart area mem other otherListed ne
  simp only [Span.Apart, Within] at apart within otherWithin
  omega

theorem blockSize_large (known : sc < map.pool.sizes.length) : sizeofUmqBuf < map.pool.blockSize sc :=
  sound.laid.large _ (blockSize_mem known)

theorem blockSize_small (known : sc < map.pool.sizes.length) : map.pool.blockSize sc ≤ 2 ^ 20 := by
  obtain ⟨k, small, same⟩ := sound.laid.powers _ (blockSize_mem known)
  rw [same]
  exact Nat.pow_le_pow_right (by decide) small

/-! ## The slots -/

theorem findSlot_eq (mem : slot ∈ map.slots) (within : map.Within (.slot slot) data) :
    map.findSlot data = some slot := by
  have found : (map.findSlot data).isSome := by
    rw [findSlot, findSome?_isSome_iff]
    refine ⟨slot.sizeClass, mem_range.mpr (sound.slots slot mem).1, ?_⟩
    rw [find?_isSome]
    exact ⟨slot, mem, decide_eq_true ⟨rfl, within⟩⟩
  obtain ⟨hit, same⟩ := Option.isSome_iff_exists.mp found
  obtain ⟨sc, -, inClass⟩ := exists_of_findSome?_eq_some same
  have property := find?_some inClass
  simp only [decide_eq_true_eq] at property
  obtain ⟨rfl, low, high⟩ := property
  have hitListed := mem_of_find?_eq_some inClass
  have hitWithin : map.Within (.slot hit) data := ⟨low, high⟩
  cases sound.area_unique (slot_mem_areas hitListed) (slot_mem_areas mem) hitWithin within
  exact same

/-- From every address of a block of a slot the header is computed. -/
theorem umqQbufDataToHeadEscape_slot (held : .slot slot i ∈ map.held)
    (low : ((PoolBlock.slot slot i).area map.pool).start ≤ data)
    (high : data < ((PoolBlock.slot slot i).area map.pool).stop) :
    map.Within (.slot slot) data ∧
      map.umqQbufDataToHeadEscape data = some ((PoolBlock.slot slot i).header map.pool) := by
  obtain ⟨mem, counted⟩ := sound.slotHeld slot i held
  obtain ⟨known, aligned, -, top⟩ := sound.slots slot mem
  have small := sound.blockSize_small known
  have large := sound.blockSize_large known
  have inBlock : slot.block map.pool.mode (map.pool.blockSize slot.sizeClass) i ≤ data ∧
      data < slot.block map.pool.mode (map.pool.blockSize slot.sizeClass) i + map.pool.blockSize slot.sizeClass := by
    simp only [PoolBlock.area] at low high
    cases mode : map.pool.mode <;> simp only [mode, dataArea, Span.stop] at low high <;> omega
  obtain ⟨masked, counts⟩ := ExpSlot.locate small large aligned top counted inBlock.1 inBlock.2
  have within : map.Within (.slot slot) data := by
    have inside := ExpSlot.subSlot_inside map.pool.mode small large counted
    have row := ExpSlot.block_row map.pool.mode i small large
    have fits := Nat.le_trans (Nat.le_add_right _ _) (subSlot_fits map.pool.mode (map.pool.blockSize slot.sizeClass))
    simp only [ExpSlot.block] at inBlock
    exact ⟨show slot.buffer ≤ data by omega,
      show data < (slot.span map.pool.mode (map.pool.blockSize slot.sizeClass)).stop by omega⟩
  refine ⟨within, ?_⟩
  rw [umqQbufDataToHeadEscape, sound.findSlot_eq mem within]
  simp only [masked, counts, PoolBlock.header]
  cases map.pool.mode <;> rfl

/-! ## The registry -/

/-- A hit in the registry is the node of an escape block that has the address. -/
theorem escapeRegistryLookup_some {header : Nat} (hit : map.escapeRegistryLookup data = some header) :
    ∃ sc start, .escape sc start ∈ map.held ∧ map.Within (.escape sc start) data ∧
      header = start + map.pool.blockSize sc := by
  rw [escapeRegistryLookup] at hit
  split at hit
  · cases hit
  · obtain ⟨sc, -, inClass⟩ := exists_of_findSome?_eq_some hit
    dsimp only at inClass
    split at inClass
    · cases inClass
    · obtain ⟨node, found, rfl⟩ := Option.map_eq_some_iff.mp inClass
      have property := find?_some found
      simp only [decide_eq_true_eq] at property
      obtain ⟨start, held, rfl, -⟩ := (sound.registry _ _ _).mp (mem_of_find?_eq_some found)
      refine ⟨sc, start, held, ?_, rfl⟩
      simp only [escapeNode] at property
      simp only [Within, areaSpan, Span.stop]
      omega

theorem anyEscapeBufExists_of_held (held : .escape sc start ∈ map.held) : map.anyEscapeBufExists = true := by
  rw [anyEscapeBufExists, any_eq_true]
  refine ⟨sc, mem_range.mpr (sound.escapeHeld sc start held).1, decide_eq_true ?_⟩
  have counted : 0 < map.held.countP (PoolBlock.isEscape sc) := countP_pos_iff.mpr ⟨_, held, beq_self_eq_true sc⟩
  rw [sound.bufCnt]
  omega

theorem escapeRegistryLookup_escape (held : .escape sc start ∈ map.held) (low : start ≤ data)
    (high : data < start + map.pool.blockSize sc) :
    map.escapeRegistryLookup data = some (start + map.pool.blockSize sc) := by
  obtain ⟨known, aligned, positive, top⟩ := sound.escapeHeld sc start held
  have masked : maskDown 64 data (map.pool.blockSize sc) = start := by
    obtain ⟨k, small, same⟩ := sound.laid.powers _ (blockSize_mem known)
    obtain ⟨offset, rfl⟩ := Nat.exists_eq_add_of_le low
    rw [same] at aligned top high ⊢
    exact maskDown_two_pow_of_dvd (by omega) (by omega) aligned (by omega) (by omega)
  have found : (map.escapeRegistryLookup data).isSome := by
    rw [escapeRegistryLookup, sound.anyEscapeBufExists_of_held held]
    simp only [Bool.not_true, Bool.false_eq_true, if_false]
    rw [findSome?_isSome_iff]
    refine ⟨sc, mem_range.mpr known, ?_⟩
    rw [if_neg (by omega), masked, Option.isSome_map, find?_isSome]
    exact ⟨map.escapeNode sc start, (sound.registry _ _ _).mpr ⟨start, held, rfl, rfl⟩,
      decide_eq_true ⟨rfl, low, high⟩⟩
  obtain ⟨header, same⟩ := Option.isSome_iff_exists.mp found
  obtain ⟨otherSc, otherStart, otherHeld, otherWithin, rfl⟩ := sound.escapeRegistryLookup_some same
  have within : map.Within (.escape sc start) data := by
    simp only [Within, areaSpan, Span.stop]
    omega
  cases sound.area_unique (escape_mem_areas otherHeld) (escape_mem_areas held) otherWithin within
  exact same

/-! ## The other pools -/

theorem tiny_none (outside : ¬ map.Within .tiny data) : umqQbufBaseDataToHead map.tiny data = none := by
  have split := sound.tiny
  simp only [Within, areaSpan, BasePool.span, Span.stop] at outside split
  rw [umqQbufBaseDataToHead]
  split
  · rfl
  · split
    · rename_i mode
      exact if_pos (by have := split mode; omega)
    · exact if_pos (by omega)

theorem rx_none (small : data < 2 ^ 64) (outside : ¬ map.Within .rx data) :
    umqRxQbufDataToHead map.headers map.rx data = none := by
  rw [umqRxQbufDataToHead]
  split
  · rfl
  · apply if_pos
    have masked : maskDown 64 data umqRxQbufBlockSize = data / umqRxQbufBlockSize * umqRxQbufBlockSize :=
      maskDown_two_pow (by decide) small
    have below := Nat.div_mul_le_self data umqRxQbufBlockSize
    have dataEnd : map.rx.dataBufEnd ≤ map.rx.span.stop := by
      have fits := Nat.div_mul_le_self map.rx.totalLen (umqRxQbufBlockSize + sizeofUmqBuf)
      rw [Nat.mul_add] at fits
      simp only [RxPool.dataBufEnd, RxPool.span, Span.stop]
      omega
    have aligned : umqRxQbufBlockSize ∣ map.rx.dataBufEnd := Nat.dvd_add sound.rx (Nat.dvd_mul_left _ _)
    simp only [Within, areaSpan, RxPool.span] at outside
    by_contra inside
    -- the end of the blocks is aligned, so the block start is below it exactly when the address is
    obtain ⟨blocks, same⟩ := aligned
    have short : data / umqRxQbufBlockSize < blocks := by
      apply Nat.lt_of_mul_lt_mul_right (a := umqRxQbufBlockSize)
      rw [Nat.mul_comm blocks]
      omega
    have dataShort : data < umqRxQbufBlockSize * blocks := by
      rw [Nat.mul_comm]
      exact (Nat.div_lt_iff_lt_mul (by decide)).mp short
    simp only [RxPool.span] at dataEnd
    omega

/-! ## All lookups -/

theorem umqDataToHead_eq (positive : 0 < data) : map.umqDataToHead data =
    (map.umqQbufDataToHead data).or ((umqQbufBaseDataToHead map.tiny data).or
      ((map.umqQbufDataToHeadEscape data).or (umqRxQbufDataToHead map.headers map.rx data))) := by
  rw [umqDataToHead, umqQbufExpansionDataToHead, sound.umqInited, sound.inited]
  simp [Nat.ne_of_gt positive]

theorem umqQbufDataToHead_eq (positive : 0 < data) : map.umqQbufDataToHead data =
    match map.mainCandidate data with
    | some candidate => some candidate
    | none =>
      match map.pool.mode with
      | .split =>
        (map.umqQbufDataToHeadEscape data).filter fun esc =>
          decide ((map.headers esc).bufData ≠ 0 ∧ (map.headers esc).bufData ≤ data ∧
            data < (map.headers esc).bufData + (map.headers esc).bufSize)
      | .combine => map.umqQbufDataToHeadEscape data := by
  rw [umqQbufDataToHead, sound.inited]
  exact if_neg (by simpa using Nat.ne_of_gt positive)

/-- What the second lookup finds is found: if the first one drops it, the third asks again. -/
theorem umqDataToHead_escape {header : Nat} (positive : 0 < data) (mem : area ∈ map.areas)
    (within : map.Within area data)
    (notMain : .main ≠ area) (notTiny : .tiny ≠ area) (found : map.umqQbufDataToHeadEscape data = some header) :
    map.umqDataToHead data = some header := by
  have outside : ∀ other ∈ [Area.main, .tiny], other ≠ area → ¬ map.Within other data := fun other fixed ne inside =>
    ne (sound.area_unique (by rw [mem_areas]; simp at fixed; obtain rfl | rfl := fixed <;> trivial) mem inside within)
  rw [sound.umqDataToHead_eq positive, sound.umqQbufDataToHead_eq positive,
    mainCandidate_none (outside .main (by simp) notMain), sound.tiny_none (outside .tiny (by simp) notTiny), found]
  cases map.pool.mode with
  | combine => rfl
  | split =>
    dsimp only
    rw [Option.filter_some]
    split <;> rfl

theorem umqDataToHead_main (held : .main region i ∈ map.held)
    (low : ((PoolBlock.main region i).area map.pool).start ≤ data)
    (high : data < ((PoolBlock.main region i).area map.pool).stop) :
    map.umqDataToHead data = some ((PoolBlock.main region i).header map.pool) := by
  obtain ⟨mem, small, headroom, ok, pointer⟩ := sound.mainHeld region i held
  have inPool := sound.laid.inside mem small
  have start : region.block i ≤ (dataArea map.pool.mode (region.block i) region.blkSz).start := by
    cases map.pool.mode <;> simp [dataArea]
  have positive : 0 < data := by
    have base := sound.laid.positive
    simp only [PoolBlock.area] at low
    omega
  have found := mainCandidate_eq sound.laid mem small pointer ok low high
  rw [sound.umqDataToHead_eq positive, sound.umqQbufDataToHead_eq positive, found]
  rfl

theorem right : map.Right where
  own := by
    intro block held data low high
    cases block with
    | main region i => exact sound.umqDataToHead_main held low high
    | slot slot i =>
      obtain ⟨within, found⟩ := sound.umqQbufDataToHeadEscape_slot held low high
      have mem := (sound.slotHeld slot i held).1
      have base := (sound.slots slot mem).2.2.1
      have positive : 0 < data := Nat.lt_of_lt_of_le base within.1
      exact sound.umqDataToHead_escape positive (slot_mem_areas mem) within nofun nofun found
    | escape sc start =>
      have positive : 0 < data := Nat.lt_of_lt_of_le (sound.escapeHeld sc start held).2.2.1 low
      have within : map.Within (.escape sc start) data := by
        simp only [PoolBlock.area, Span.stop] at low high
        simp only [Within, areaSpan, Span.stop]
        omega
      have mem := escape_mem_areas held
      refine sound.umqDataToHead_escape positive mem within nofun nofun ?_
      rw [umqQbufDataToHeadEscape, findSlot_none fun slot inSlots other => ?_]
      · exact sound.escapeRegistryLookup_escape held low high
      · cases sound.area_unique (slot_mem_areas inSlots) mem other within
  outside := by
    intro data small outside
    by_cases null : data = 0
    · rw [umqDataToHead, if_pos (by simp [null])]
    · have positive : 0 < data := Nat.pos_of_ne_zero null
      have fixed : ∀ area ∈ [Area.main, .tiny, .rx], ¬ map.Within area data := fun area mem =>
        outside area (mem_append_left _ (mem_append_left _ mem))
      have noEscape : map.umqQbufDataToHeadEscape data = none := by
        rw [umqQbufDataToHeadEscape, findSlot_none fun slot mem => outside _ (slot_mem_areas mem)]
        cases hit : map.escapeRegistryLookup data with
        | none => rfl
        | some header =>
          obtain ⟨sc, start, held, within, -⟩ := sound.escapeRegistryLookup_some hit
          exact absurd within (outside _ (escape_mem_areas held))
      rw [sound.umqDataToHead_eq positive, sound.umqQbufDataToHead_eq positive,
        mainCandidate_none (fixed .main (by simp)), sound.tiny_none (fixed .tiny (by simp)), noEscape,
        sound.rx_none small (fixed .rx (by simp))]
      cases map.pool.mode <;> rfl

/-! ## Areas that come and go -/

/-- The areas stay apart when slots and escape blocks go, and when one of them comes in fresh memory. -/
theorem apart_of_part {next : QbufMap} (new : Option Area) (spans : next.areaSpan = map.areaSpan)
    (fresh : ∀ area, new = some area → map.Fresh (map.areaSpan area))
    (slots : ∀ slot ∈ next.slots, new = some (.slot slot) ∨ slot ∈ map.slots)
    (escapes : ∀ sc start, PoolBlock.escape sc start ∈ next.held →
      new = some (.escape sc start) ∨ .escape sc start ∈ map.held) :
    ∀ one ∈ next.areas, ∀ two ∈ next.areas, one ≠ two → (next.areaSpan one).Apart (next.areaSpan two) := by
  have part : ∀ area ∈ next.areas, new = some area ∨ area ∈ map.areas := by
    intro area mem
    rw [mem_areas] at mem ⊢
    cases area with
    | main | tiny | rx => exact .inr trivial
    | slot slot => exact slots slot mem
    | escape sc start => exact escapes sc start mem
  rw [spans]
  intro one oneListed two twoListed ne
  obtain oneNew | oneOld := part one oneListed
  · obtain twoNew | twoOld := part two twoListed
    · exact absurd (Option.some.inj (oneNew.symm.trans twoNew)) ne
    · exact (fresh one oneNew).2.2 two twoOld
  · obtain twoNew | twoOld := part two twoListed
    · exact ((fresh two twoNew).2.2 one oneOld).symm
    · exact sound.apart one oneOld two twoOld ne

/-! ## Headers -/

theorem slot_header_within (mem : slot ∈ map.slots) (counted : i < slot.totalBlockCnt) :
    map.Within (.slot slot) ((PoolBlock.slot slot i).header map.pool) := by
  obtain ⟨known, -⟩ := sound.slots slot mem
  have small := sound.blockSize_small known
  have large := sound.blockSize_large known
  have inside := ExpSlot.subSlot_inside map.pool.mode small large counted
  have row := ExpSlot.block_row map.pool.mode i small large
  have fits := subSlot_fits map.pool.mode (map.pool.blockSize slot.sizeClass)
  have below := Nat.mod_lt i (subSlotBlkCount_pos map.pool.mode small large)
  simp only [Within, areaSpan, PoolBlock.header]
  generalize map.pool.blockSize slot.sizeClass = blkSize at *
  generalize map.pool.mode = mode at *
  cases mode with
  | split =>
    have headers := row_le sizeofUmqBuf below
    have positive : 0 < sizeofUmqBuf := by decide
    simp only [ExpSlot.header, ExpSlot.span] at *
    omega
  | combine =>
    simp only [ExpSlot.header, ExpSlot.block, ExpSlot.span] at *
    omega

/-- A header outside of the main pool is none of its own. -/
theorem main_header_ne {address : Nat} (mem : region ∈ map.pool.regions) (small : i < region.blkCnt)
    (outside : ¬ map.Within .main address) : region.header map.pool.mode i ≠ address := by
  rintro rfl
  exact outside (sound.laid.headerInside region mem i small)

end Sound

def Placed (map : QbufMap) : PoolBlock → Prop
  | .main region i => region ∈ map.pool.regions ∧ i < region.blkCnt
  | .slot slot i => slot ∈ map.slots ∧ i < slot.totalBlockCnt
  | .escape sc start => map.Fresh ⟨start, map.pool.blockSize sc + sizeofUmqBuf⟩ ∨ .escape sc start ∈ map.held

namespace Sound

variable (sound : map.Sound)

include sound

theorem placed_of_held (held : block ∈ map.held) : map.Placed block := by
  cases block with
  | main region i => exact ⟨(sound.mainHeld region i held).1, (sound.mainHeld region i held).2.1⟩
  | slot slot i => exact sound.slotHeld slot i held
  | escape sc start => exact .inr held

/-- Writing the header of another block leaves the header of a block of the main pool. -/
theorem withHeader_main (placed : map.Placed block) (mem : region ∈ map.pool.regions) (small : i < region.blkCnt)
    (ne : .main region i ≠ block) :
    map.withHeader block headroom dataSize (region.header map.pool.mode i) =
      map.headers (region.header map.pool.mode i) := by
  apply update_of_ne
  cases block with
  | main other j =>
    intro same
    obtain ⟨rfl, rfl⟩ := sound.laid.headerInj region mem other placed.1 i small j placed.2 same
    exact ne rfl
  | slot slot j =>
    apply sound.main_header_ne mem small
    intro inMain
    cases sound.area_unique (mem_areas.mpr trivial) (slot_mem_areas placed.1) inMain
      (sound.slot_header_within placed.1 placed.2)
  | escape sc start =>
    apply sound.main_header_ne mem small
    intro inMain
    have positive : 0 < sizeofUmqBuf := by decide
    obtain fresh | held := placed
    · have apart := fresh.2.2 .main (mem_areas.mpr trivial)
      simp only [Span.Apart, Span.stop, Within, PoolBlock.header] at apart inMain
      omega
    · have within : map.Within (.escape sc start) ((PoolBlock.escape sc start).header map.pool) := by
        simp only [Within, areaSpan, Span.stop, PoolBlock.header]
        omega
      cases sound.area_unique (mem_areas.mpr trivial) (escape_mem_areas held) inMain within

/-- After a write to a header that leaves enough of the block, the blocks of the main pool are as
they have to be. -/
theorem mainHeld_withHeader (placed : map.Placed block) (ok : map.HeadroomOk block headroom)
    (held : .main region i = block ∨ .main region i ∈ map.held) :
    region ∈ map.pool.regions ∧ i < region.blkCnt ∧
      ∃ headroom', map.HeadroomOk (.main region i) headroom' ∧
        (map.withHeader block headroom dataSize (region.header map.pool.mode i)).bufData =
          (dataArea map.pool.mode (region.block i) region.blkSz).start + headroom' := by
  by_cases same : .main region i = block
  · subst same
    refine ⟨placed.1, placed.2, headroom, ok, ?_⟩
    rw [withHeader]
    simp [PoolBlock.header, PoolBlock.area]
  · have old := held.resolve_left same
    obtain ⟨mem, small, headroom', ok', pointer⟩ := sound.mainHeld region i old
    refine ⟨mem, small, headroom', ok', ?_⟩
    rw [sound.withHeader_main placed mem small same, pointer]

/-! ## The steps -/

omit sound in
theorem escape_ne (pooled : ∀ sc, block.isEscape sc = false) : PoolBlock.escape sc start ≠ block := by
  rintro rfl
  exact nomatch (beq_self_eq_true sc).symm.trans (pooled sc)

theorem alloc (possible : map.Possible (.alloc block headroom dataSize)) (ok : map.HeadroomOk block headroom) :
    (map.step (.alloc block headroom dataSize)).Sound := by
  obtain ⟨free, exists'⟩ := possible
  obtain ⟨placed, pooled⟩ : map.Placed block ∧ ∀ sc, block.isEscape sc = false := by
    cases block with
    | main | slot => exact ⟨exists', fun _ => rfl⟩
    | escape sc start => exact exists'.elim
  have escapes : ∀ sc start, PoolBlock.escape sc start ∈ block :: map.held ↔ .escape sc start ∈ map.held := by
    simp [escape_ne pooled]
  refine { sound with
    apart := sound.apart_of_part none rfl nofun (fun _ => .inr) fun sc start held => .inr ((escapes sc start).mp held)
    mainHeld := fun region i held => sound.mainHeld_withHeader placed ok (mem_cons.mp held)
    slotHeld := ?_
    escapeHeld := fun sc start held => sound.escapeHeld sc start ((escapes sc start).mp held)
    registry := ?_
    bufCnt := ?_
    nodup := nodup_cons.mpr ⟨free, sound.nodup⟩ }
  · intro slot i held
    obtain rfl | old := mem_cons.mp held
    · exact placed
    · exact sound.slotHeld slot i old
  · intro sc bucket node
    simp only [step, escapes]
    exact sound.registry sc bucket node
  · intro sc
    simp only [step, countP_cons, pooled, sound.bufCnt sc]
    rfl

theorem setHeader (held : block ∈ map.held) (ok : map.HeadroomOk block headroom) :
    (map.step (.setHeader block headroom dataSize)).Sound :=
  { sound with
    mainHeld := fun _ _ old => sound.mainHeld_withHeader (sound.placed_of_held held) ok (.inr old) }

/-- A slot that appears is in its own memory. -/
theorem expand (possible : map.Possible (.expand slot)) : (map.step (.expand slot)).Sound := by
  obtain ⟨known, counted, aligned, fresh⟩ := possible
  refine { sound with
    apart := sound.apart_of_part (some (.slot slot)) rfl (by rintro _ ⟨⟩; exact fresh) ?_ fun _ _ => .inr
    slots := forall_mem_cons.mpr ⟨⟨known, aligned, fresh.1, fresh.2.1⟩, sound.slots⟩
    slotHeld := fun other i held =>
      ⟨mem_cons_of_mem _ (sound.slotHeld other i held).1, (sound.slotHeld other i held).2⟩ }
  exact forall_mem_cons.mpr ⟨.inl rfl, fun other mem => .inr mem⟩

theorem shrink (possible : map.Possible (.shrink slot)) : (map.step (.shrink slot)).Sound := by
  obtain ⟨-, free⟩ := possible
  refine { sound with
    apart := sound.apart_of_part none rfl nofun (fun _ mem => .inr (mem_of_mem_erase mem)) fun _ _ => .inr
    slots := fun other mem => sound.slots other (mem_of_mem_erase mem)
    slotHeld := ?_ }
  intro other i held
  obtain ⟨mem, counted⟩ := sound.slotHeld other i held
  refine ⟨(mem_erase_of_ne ?_).mpr mem, counted⟩
  rintro rfl
  exact free i counted held

omit sound in
theorem mem_registry_insert {otherSc : Nat} {node : EscapeNode} :
    node ∈ (map.umqQbufAllocEscape sc start).registry otherSc bucket ↔
      (otherSc = sc ∧ bucket = escapeBufHash start ∧ node = map.escapeNode sc start) ∨
        node ∈ map.escape.registry otherSc bucket := by
  by_cases sameSc : otherSc = sc
  · subst sameSc
    by_cases sameBucket : bucket = escapeBufHash start
    · subst sameBucket
      simp [umqQbufAllocEscape, escapeNode]
    · simp [umqQbufAllocEscape, sameBucket]
  · simp [umqQbufAllocEscape, sameSc]

theorem allocEscape (possible : map.Possible (.allocEscape sc start)) : (map.step (.allocEscape sc start)).Sound := by
  obtain ⟨known, fresh, aligned⟩ := possible
  have new : PoolBlock.escape sc start ∉ map.held := by
    intro held
    have apart := fresh.2.2 _ (escape_mem_areas held)
    have positive : 0 < sizeofUmqBuf := by decide
    simp only [Span.Apart, Span.stop, areaSpan] at apart
    omega
  have power : (map.pool.blockSize sc).isPowerOfTwo := by
    obtain ⟨k, -, same⟩ := sound.laid.powers _ (blockSize_mem known)
    exact ⟨k, same⟩
  refine { sound with
    apart := sound.apart_of_part (some (.escape sc start)) rfl (by rintro _ ⟨⟩; exact fresh) (fun _ => .inr) ?_
    mainHeld := fun region i held =>
      sound.mainHeld_withHeader (.inl fresh) trivial (mem_cons.mp held)
    slotHeld := fun slot i held => sound.slotHeld slot i (by simpa [step] using held)
    escapeHeld := ?_
    registry := ?_
    filedOnce := ?_
    bufCnt := ?_
    nodup := nodup_cons.mpr ⟨new, sound.nodup⟩ }
  · intro otherSc otherStart held
    obtain same | old := mem_cons.mp held
    · cases same
      exact .inl rfl
    · exact .inr old
  · intro otherSc otherStart held
    obtain same | old := mem_cons.mp held
    · cases same
      have top : start + (map.pool.blockSize sc + sizeofUmqBuf) ≤ 2 ^ 64 := fresh.2.1
      exact ⟨known, aligned power, fresh.1, show start + map.pool.blockSize sc ≤ 2 ^ 64 by omega⟩
    · exact sound.escapeHeld otherSc otherStart old
  · intro otherSc bucket node
    simp only [step, mem_registry_insert, sound.registry, mem_cons]
    constructor
    · rintro (⟨rfl, rfl, rfl⟩ | ⟨otherStart, held, rest⟩)
      · exact ⟨start, .inl rfl, rfl, rfl⟩
      · exact ⟨otherStart, .inr held, rest⟩
    · rintro ⟨otherStart, same | held, rfl, rfl⟩
      · cases same
        exact .inl ⟨rfl, rfl, rfl⟩
      · exact .inr ⟨otherStart, held, rfl, rfl⟩
  · intro otherSc bucket
    by_cases here : otherSc = sc ∧ bucket = escapeBufHash start
    · obtain ⟨rfl, rfl⟩ := here
      simp only [step, umqQbufAllocEscape, update_self, map_cons, nodup_cons]
      refine ⟨?_, sound.filedOnce _ _⟩
      -- a node with this header would be the node of the new block
      intro filed
      obtain ⟨node, mem, same⟩ := mem_map.mp filed
      obtain ⟨otherStart, held, rfl, -⟩ := (sound.registry _ _ _).mp mem
      simp only [escapeNode, Nat.add_right_cancel_iff] at same
      exact new (same ▸ held)
    · have unchanged : (map.umqQbufAllocEscape sc start).registry otherSc bucket =
          map.escape.registry otherSc bucket := by
        by_cases sameSc : otherSc = sc
        · subst sameSc
          simp [umqQbufAllocEscape, update_of_ne fun same => here ⟨rfl, same⟩]
        · simp [umqQbufAllocEscape, update_of_ne sameSc]
      simp only [step, unchanged]
      exact sound.filedOnce otherSc bucket
  · intro otherSc
    simp only [step, umqQbufAllocEscape, countP_cons, PoolBlock.isEscape]
    by_cases same : otherSc = sc
    · subst same
      simp [sound.bufCnt]
    · rw [update_of_ne same, sound.bufCnt]
      simp [Ne.symm same]

/-- Freeing an escape block as it was allocated takes its node out of the registry. -/
theorem escapeFree_intact (held : .escape sc start ∈ map.held) (buf : Buf)
    (address : buf.addr = start + map.pool.blockSize sc)
    (pointer : buf.bufData = start) (size : buf.dataSize = map.pool.blockSize sc) (otherSc : Nat) :
    (∀ bucket, (escapeFree map.pool.sizes map.escape buf).registry otherSc bucket =
      if otherSc = sc then (map.escape.registry otherSc bucket).filter (·.qbuf ≠ start + map.pool.blockSize sc)
      else map.escape.registry otherSc bucket) ∧
    (escapeFree map.pool.sizes map.escape buf).bufCnt otherSc =
      if otherSc = sc then map.escape.bufCnt otherSc - 1 else map.escape.bufCnt otherSc := by
  obtain ⟨known, -⟩ := sound.escapeHeld sc start held
  have large := sound.blockSize_large known
  have found : map.pool.sizes[sc]? = some (map.pool.blockSize sc) := by
    rw [QbufPool.blockSize, getD_eq_getElem _ _ known]
    exact getElem?_eq_getElem known
  have class' : blkSizeToSc map.pool.sizes buf.dataSize = sc := by
    rw [size]
    exact blkSizeToSc_eq sound.laid.distinct (by omega) found
  have small : ¬ sc ≥ umqQbufSizeClassMax := Nat.not_le_of_lt (Nat.lt_of_lt_of_le known sound.laid.few)
  constructor
  · intro bucket
    rw [escapeFree, class']
    dsimp only
    rw [escapeRegistryRemove, if_neg small, pointer, address]
    by_cases sameSc : otherSc = sc
    · subst sameSc
      rw [update_self, if_pos rfl]
      by_cases sameBucket : bucket = escapeBufHash start
      · subst sameBucket
        rw [update_self, eraseP_key (sound.filedOnce _ _)]
      · rw [update_of_ne sameBucket, eq_comm, filter_eq_self]
        intro node mem
        obtain ⟨otherStart, -, rfl, bucketSame⟩ := (sound.registry _ _ _).mp mem
        simp only [escapeNode, ne_eq, Nat.add_right_cancel_iff, decide_not, Bool.not_eq_true', decide_eq_false_iff_not]
        rintro rfl
        exact sameBucket bucketSame
    · rw [update_of_ne sameSc, if_neg sameSc]
  · rw [escapeFree, class']
    dsimp only
    rw [if_pos (Nat.lt_of_not_le small)]
    by_cases sameSc : otherSc = sc
    · subst sameSc
      rw [update_self, if_pos rfl]
    · rw [update_of_ne sameSc, if_neg sameSc]

/-- A block of a pool is freed: the escape blocks stay. -/
theorem freePooled (pooled : ∀ sc, block.isEscape sc = false) :
    ({ map with held := map.held.erase block } : QbufMap).Sound := by
  have part : ∀ other, other ∈ map.held.erase block → other ∈ map.held := fun _ => mem_of_mem_erase
  have escapes : ∀ sc start, PoolBlock.escape sc start ∈ map.held.erase block ↔ .escape sc start ∈ map.held := by
    exact fun sc start => mem_erase_of_ne (escape_ne pooled)
  exact { sound with
    apart := sound.apart_of_part none rfl nofun (fun _ => .inr) fun _ _ held => .inr (part _ held)
    mainHeld := fun region i held => sound.mainHeld region i (part _ held)
    slotHeld := fun slot i held => sound.slotHeld slot i (part _ held)
    escapeHeld := fun sc start held => sound.escapeHeld sc start (part _ held)
    registry := fun sc bucket node => by
      simp only [escapes]
      exact sound.registry sc bucket node
    bufCnt := fun sc => by
      rw [countP_erase, pooled sc]
      simp [sound.bufCnt sc]
    nodup := sound.nodup.erase block }

theorem freeEscape (held : .escape sc start ∈ map.held) (careful : map.Careful (.free (.escape sc start))) :
    (map.step (.free (.escape sc start))).Sound := by
  obtain ⟨pointer, size⟩ := careful
  have part : ∀ other, other ∈ map.held.erase (.escape sc start) → other ∈ map.held := fun _ => mem_of_mem_erase
  have freed := sound.escapeFree_intact held
    { map.headers (start + map.pool.blockSize sc) with addr := start + map.pool.blockSize sc } rfl pointer size
  refine { sound with
    apart := sound.apart_of_part none rfl nofun (fun _ => .inr) fun _ _ held => .inr (part _ held)
    mainHeld := fun region i held => sound.mainHeld region i (part _ held)
    slotHeld := fun slot i held => sound.slotHeld slot i (part _ held)
    escapeHeld := fun otherSc otherStart held => sound.escapeHeld otherSc otherStart (part _ held)
    registry := ?_
    filedOnce := ?_
    bufCnt := ?_
    nodup := sound.nodup.erase _ }
  · intro otherSc bucket node
    simp only [step, (freed otherSc).1, sound.nodup.mem_erase_iff]
    by_cases sameSc : otherSc = sc
    · subst sameSc
      simp only [if_true, mem_filter, sound.registry]
      constructor
      · rintro ⟨⟨otherStart, otherHeld, rfl, rfl⟩, kept⟩
        refine ⟨otherStart, ⟨?_, otherHeld⟩, rfl, rfl⟩
        rintro same
        cases same
        simp [escapeNode] at kept
      · rintro ⟨otherStart, ⟨ne, otherHeld⟩, rfl, rfl⟩
        refine ⟨⟨otherStart, otherHeld, rfl, rfl⟩, ?_⟩
        simp only [escapeNode, ne_eq, Nat.add_right_cancel_iff, decide_not, Bool.not_eq_true', decide_eq_false_iff_not]
        rintro rfl
        exact ne rfl
    · simp only [sameSc, if_false, sound.registry]
      constructor
      · rintro ⟨otherStart, otherHeld, rest⟩
        exact ⟨otherStart, ⟨by simp [sameSc], otherHeld⟩, rest⟩
      · rintro ⟨otherStart, ⟨-, otherHeld⟩, rest⟩
        exact ⟨otherStart, otherHeld, rest⟩
  · intro otherSc bucket
    simp only [step, (freed otherSc).1]
    split
    · exact (filter_sublist.map EscapeNode.qbuf).nodup (sound.filedOnce otherSc bucket)
    · exact sound.filedOnce otherSc bucket
  · intro otherSc
    simp only [step, (freed otherSc).2, countP_erase, held, true_and, sound.bufCnt otherSc]
    have counted : otherSc = sc → 0 < map.held.countP (PoolBlock.isEscape otherSc) := by
      rintro rfl
      exact countP_pos_iff.mpr ⟨_, held, beq_self_eq_true _⟩
    by_cases sameSc : otherSc = sc
    · subst sameSc
      simp only [if_true, PoolBlock.isEscape, beq_self_eq_true]
      omega
    · simp [PoolBlock.isEscape, sameSc, Ne.symm sameSc]

theorem free (held : block ∈ map.held) (careful : map.Careful (.free block)) : (map.step (.free block)).Sound := by
  cases block with
  | main | slot => exact sound.freePooled fun _ => rfl
  | escape sc start => exact sound.freeEscape held careful

theorem step {action : MapAction} (possible : map.Possible action) (careful : map.Careful action) :
    (map.step action).Sound := by
  cases action with
  | alloc block headroom dataSize => exact sound.alloc possible careful
  | allocEscape sc start => exact sound.allocEscape possible
  | setHeader block headroom dataSize => exact sound.setHeader possible careful
  | free block => exact sound.free possible careful
  | expand slot => exact sound.expand possible
  | shrink slot => exact sound.shrink possible

end Sound

/-! ## Runs -/

theorem Opened.sound {cfg : InitCfg} {plan : PoolPlan} {bufAddr : Nat} (opened : map.Opened cfg plan bufAddr)
    (accepted : Accepted cfg plan) (powers : ∀ size ∈ plan.sizes, size.isPowerOfTwo) (aligned : 2 ^ 21 ∣ bufAddr)
    (top : bufAddr + plan.normalIoBufSize ≤ 2 ^ 64) : map.Sound := by
  have none : ∀ block, block ∉ map.held := by
    rw [opened.held]
    exact fun _ => not_mem_nil
  have noSlot : ∀ slot, slot ∉ map.slots := by
    rw [opened.slots]
    exact fun _ => not_mem_nil
  have : Std.Symm fun one two => (map.areaSpan one).Apart (map.areaSpan two) := ⟨fun _ _ => Span.Apart.symm⟩
  exact {
    umqInited := opened.umqInited
    inited := opened.inited
    laid := opened.pool ▸ poolLaid_initLayout accepted powers aligned top opened.positive
    tiny := opened.tiny
    rx := opened.rx
    rxTop := opened.rxTop
    apart := fun one oneListed two twoListed => opened.apart.forall oneListed twoListed
    slots := fun slot mem => absurd mem (noSlot slot)
    mainHeld := fun _ _ held => absurd held (none _)
    slotHeld := fun _ _ held => absurd held (none _)
    escapeHeld := fun _ _ held => absurd held (none _)
    registry := fun sc bucket node => by simp [opened.registry, none]
    filedOnce := fun sc bucket => by simp [opened.registry]
    bufCnt := fun sc => by simp [opened.bufCnt, opened.held]
    nodup := opened.held ▸ nodup_nil }

/-- With block sizes that are powers of two, in every run in which blocks of the main pool get no
headroom in combined mode and less than a block in split mode, and escape blocks are freed as they
were allocated, every lookup is right in every state. -/
theorem right_of_careful {cfg : InitCfg} {plan : PoolPlan} {bufAddr : Nat} {first last : QbufMap}
    (accepted : Accepted cfg plan) (powers : ∀ size ∈ plan.sizes, size.isPowerOfTwo) (aligned : 2 ^ 21 ∣ bufAddr)
    (top : bufAddr + plan.normalIoBufSize ≤ 2 ^ 64) (opened : first.Opened cfg plan bufAddr)
    (run : Run step (fun map action => map.Possible action ∧ map.Careful action) first last) : last.Right :=
  Sound.right <| run.invariant (opened.sound accepted powers aligned top)
    fun _ _ sound allowed => sound.step allowed.1 allowed.2

/-! ## Two blocks of each class -/

def twoBlocksCfg (mode : BufMode) : InitCfg :=
  { defaultCfg with bufMode := mode, perScBlockCounts := fun _ => 2, perScTlsQbufPoolDepth := fun _ => 1 }

def twoBlocksPlan (mode : BufMode) : PoolPlan where
  classes := [⟨2, 1, 4096⟩, ⟨2, 1, 65536⟩]
  tinyIoBufSize := 0
  rxIoBufSize := 0
  normalIoBufSize :=
    match mode with
    | .split => 4334080
    | .combine => 139264
  normalPoolMaxSize := 2147483648

/-- The pool of these blocks at `2 ^ 21`, without a tiny and a receive pool. -/
def twoBlocks (mode : BufMode) : QbufMap where
  umqInited := true
  inited := true
  pool := initLayout (twoBlocksCfg mode) (twoBlocksPlan mode) (2 ^ 21)
  slots := []
  escape := ⟨fun _ _ => [], fun _ => 0, []⟩
  tiny := ⟨false, mode, 0, 0, 0, 0⟩
  rx := ⟨false, 0, 0⟩
  headers := fun address => ⟨address, 0, false, 0, 0, 0, 0, false, 0, false⟩
  held := []

theorem twoBlocks_accepted {mode : BufMode} : Accepted (twoBlocksCfg mode) (twoBlocksPlan mode) := by
  cases mode <;> exact ⟨by decide, by decide⟩

theorem twoBlocks_opened {mode : BufMode} :
    (twoBlocks mode).Opened (twoBlocksCfg mode) (twoBlocksPlan mode) (2 ^ 21) where
  umqInited := rfl
  inited := rfl
  pool := rfl
  positive := by decide
  slots := rfl
  held := rfl
  registry := fun _ _ => rfl
  bufCnt := fun _ => rfl
  tiny := fun _ => Nat.le_refl _
  rx := ⟨0, rfl⟩
  rxTop := Nat.zero_le _
  apart := by cases mode <;> decide

/-- The region of the small blocks in split mode. -/
def smallBlocks : ClassRegion := ⟨⟨2, 1, 4096⟩, 2228224, 2236672⟩

def busyRun : List MapAction :=
  [.alloc (.main smallBlocks 1) 32 4064, .expand ⟨0, 2 ^ 30, 3⟩, .alloc (.slot ⟨0, 2 ^ 30, 3⟩ 2) 100 50,
    .allocEscape 1 (2 ^ 31), .setHeader (.escape 1 (2 ^ 31)) 64 65536, .allocEscape 0 (2 ^ 32),
    .free (.escape 0 (2 ^ 32)), .free (.main smallBlocks 1), .alloc (.main smallBlocks 0) 0 4096]

theorem right_busyRun :
    AllAllowed step (fun map action => map.Possible action ∧ map.Careful action) (twoBlocks .split) busyRun ∧
      (busyRun.foldl step (twoBlocks .split)).Right := by
  have allowed : AllAllowed step (fun map action => map.Possible action ∧ map.Careful action) (twoBlocks .split)
      busyRun := by decide +kernel
  refine ⟨allowed, right_of_careful twoBlocks_accepted ?_ (by decide) (by decide) twoBlocks_opened
    (.ofList allowed)⟩
  show ∀ size ∈ [4096, 65536], size.isPowerOfTwo
  rw [forall_mem_cons, forall_mem_singleton]
  exact ⟨⟨12, rfl⟩, ⟨16, rfl⟩⟩

/-- A small block in combined mode gets a headroom. -/
def headroomRun : List MapAction := [.alloc (.main ⟨⟨2, 1, 4096⟩, 2228224, 0⟩ 0) 64 100]

/-- The owner of an escape block sets its data size and frees it. -/
def staleRun : List MapAction :=
  [.allocEscape 0 (2 ^ 30), .setHeader (.escape 0 (2 ^ 30)) 0 100, .free (.escape 0 (2 ^ 30))]

/-- Without the conditions lookups go wrong: in combined mode the headroom of a block of the main
pool leads to no header, and an escape block that was freed with another data size is still found. -/
theorem careful_needed :
    (AllAllowed step Possible (twoBlocks .combine) headroomRun ∧
      (headroomRun.foldl step (twoBlocks .combine)).umqDataToHead (2228224 + 128) = none ∧
      ¬ (headroomRun.foldl step (twoBlocks .combine)).Right) ∧
    (AllAllowed step Possible (twoBlocks .split) staleRun ∧
      (staleRun.foldl step (twoBlocks .split)).Outside (2 ^ 30) ∧
      (staleRun.foldl step (twoBlocks .split)).umqDataToHead (2 ^ 30) = some (2 ^ 30 + 4096) ∧
      ¬ (staleRun.foldl step (twoBlocks .split)).Right) := by
  have lost : (headroomRun.foldl step (twoBlocks .combine)).umqDataToHead (2228224 + 128) = none := by decide +kernel
  have outside : (staleRun.foldl step (twoBlocks .split)).Outside (2 ^ 30) := by decide +kernel
  have stale : (staleRun.foldl step (twoBlocks .split)).umqDataToHead (2 ^ 30) = some (2 ^ 30 + 4096) := by
    decide +kernel
  refine ⟨⟨by decide +kernel, lost, fun right => ?_⟩, by decide +kernel, outside, stale, fun right => ?_⟩
  · have found := right.own (.main ⟨⟨2, 1, 4096⟩, 2228224, 0⟩ 0) mem_cons_self (2228224 + 128) (Nat.le_refl _)
      (by decide)
    exact nomatch lost.symm.trans found
  · exact nomatch stale.symm.trans (right.outside (2 ^ 30) (by decide) outside)

end QbufMap

end UbsComm.Qbuf
