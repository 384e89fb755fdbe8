import UbsComm.Ub.BindInfoSound

/-! # Bind info is read back as it was written

Each serializer puts one section into the buffer, and the deserializer finds in it the
values that the local device and queue gave. -/

namespace UbsComm.Ub

open Library List
open Library.Tlv (Element Section Sound headSize)

/-! ## What is written -/

def BindInfoType.section (type : BindInfoType) (value : List UInt8) : Section := ⟨type.code, value⟩

def BindDevInfo.words (info : BindDevInfo) : List UInt32 :=
  [info.umqTransMode, info.bufPoolMode, info.feature, info.pid, .ofNat info.bindNamespace.length,
    .ofNat info.seg.length, info.mempoolTokenValue]

/-- The padding at the end of the fixed part is not written. -/
def BindDevInfo.value (info : BindDevInfo) (padding : List UInt8) : List UInt8 :=
  le32s info.words ++ (padding ++ (info.bindNamespace ++ info.seg))

def BindQueueInfo.words (info : BindQueueInfo) : List UInt32 :=
  [info.token, info.umqId, if info.isBinded then 1 else 0, info.rxDepth, info.txDepth, info.rxBufSize, info.state,
    .ofNat info.rjetty.length]

def BindQueueInfo.value (info : BindQueueInfo) : List UInt8 := le32s info.words ++ info.rjetty

def BindFcInfo.words (info : BindFcInfo) : List UInt32 :=
  [info.token, info.initialCredit.toUInt32, .ofNat info.rjetty.length]

def BindFcInfo.value (info : BindFcInfo) (padding : List UInt8) : List UInt8 :=
  le32s info.words ++ (padding ++ info.rjetty)

/-! The values of the local side. -/

variable (dev : LocalDev)

def LocalDev.info : Option BindDevInfo := do
  let name ← umqUbGetNamespace dev.readlink
  let tseg ← dev.tseg
  let seg ← tseg.segCtx
  return {
    umqTransMode := dev.transMode
    bufPoolMode := dev.bufMode
    feature := dev.feature
    pid := dev.pid
    mempoolTokenValue := tseg.userCtx.toUInt32
    bindNamespace := padZeros (align8 name.length) name
    seg := seg.bytes }

/-- A jetty as the peer is to import it. -/
def LocalQueue.exported (queue : LocalQueue) (rjetty : Rjetty) : List UInt8 :=
  rjettyPatch (tokenPolicyGet dev.tokenPolicy) queue.tpType rjetty.bytes

def LocalQueue.info (queue : LocalQueue) : Option BindQueueInfo := do
  let rjetty ← queue.rjetty
  return {
    token := queue.token
    umqId := queue.umqId
    isBinded := queue.isBinded
    rxDepth := queue.rxDepth
    txDepth := queue.txDepth
    rxBufSize := queue.rxBufSize
    state := queue.state
    rjetty := queue.exported dev rjetty }

/-- A queue without flow control sends an empty section. -/
def LocalQueue.fcInfo (queue : LocalQueue) : Option BindFcInfo :=
  match queue.flowControl with
  | none => some ⟨0, 0, []⟩
  | some fc => do
    let rjetty ← fc.rjetty
    return ⟨fc.token, fc.initialCredit, queue.exported dev rjetty⟩

structure BindDevInfo.Valid (info : BindDevInfo) : Prop where
  terminated : 0 ∈ info.bindNamespace
  namespaceLe : info.bindNamespace.length ≤ umqNamespaceSize
  complete : sizeofUrmaSeg ≤ info.seg.length
  segLe : info.seg.length ≤ sizeofUrmaSeg + 1024

variable {element : Element} {front back padding : List UInt8}

theorem ofNat_toNat_of_le {count limit : Nat} (le : count ≤ limit) (small : limit < 2 ^ 32) :
    (UInt32.ofNat count).toNat = count := UInt32.toNat_ofNat_of_lt' (Nat.lt_of_le_of_lt le small)

section Dev

variable {dev : BindDevInfo}

theorem BindDevInfo.length_value {dev : BindDevInfo} (padded : padding.length = 4) :
    (dev.value padding).length = sizeofDevInfo + dev.bindNamespace.length + dev.seg.length := by
  simp [BindDevInfo.value, BindDevInfo.words, sizeofDevInfo]
  omega

theorem BindDevInfo.value_at_namespace {front padding back : List UInt8} :
    front ++ (dev.value padding ++ back) =
      (front ++ (le32s dev.words ++ padding)) ++ (dev.bindNamespace ++ (dev.seg ++ back)) := by
  simp [BindDevInfo.value]

theorem BindDevInfo.namespace_offset {dev : BindDevInfo} (front : List UInt8) (padded : padding.length = 4) :
    front.length + sizeofDevInfo = (front ++ (le32s dev.words ++ padding)).length := by
  simp [BindDevInfo.words, sizeofDevInfo, padded]

theorem BindDevInfo.read_seg (padded : padding.length = 4) :
    readBytes (front ++ (dev.value padding ++ back)) (front.length + sizeofDevInfo + dev.bindNamespace.length)
      dev.seg.length = .ok dev.seg := by
  rw [BindDevInfo.value_at_namespace, ← append_assoc _ dev.bindNamespace]
  apply readBytes_at _ rfl
  rw [length_append, ← dev.namespace_offset front padded]

theorem BindDevInfo.read_value (valid : dev.Valid) (padded : padding.length = 4) :
    BindDevInfo.read (front ++ (dev.value padding ++ back)) front.length = .ok dev := by
  have namespaceLen := ofNat_toNat_of_le valid.namespaceLe (by decide)
  have segSize := ofNat_toNat_of_le valid.segLe (by decide)
  have name : readBytes (front ++ (dev.value padding ++ back)) (front.length + sizeofDevInfo)
      dev.bindNamespace.length = .ok dev.bindNamespace := by
    rw [BindDevInfo.value_at_namespace]
    exact readBytes_at (dev.namespace_offset front padded) rfl
  unfold BindDevInfo.read devNamespaceLen devSegSize
  have seg := @read_seg front back padding dev padded
  simp only [BindDevInfo.value, append_assoc] at name seg ⊢
  rw [read32_words 4 rfl rfl, read32_words 5 rfl rfl, read32_first rfl, read32_words 1 rfl rfl, read32_words 2 rfl rfl,
    read32_words 3 rfl rfl, read32_words 6 rfl rfl]
  simp only [bind, Except.bind, namespaceLen, segSize, name, seg]
  rfl

/-- The deserializer accepts what the serializer writes. -/
theorem devInfoDeserialize_value (valid : dev.Valid) (padded : padding.length = 4) {type : UInt32} {info : BindInfo} :
    devInfoDeserialize (front ++ (dev.value padding ++ back)) ⟨type, (dev.value padding).length, front.length⟩ info =
      .ok { info with devInfo := some front.length } := by
  have namespaceLen := ofNat_toNat_of_le valid.namespaceLe (by decide)
  have segSize := ofNat_toNat_of_le valid.segLe (by decide)
  have length := dev.length_value padded
  have fixed : ¬ (dev.value padding).length < sizeofDevInfo := by omega
  have whole : ¬ (dev.seg.length < sizeofUrmaSeg ∨
      (dev.value padding).length < sizeofDevInfo + dev.bindNamespace.length + dev.seg.length) := by
    have complete := valid.complete
    omega
  obtain ⟨count, short, counted⟩ := strnlen_lt (dev.namespace_offset front padded) valid.terminated (dev.seg ++ back)
  unfold devInfoDeserialize devNamespaceLen devSegSize
  rw [if_neg fixed]
  simp only [BindDevInfo.value, append_assoc] at counted whole ⊢
  rw [read32_words 4 rfl rfl, read32_words 5 rfl rfl]
  simp only [bind, Except.bind, namespaceLen, segSize, if_neg whole, counted, if_neg (Nat.ne_of_lt short)]
  rfl

end Dev

variable {name : List UInt8} {sizeofInfo : Nat}

theorem jettyInfoDeserialize_ok {readSize : Nat → Except Fault UInt32} {rjettySize : UInt32}
    (read : readSize element.value = .ok rjettySize) (whole : sizeofInfo + rjettySize.toNat ≤ element.len)
    {info : BindInfo} : jettyInfoDeserialize sizeofInfo readSize element info = .ok info := by
  unfold jettyInfoDeserialize
  rw [if_neg (by omega), read]
  simp only [bind, Except.bind]
  rw [if_neg (by omega)]
  rfl

section Queue

variable {queue : BindQueueInfo}

theorem BindQueueInfo.length_value {queue : BindQueueInfo} :
    queue.value.length = sizeofQueueInfo + queue.rjetty.length := by
  rw [BindQueueInfo.value, length_append]
  rfl

theorem BindQueueInfo.read_value (small : queue.rjetty.length < 2 ^ 32) :
    BindQueueInfo.read (front ++ (queue.value ++ back)) front.length = .ok queue := by
  have rjettySize : (UInt32.ofNat queue.rjetty.length).toNat = queue.rjetty.length := UInt32.toNat_ofNat_of_lt' small
  have rjetty : readBytes (front ++ (queue.value ++ back)) (front.length + sizeofQueueInfo) queue.rjetty.length =
      .ok queue.rjetty := by
    rw [BindQueueInfo.value, append_assoc, ← append_assoc front]
    apply readBytes_at _ rfl
    simp [BindQueueInfo.words, sizeofQueueInfo]
  have binded : decide ((if queue.isBinded then (1 : UInt32) else 0).toNat % 2 = 1) = queue.isBinded := by
    cases queue.isBinded <;> rfl
  unfold BindQueueInfo.read queueRjettySize
  simp only [BindQueueInfo.value, append_assoc] at rjetty ⊢
  rw [read32_words 7 rfl rfl, read32_first rfl, read32_words 1 rfl rfl, read32_words 2 rfl rfl, read32_words 3 rfl rfl,
    read32_words 4 rfl rfl, read32_words 5 rfl rfl, read32_words 6 rfl rfl]
  simp only [bind, Except.bind, rjettySize, rjetty, binded]
  rfl

theorem queueInfoDeserialize_value (small : queue.rjetty.length < 2 ^ 32) {type : UInt32} {info : BindInfo} :
    queueInfoDeserialize (front ++ (queue.value ++ back)) ⟨type, queue.value.length, front.length⟩ info =
      .ok { info with queueInfo := some front.length } := by
  have read : queueRjettySize (front ++ (queue.value ++ back)) front.length = .ok (.ofNat queue.rjetty.length) :=
    by rw [BindQueueInfo.value, append_assoc]; exact read32_words 7 rfl rfl
  have whole : sizeofQueueInfo + (UInt32.ofNat queue.rjetty.length).toNat ≤ queue.value.length := by
    apply Nat.le_of_eq
    rw [UInt32.toNat_ofNat_of_lt' small, queue.length_value]
  exact jettyInfoDeserialize_ok read whole

end Queue

section Fc

variable {fc : BindFcInfo}

theorem BindFcInfo.length_value {fc : BindFcInfo} (padded : padding.length = 4) :
    (fc.value padding).length = sizeofFcInfo + fc.rjetty.length := by
  simp [BindFcInfo.value, BindFcInfo.words, sizeofFcInfo]
  omega

theorem BindFcInfo.read_value (small : fc.rjetty.length < 2 ^ 32) (padded : padding.length = 4) :
    BindFcInfo.read (front ++ (fc.value padding ++ back)) front.length = .ok fc := by
  have rjettySize : (UInt32.ofNat fc.rjetty.length).toNat = fc.rjetty.length := UInt32.toNat_ofNat_of_lt' small
  have rjetty : readBytes (front ++ (fc.value padding ++ back)) (front.length + sizeofFcInfo) fc.rjetty.length =
      .ok fc.rjetty := by
    have shape : front ++ (fc.value padding ++ back) = (front ++ (le32s fc.words ++ padding)) ++
        (fc.rjetty ++ back) := by
      simp [BindFcInfo.value]
    rw [shape]
    apply readBytes_at _ rfl
    simp [BindFcInfo.words, sizeofFcInfo, padded]
  have credit : fc.initialCredit.toUInt32.toUInt16 = fc.initialCredit := by simp
  unfold BindFcInfo.read fcRjettySize
  simp only [BindFcInfo.value, append_assoc] at rjetty ⊢
  rw [read32_words 2 rfl rfl, read32_first rfl, read32_words 1 rfl rfl]
  simp only [bind, Except.bind, rjettySize, rjetty, credit]
  rfl

theorem fcInfoDeserialize_value (small : fc.rjetty.length < 2 ^ 32) (padded : padding.length = 4) {type : UInt32}
    {info : BindInfo} :
    fcInfoDeserialize (front ++ (fc.value padding ++ back)) ⟨type, (fc.value padding).length, front.length⟩ info =
      .ok { info with fcInfo := some front.length } := by
  have read : fcRjettySize (front ++ (fc.value padding ++ back)) front.length = .ok (.ofNat fc.rjetty.length) :=
    by rw [BindFcInfo.value, append_assoc]; exact read32_words 2 rfl rfl
  have whole : sizeofFcInfo + (UInt32.ofNat fc.rjetty.length).toNat ≤ (fc.value padding).length := by
    apply Nat.le_of_eq
    rw [UInt32.toNat_ofNat_of_lt' small, fc.length_value padded]
  exact jettyInfoDeserialize_ok read whole

end Fc

/-! ## The serializers -/

section Serialize

variable {rest words : List UInt8} {dev} {queue : LocalQueue} {result : List UInt8 × Nat}

/-- Room for a head and a fixed part whose last bytes the writer leaves alone. -/
theorem exists_fixed_split {sizeofInfo written : Nat} (room : headSize + sizeofInfo ≤ rest.length)
    (fits : written ≤ sizeofInfo) :
    ∃ head old padding body, rest = head ++ (old ++ (padding ++ body)) ∧ head.length = headSize ∧
      old.length = written ∧ padding.length = sizeofInfo - written := by
  obtain ⟨head, behind, rfl, headLength⟩ := exists_split (show headSize ≤ rest.length by omega)
  rw [length_append] at room
  obtain ⟨old, later, rfl, oldLength⟩ := exists_split (show written ≤ behind.length by omega)
  rw [length_append] at room
  obtain ⟨padding, body, rfl, paddingLength⟩ := exists_split (show sizeofInfo - written ≤ later.length by omega)
  exact ⟨head, old, padding, body, rfl, headLength, oldLength, paddingLength⟩

theorem poke_words {head old behind : List UInt8} (headLength : head.length = headSize)
    (oldLength : old.length = words.length) :
    poke (front ++ (head ++ (old ++ behind))) (front.length + headSize) words =
      front ++ (head ++ (words ++ behind)) := by
  rw [← append_assoc front, ← append_assoc front]
  apply poke_at _ oldLength
  rw [length_append, headLength]

theorem poke_payload {head behind old new : List UInt8} (headLength : head.length = headSize)
    (wordsLength : words.length = sizeofInfo) (oldLength : old.length = new.length) :
    poke (front ++ (head ++ (words ++ (old ++ behind)))) (front.length + headSize + sizeofInfo) new =
      front ++ (head ++ (words ++ (new ++ behind))) := by
  have shape : ∀ payload : List UInt8,
      front ++ (head ++ (words ++ (payload ++ behind))) = (front ++ (head ++ words)) ++ (payload ++ behind) := by
    intro payload
    simp
  rw [shape, shape]
  apply poke_at _ oldLength
  rw [length_append, length_append, headLength, wordsLength, Nat.add_assoc]

/-- A section made of some words, padding up to its fixed size, and a payload. -/
theorem fixed_payload_written (type : BindInfoType) {payload : List UInt8} (front : List UInt8)
    (small : rest.length < 2 ^ 32) (room : headSize + sizeofInfo + payload.length ≤ rest.length)
    (fits : words.length ≤ sizeofInfo) :
    ∃ padding, padding.length = sizeofInfo - words.length ∧
      (type.section (words ++ (padding ++ payload))).Written front rest
        (poke (poke (poke (front ++ rest) (front.length + headSize) words)
          (front.length + headSize + sizeofInfo) payload)
          front.length (le32 type.code ++ le32 (.ofNat ((sizeofInfo + payload.length) % 2 ^ 32))),
        (headSize + (sizeofInfo + payload.length) % 2 ^ 32) % 2 ^ 32) := by
  rw [Nat.mod_eq_of_lt (by omega : sizeofInfo + payload.length < 2 ^ 32), Nat.mod_eq_of_lt (by omega)]
  obtain ⟨head, old, padding, body, rfl, headLength, oldLength, paddingLength⟩ :=
    exists_fixed_split (show headSize + sizeofInfo ≤ rest.length by omega) fits
  simp only [length_append] at room
  obtain ⟨oldPayload, back, rfl, payloadLength⟩ := exists_split (show payload.length ≤ body.length by omega)
  refine ⟨padding, paddingLength, ?_⟩
  have wordsLength : (words ++ padding).length = sizeofInfo := by
    rw [length_append]
    omega
  have filled : poke (front ++ (head ++ (words ++ (padding ++ (oldPayload ++ back)))))
      (front.length + headSize + sizeofInfo) payload = front ++
        (head ++ (words ++ (padding ++ (payload ++ back)))) := by
    rw [← append_assoc words, ← append_assoc words]
    exact poke_payload headLength wordsLength payloadLength
  have valueLength : (words ++ (padding ++ payload)).length = sizeofInfo + payload.length := by
    rw [← append_assoc, length_append, wordsLength]
  rw [poke_words headLength oldLength, filled, ← valueLength]
  have room : headSize + (type.section (words ++ (padding ++ payload))).value.length + back.length =
      (head ++ (old ++ (padding ++ (oldPayload ++ back)))).length := by
    simp only [BindInfoType.section, length_append]
    omega
  have written := Section.written front headLength room
  simpa only [append_assoc, BindInfoType.section] using written

variable (front)

theorem umqUbVersionInfoSerialize_written
    (serialized : umqUbVersionInfoSerialize (front ++ rest) front.length = some result) :
    (BindInfoType.version.section (le32 umqUbBindVersion)).Written front rest result := by
  unfold umqUbVersionInfoSerialize at serialized
  split at serialized
  · cases serialized
  · rename_i enough
    rw [length_append, Nat.add_sub_cancel_left, Nat.add_comm] at enough
    obtain ⟨head, old, padding, back, rfl, headLength, oldLength, noPadding⟩ :=
      exists_fixed_split (Nat.le_of_not_lt enough) (Nat.le_refl _)
    cases eq_nil_of_length_eq_zero (noPadding.trans (Nat.sub_self _))
    cases serialized
    rw [poke_words headLength (show old.length = (le32 umqUbBindVersion).length from oldLength)]
    apply Section.written front headLength
    simp only [BindInfoType.section, length_append, oldLength, length_le32, sizeofVersionInfo]
    omega

/-! ### The device section -/

theorem align8_bounds {length : Nat} : length ≤ align8 length ∧ (length ≤ 256 → align8 length ≤ 256) := by
  unfold align8
  omega

theorem length_padZeros {size : Nat} (fits : name.length ≤ size) : (padZeros size name).length = size := by
  rw [padZeros, length_append, length_replicate]
  omega

/-- The zeros behind the aligned name are overwritten by what follows, or left. -/
theorem padZeros_split {size large : Nat} (fits : name.length ≤ size) (le : size ≤ large) :
    padZeros large name = padZeros size name ++ replicate (large - size) 0 := by
  rw [padZeros, padZeros, append_assoc, ← replicate_add]
  congr 2
  omega

/-- The name fits, and ends in a zero. -/
theorem umqUbGetNamespace_cases {readlink : Readlink} (found : umqUbGetNamespace readlink = some name) :
    name.length ≤ umqNamespaceSize ∧ 0 ∈ name := by
  cases readlink with
  | path bytes short =>
    simp only [umqUbGetNamespace] at found
    split at found
    · cases found
    · cases found
      exact ⟨by simp only [length_append, length_singleton]; omega, by simp⟩
  | missing =>
    cases found
    exact ⟨by decide, by simp⟩
  | failed => cases found

/-- The name goes into a field of the full size; the segment starts where the aligned
name ends and overwrites the zeros there. -/
theorem named_payload_written {name seg : List UInt8} {size : Nat}
    (wordsLength : words.length + 4 = sizeofDevInfo) (nameFits : name.length ≤ size) (le : size ≤ umqNamespaceSize)
    (nameRoom : headSize + sizeofDevInfo + umqNamespaceSize ≤ rest.length)
    (room : headSize + (sizeofDevInfo + size + seg.length) ≤ rest.length) :
    ∃ padding, padding.length = 4 ∧
      (BindInfoType.dev.section (words ++ (padding ++ (padZeros size name ++ seg)))).Written front rest
        (poke (poke (poke (poke (front ++ rest) (front.length + headSize) words)
            (front.length + headSize + sizeofDevInfo) (padZeros umqNamespaceSize name))
            (front.length + headSize + sizeofDevInfo + size) seg)
          front.length (le32 BindInfoType.dev.code ++ le32 (.ofNat (sizeofDevInfo + size + seg.length))),
        headSize + (sizeofDevInfo + size + seg.length)) := by
  obtain ⟨head, old, padding, body, rfl, headLength, oldLength, paddingLength⟩ :=
    exists_fixed_split (show headSize + sizeofDevInfo ≤ rest.length by omega) (Nat.le.intro wordsLength)
  have padded : padding.length = 4 := by omega
  simp only [length_append] at room nameRoom
  obtain ⟨oldName, behind, rfl, oldNameLength⟩ := exists_split (show umqNamespaceSize ≤ body.length by omega)
  have nameLength := length_padZeros nameFits
  have fullLength := length_padZeros (Nat.le_trans nameFits le)
  have fixedLength : (words ++ padding).length = sizeofDevInfo := by rw [length_append, padded, wordsLength]
  obtain ⟨oldSeg, back, split, oldSegLength⟩ :=
    exists_split (show seg.length ≤ (replicate (umqNamespaceSize - size) (0 : UInt8) ++ behind).length by
      simp only [length_append, length_replicate] at *
      omega)
  have backLength := congrArg length split
  simp only [length_append, length_replicate] at backLength room
  refine ⟨padding, padded, ?_⟩
  have namePoked : poke (front ++ (head ++ (words ++ (padding ++ (oldName ++ behind)))))
      (front.length + headSize + sizeofDevInfo) (padZeros umqNamespaceSize name) =
        front ++ (head ++ (words ++ padding ++ (padZeros size name ++ (oldSeg ++ back)))) := by
    rw [← append_assoc words, poke_payload headLength fixedLength (oldNameLength.trans fullLength.symm),
      padZeros_split nameFits le, append_assoc (padZeros size name), split]
  have prefixLength : (words ++ padding ++ padZeros size name).length = sizeofDevInfo + size := by
    rw [length_append, fixedLength, nameLength]
  have filled : poke (front ++ (head ++ (words ++ padding ++ (padZeros size name ++ (oldSeg ++ back)))))
      (front.length + headSize + sizeofDevInfo + size) seg =
        front ++ (head ++ (words ++ (padding ++ (padZeros size name ++ seg)) ++ back)) := by
    rw [← append_assoc (words ++ padding), Nat.add_assoc _ sizeofDevInfo,
      poke_payload headLength prefixLength oldSegLength]
    simp
  have valueLength : (words ++ (padding ++ (padZeros size name ++ seg))).length =
      sizeofDevInfo + size + seg.length := by
    simp only [← append_assoc]
    rw [length_append, prefixLength]
  rw [poke_words headLength oldLength, namePoked, filled, ← valueLength]
  apply Section.written front headLength
  simp only [BindInfoType.section, length_append]
  omega

theorem umqUbDevInfoSerialize_written
    (serialized : umqUbDevInfoSerialize dev (front ++ rest) front.length = some result) :
    ∃ info padding, dev.info = some info ∧ info.Valid ∧ padding.length = 4 ∧
      (BindInfoType.dev.section (info.value padding)).Written front rest result := by
  unfold umqUbDevInfoSerialize at serialized
  simp only [length_append, Nat.add_sub_cancel_left] at serialized
  split at serialized
  · cases serialized
  · rename_i enough
    obtain ⟨name, named, serialized⟩ := Option.bind_eq_some_iff.mp serialized
    obtain ⟨tseg, registered, serialized⟩ := Option.bind_eq_some_iff.mp serialized
    obtain ⟨seg, context, serialized⟩ := Option.bind_eq_some_iff.mp serialized
    split at serialized
    · cases serialized
    · rename_i complete
      have nameFits := (umqUbGetNamespace_cases named).1
      have namespaceLe : align8 name.length ≤ umqNamespaceSize := align8_bounds.2 nameFits
      have segLe := seg.short
      have small : headSize + (sizeofDevInfo + align8 name.length + seg.bytes.length) < 2 ^ 32 := by
        simp only [headSize, sizeofDevInfo, sizeofUrmaSeg, umqNamespaceSize] at *
        omega
      have total : (sizeofDevInfo + align8 name.length + seg.bytes.length) % 2 ^ 32 =
          sizeofDevInfo + align8 name.length + seg.bytes.length := Nat.mod_eq_of_lt (by omega)
      rw [total, Nat.mod_eq_of_lt small] at serialized
      split at serialized
      · cases serialized
      · rename_i room
        cases serialized
        have nameLength := length_padZeros (show name.length ≤ align8 name.length from align8_bounds.1)
        have wordsLength : (le32s [dev.transMode, dev.bufMode, dev.feature, dev.pid, .ofNat (align8 name.length),
            .ofNat seg.bytes.length, tseg.userCtx.toUInt32]).length + 4 = sizeofDevInfo := rfl
        have nameRoom : headSize + sizeofDevInfo + umqNamespaceSize ≤ rest.length := by omega
        obtain ⟨padding, padded, written⟩ :=
          named_payload_written front wordsLength align8_bounds.1 namespaceLe nameRoom
          (Nat.le_of_not_lt room)
        refine ⟨_, padding, by simp only [LocalDev.info, named, registered, context, bind, Option.bind]; rfl, ?_,
          padded, ?_⟩
        · exact ⟨mem_append_left _ (umqUbGetNamespace_cases named).2, by simp only; omega, by simp only; omega, segLe⟩
        · simp only [BindDevInfo.value, BindDevInfo.words, nameLength]
          exact written

/-! ### The two sections with an rjetty -/

theorem length_exported (dev : LocalDev) (queue : LocalQueue) (rjetty : Rjetty) :
    (queue.exported dev rjetty).length = rjetty.bytes.length := by
  have complete : 48 ≤ rjetty.bytes.length := rjetty.complete
  have flagged : ∀ flag, (poke rjetty.bytes 36 (le32 flag)).length = rjetty.bytes.length := by
    intro flag
    apply length_poke
    rw [length_le32]
    omega
  rw [LocalQueue.exported, rjettyPatch, length_poke, flagged]
  rw [flagged, length_le32]
  omega

theorem umqUbRjettyGet_cases {rjetty : Option Rjetty} {left : Nat} {bytes : List UInt8}
    (got : umqUbRjettyGet dev queue rjetty left = some bytes) :
    bytes.length ≤ left ∧ ∃ found, rjetty = some found ∧ bytes = queue.exported dev found := by
  obtain ⟨found, present, got⟩ := Option.bind_eq_some_iff.mp got
  split at got
  · cases got
  · rename_i fits
    cases got
    have length := length_exported dev queue found
    rw [LocalQueue.exported] at length
    exact ⟨by omega, found, present, rfl⟩

theorem umqUbQueueInfoSerialize_written (small : rest.length < 2 ^ 32)
    (serialized : umqUbQueueInfoSerialize dev queue (front ++ rest) front.length = some result) :
    ∃ info, queue.info dev = some info ∧
      (BindInfoType.queue.section info.value).Written front rest result := by
  unfold umqUbQueueInfoSerialize at serialized
  simp only [length_append] at serialized
  split at serialized
  · cases serialized
  · rename_i enough
    obtain ⟨rjetty, got, serialized⟩ := Option.bind_eq_some_iff.mp serialized
    obtain ⟨fits, found, present, rfl⟩ := umqUbRjettyGet_cases got
    have room : headSize + sizeofQueueInfo + (queue.exported dev found).length ≤ rest.length := by omega
    cases serialized
    refine ⟨_, by simp only [LocalQueue.info, present]; rfl, ?_⟩
    have wordsLength : (le32s [queue.token, queue.umqId, if queue.isBinded then 1 else 0, queue.rxDepth, queue.txDepth,
        queue.rxBufSize, queue.state, .ofNat (queue.exported dev found).length]).length = sizeofQueueInfo := rfl
    obtain ⟨padding, padded, written⟩ :=
      fixed_payload_written BindInfoType.queue front small room (Nat.le_of_eq wordsLength)
    -- the words fill the fixed part
    cases eq_nil_of_length_eq_zero (padded.trans (Nat.sub_eq_zero_of_le (Nat.le_of_eq wordsLength.symm)))
    exact written

theorem fcFields_cases {left : Nat} {fields : List UInt8 × UInt32 × UInt16}
    (got : fcFields dev queue left = some fields) :
    fields.1.length ≤ left ∧ queue.fcInfo dev = some ⟨fields.2.1, fields.2.2, fields.1⟩ := by
  unfold fcFields at got
  unfold LocalQueue.fcInfo
  cases enabled : queue.flowControl with
  | none =>
    rw [enabled] at got
    cases got
    exact ⟨Nat.zero_le _, rfl⟩
  | some fc =>
    rw [enabled] at got
    obtain ⟨rjetty, exported, got⟩ := Option.bind_eq_some_iff.mp got
    obtain ⟨fits, found, present, rfl⟩ := umqUbRjettyGet_cases exported
    cases got
    refine ⟨fits, ?_⟩
    simp only [present]
    rfl

theorem umqUbFcInfoSerialize_written (small : rest.length < 2 ^ 32)
    (serialized : umqUbFcInfoSerialize dev queue (front ++ rest) front.length = some result) :
    ∃ info padding, queue.fcInfo dev = some info ∧ padding.length = 4 ∧
      (BindInfoType.fc.section (info.value padding)).Written front rest result := by
  unfold umqUbFcInfoSerialize at serialized
  simp only [length_append] at serialized
  split at serialized
  · cases serialized
  · rename_i enough
    obtain ⟨⟨rjetty, token, credit⟩, got, serialized⟩ := Option.bind_eq_some_iff.mp serialized
    obtain ⟨fits, given⟩ := fcFields_cases got
    simp only at fits given serialized
    have room : headSize + sizeofFcInfo + rjetty.length ≤ rest.length := by omega
    cases serialized
    have wordsLength : (le32s [token, credit.toUInt32, .ofNat rjetty.length]).length = 12 := rfl
    obtain ⟨padding, padded, written⟩ := fixed_payload_written BindInfoType.fc front small room
      (Nat.le_trans (Nat.le_of_eq wordsLength) (by decide))
    exact ⟨_, padding, given, padded, written⟩

/-! ## The round trip -/

/-- What the deserializer finds behind a section pointer is what the local side gave. -/
def Tells {α : Type} (given : Option α) (read : Nat → Except Fault α) (pointer : Option Nat) : Prop :=
  ∃ offset value, pointer = some offset ∧ given = some value ∧ read offset = .ok value

structure BindInfo.Carries (dev : LocalDev) (queue : LocalQueue) (bytes : List UInt8) (info : BindInfo) : Prop where
  versionTold : Tells (some umqUbBindVersion) (read32 bytes) info.versionInfo
  devTold : Tells dev.info (BindDevInfo.read bytes) info.devInfo
  queueTold : Tells (queue.info dev) (BindQueueInfo.read bytes) info.queueInfo
  fcTold : Tells (queue.fcInfo dev) (BindFcInfo.read bytes) info.fcInfo

structure Exchange (dev : LocalDev) (queue : LocalQueue) where
  devInfo : BindDevInfo
  devPadding : List UInt8
  queueInfo : BindQueueInfo
  fcInfo : BindFcInfo
  fcPadding : List UInt8
  devGiven : dev.info = some devInfo
  devValid : devInfo.Valid
  devPadded : devPadding.length = 4
  queueGiven : queue.info dev = some queueInfo
  fcGiven : queue.fcInfo dev = some fcInfo
  fcPadded : fcPadding.length = 4

def Exchange.sections (exchange : Exchange dev queue) : List Section :=
  [BindInfoType.version.section (le32 umqUbBindVersion),
    BindInfoType.dev.section (exchange.devInfo.value exchange.devPadding),
    BindInfoType.queue.section exchange.queueInfo.value,
    BindInfoType.fc.section (exchange.fcInfo.value exchange.fcPadding)]

theorem umqUbBindInfoSerialize_sections {buffer : List UInt8} (small : buffer.length < 2 ^ 32)
    (serialized : umqUbBindInfoSerialize dev queue buffer = some result) :
    ∃ exchange : Exchange dev queue, (∀ sect ∈ exchange.sections, sect.Fits) ∧
      result.1.take result.2 = exchange.sections.flatMap Section.bytes := by
  obtain ⟨versionResult, versionSerialized, serialized⟩ := Option.bind_eq_some_iff.mp serialized
  obtain ⟨devResult, devSerialized, serialized⟩ := Option.bind_eq_some_iff.mp serialized
  obtain ⟨queueResult, queueSerialized, serialized⟩ := Option.bind_eq_some_iff.mp serialized
  obtain ⟨fcResult, fcSerialized, serialized⟩ := Option.bind_eq_some_iff.mp serialized
  cases serialized
  -- each writer starts behind the sections of the writers before it
  have versionWritten := umqUbVersionInfoSerialize_written [] versionSerialized
  have versionFits := versionWritten.fits small
  obtain ⟨behindVersion, rfl, versionLength⟩ := versionWritten
  obtain ⟨devInfo, devPadding, devGiven, devValid, devPadded, devWritten⟩ :=
    umqUbDevInfoSerialize_written (BindInfoType.version.section (le32 umqUbBindVersion)).bytes devSerialized
  have devFits := devWritten.fits (by omega)
  obtain ⟨behindDev, rfl, devLength⟩ := devWritten
  simp only [← append_assoc, ← length_append] at queueSerialized
  obtain ⟨queueInfo, queueGiven, queueWritten⟩ := umqUbQueueInfoSerialize_written _ (by omega) queueSerialized
  have queueFits := queueWritten.fits (by omega)
  obtain ⟨behindQueue, rfl, queueLength⟩ := queueWritten
  simp only [← append_assoc, ← length_append] at fcSerialized
  obtain ⟨fcInfo, fcPadding, fcGiven, fcPadded, fcWritten⟩ :=
    umqUbFcInfoSerialize_written _ (by omega) fcSerialized
  have fcFits := fcWritten.fits (by omega)
  obtain ⟨behindFc, rfl, fcLength⟩ := fcWritten
  refine ⟨⟨devInfo, devPadding, queueInfo, fcInfo, fcPadding, devGiven, devValid, devPadded, queueGiven, fcGiven,
    fcPadded⟩, ?_, ?_⟩
  · simp only [Exchange.sections, forall_mem_cons]
    exact ⟨versionFits, devFits, queueFits, fcFits, forall_mem_nil _⟩
  · simp only [Exchange.sections, flatMap_cons, flatMap_nil, append_nil, ← append_assoc,
      ← length_append, take_left]

section Exchange

variable (exchange : Exchange dev queue)

def Exchange.bytes : List UInt8 := exchange.sections.flatMap Section.bytes

/-- Where the value of the section with the given index starts. -/
def Exchange.offset (index : Nat) : Nat := ((exchange.sections.take index).flatMap Section.bytes).length + headSize

theorem Exchange.bytes_at (index : Nat) {sect : Section} (found : exchange.sections[index]? = some sect) :
    ∃ front back, exchange.bytes = front ++ (sect.value ++ back) ∧ front.length = exchange.offset index := by
  obtain ⟨inside, rfl⟩ := List.getElem?_eq_some_iff.mp found
  obtain ⟨front, split, length⟩ := Tlv.flatMap_bytes_at (exchange.sections.take index)
    (exchange.sections.drop (index + 1)) exchange.sections[index]
  rw [getElem_cons_drop, take_append_drop] at split
  exact ⟨front, _, split, length⟩

/-! Each type of section goes to its own check. -/

theorem Exchange.version_told (info : BindInfo) :
    bindInfoVisit exchange.bytes info
        ⟨BindInfoType.version.code, (le32 umqUbBindVersion).length, exchange.offset 0⟩ =
      .ok { info with versionInfo := some (exchange.offset 0) } ∧
    read32 exchange.bytes (exchange.offset 0) = .ok umqUbBindVersion := by
  obtain ⟨front, back, split, length⟩ := exchange.bytes_at 0 rfl
  rw [split]
  exact ⟨rfl, read32_at length.symm⟩

theorem Exchange.dev_told (info : BindInfo) :
    bindInfoVisit exchange.bytes info
        ⟨BindInfoType.dev.code, (exchange.devInfo.value exchange.devPadding).length, exchange.offset 1⟩ =
      .ok { info with devInfo := some (exchange.offset 1) } ∧
    BindDevInfo.read exchange.bytes (exchange.offset 1) = .ok exchange.devInfo := by
  obtain ⟨front, back, split, length⟩ := exchange.bytes_at 1 rfl
  rw [split, ← length]
  exact ⟨devInfoDeserialize_value exchange.devValid exchange.devPadded,
    BindDevInfo.read_value exchange.devValid exchange.devPadded⟩

theorem Exchange.queue_told (small : exchange.queueInfo.rjetty.length < 2 ^ 32) (info : BindInfo) :
    bindInfoVisit exchange.bytes info
        ⟨BindInfoType.queue.code, exchange.queueInfo.value.length, exchange.offset 2⟩ =
      .ok { info with queueInfo := some (exchange.offset 2) } ∧
    BindQueueInfo.read exchange.bytes (exchange.offset 2) = .ok exchange.queueInfo := by
  obtain ⟨front, back, split, length⟩ := exchange.bytes_at 2 rfl
  rw [split, ← length]
  exact ⟨queueInfoDeserialize_value small, BindQueueInfo.read_value small⟩

theorem Exchange.fc_told (small : exchange.fcInfo.rjetty.length < 2 ^ 32) (info : BindInfo) :
    bindInfoVisit exchange.bytes info
        ⟨BindInfoType.fc.code, (exchange.fcInfo.value exchange.fcPadding).length, exchange.offset 3⟩ =
      .ok { info with fcInfo := some (exchange.offset 3) } ∧
    BindFcInfo.read exchange.bytes (exchange.offset 3) = .ok exchange.fcInfo := by
  obtain ⟨front, back, split, length⟩ := exchange.bytes_at 3 rfl
  rw [split, ← length]
  exact ⟨fcInfoDeserialize_value small exchange.fcPadded, BindFcInfo.read_value small exchange.fcPadded⟩

theorem Exchange.visitAll_sections (queueSmall : exchange.queueInfo.rjetty.length < 2 ^ 32)
    (fcSmall : exchange.fcInfo.rjetty.length < 2 ^ 32) :
    Tlv.visitAll (bindInfoVisit exchange.bytes) 0 exchange.sections .empty =
      .ok ⟨some (exchange.offset 0), some (exchange.offset 1), some (exchange.offset 2), some (exchange.offset 3)⟩ := by
  have atDev : (BindInfoType.version.section (le32 umqUbBindVersion)).bytes.length + headSize = exchange.offset 1 := by
    simp [Exchange.offset, Exchange.sections]
  have atQueue : (BindInfoType.version.section (le32 umqUbBindVersion)).bytes.length +
      (BindInfoType.dev.section (exchange.devInfo.value exchange.devPadding)).bytes.length + headSize =
        exchange.offset 2 := by
    simp [Exchange.offset, Exchange.sections]
  have atFc : (BindInfoType.version.section (le32 umqUbBindVersion)).bytes.length +
      (BindInfoType.dev.section (exchange.devInfo.value exchange.devPadding)).bytes.length +
      (BindInfoType.queue.section exchange.queueInfo.value).bytes.length + headSize = exchange.offset 3 := by
    simp [Exchange.offset, Exchange.sections, Nat.add_assoc]
  have start : 0 + headSize = exchange.offset 0 := rfl
  simp only [Exchange.sections, Tlv.visitAll, Nat.zero_add, atDev, atQueue, atFc, start]
  simp only [BindInfoType.section, exchange.version_told, exchange.dev_told, exchange.queue_told queueSmall,
    exchange.fc_told fcSmall]

theorem Exchange.deserialized (fits : ∀ sect ∈ exchange.sections, sect.Fits) :
    ∃ info, umqUbBindInfoDeserialize exchange.bytes = .ok info ∧ info.Carries dev queue exchange.bytes := by
  have queueSmall : exchange.queueInfo.rjetty.length < 2 ^ 32 := by
    have small : headSize + exchange.queueInfo.value.length < 2 ^ 32 :=
      fits (BindInfoType.queue.section exchange.queueInfo.value) (by simp [Exchange.sections])
    rw [exchange.queueInfo.length_value] at small
    omega
  have fcSmall : exchange.fcInfo.rjetty.length < 2 ^ 32 := by
    have small : headSize + (exchange.fcInfo.value exchange.fcPadding).length < 2 ^ 32 :=
      fits (BindInfoType.fc.section (exchange.fcInfo.value exchange.fcPadding)) (by simp [Exchange.sections])
    rw [exchange.fcInfo.length_value exchange.fcPadded] at small
    omega
  refine ⟨⟨some (exchange.offset 0), some (exchange.offset 1), some (exchange.offset 2), some (exchange.offset 3)⟩, ?_,
    ?_⟩
  · have walked := Tlv.walk_sections (bindInfoVisit exchange.bytes) fits (cons_ne_nil _ _) [] .empty
    rw [nil_append, length_nil] at walked
    exact walked.trans (exchange.visitAll_sections queueSmall fcSmall)
  · exact ⟨⟨_, _, rfl, rfl, (exchange.version_told .empty).2⟩,
      ⟨_, _, rfl, exchange.devGiven, (exchange.dev_told .empty).2⟩,
      ⟨_, _, rfl, exchange.queueGiven, (exchange.queue_told queueSmall .empty).2⟩,
      ⟨_, _, rfl, exchange.fcGiven, (exchange.fc_told fcSmall .empty).2⟩⟩

end Exchange

end Serialize

/-- No peer bytes make the deserializer read outside of them or return a section that
leaves them, and what the serializer wrote is read back as it was given. -/
theorem umqUbBindInfo_inside_and_roundTrip :
    (∀ bytes, Sound (BindInfo.Inside bytes) (umqUbBindInfoDeserialize bytes)) ∧
    ∀ (dev : LocalDev) (queue : LocalQueue) (buffer out : List UInt8) (size : Nat), buffer.length < 2 ^ 32 →
      umqUbBindInfoSerialize dev queue buffer = some (out, size) →
      ∃ info, umqUbBindInfoDeserialize (out.take size) = .ok info ∧ info.Carries dev queue (out.take size) := by
  refine ⟨umqUbBindInfoDeserialize_sound, ?_⟩
  intro dev queue buffer out size small serialized
  obtain ⟨exchange, fits, taken⟩ := umqUbBindInfoSerialize_sections small serialized
  rw [taken]
  exact exchange.deserialized fits

/-- A device and a queue with flow control, and names that end inside a word. -/
def sampleDev : LocalDev where
  transMode := 1
  bufMode := 0
  feature := 2
  pid := 77
  readlink := .path [112, 105, 100] (by decide)
  tseg := some ⟨9, some ⟨replicate 48 5, by decide⟩⟩

def sampleRjetty : Rjetty := ⟨replicate 56 3, by decide, by decide⟩

def sampleQueue : LocalQueue where
  isBinded := true
  token := 11
  rxDepth := 64
  txDepth := 32
  rxBufSize := 4096
  state := 2
  umqId := 5
  tpType := 1
  rjetty := some sampleRjetty
  flowControl := some ⟨12, some sampleRjetty, 0, 16⟩

theorem umqUbBindInfo_sample_exchanged :
    ∃ out size info, umqUbBindInfoSerialize sampleDev sampleQueue (replicate 512 0) = some (out, size) ∧
      umqUbBindInfoDeserialize (out.take size) = .ok info ∧ info.Carries sampleDev sampleQueue (out.take size) := by
  have succeeds : (umqUbBindInfoSerialize sampleDev sampleQueue (replicate 512 0)).isSome := by decide +kernel
  obtain ⟨⟨out, size⟩, serialized⟩ := Option.isSome_iff_exists.mp succeeds
  obtain ⟨info, found, carried⟩ := umqUbBindInfo_inside_and_roundTrip.2 sampleDev sampleQueue _ out size
    (by rw [length_replicate]; decide) serialized
  exact ⟨out, size, info, serialized, found, carried⟩

end UbsComm.Ub
