import UbsComm.Library.Lists
import UbsComm.Library.Run

/-! # Messages in fragments

The sender cuts a long message at a threshold, the receiver puts the fragments into a buffer that
the first of them has set up, and takes the message for complete when a fragment ends at its total
length. -/

namespace UbsComm.Service

open Library List Function

/-- `SERVICE_MAX_TOTAL_LENGTH` -/
def maxTotalLength : Nat := 2 ^ 31

/-- `UBSHcomFragmentMessageId` -/
structure MessageId where
  epId : Nat
  seqNo : Nat
  deriving DecidableEq

/-- A fragment as it arrives: `UBSHcomFragmentHeader` and the payload behind it. -/
structure Fragment where
  msgId : MessageId
  totalLength : Nat
  offset : Nat
  payload : List UInt8
  deriving DecidableEq

/-- The place in the message lies in the fragment. -/
def Fragment.Covers (fragment : Fragment) (place : Nat) : Prop :=
  fragment.offset ≤ place ∧ place < fragment.offset + fragment.payload.length

instance (fragment : Fragment) (place : Nat) : Decidable (fragment.Covers place) := inferInstanceAs (Decidable (_ ∧ _))

/-! ## The sender -/

/-- `EstimateFragmentNum` for a protocol that splits and a message that is not left to a rendezvous. -/
def estimateFragmentNum (splitThreshold size : Nat) : Nat :=
  if splitThreshold = 2 ^ 32 - 1 then 1 else (size + splitThreshold - 1) / splitThreshold

/-- A pass of the loop over the fragments. -/
def buildFragment (msgId : MessageId) (data : List UInt8) (splitThreshold segIndex : Nat) : Fragment :=
  let segOffset := segIndex * splitThreshold % 2 ^ 32
  let segSize := min splitThreshold ((data.length + 2 ^ 32 - segOffset) % 2 ^ 32)
  { msgId
    totalLength := data.length
    offset := segOffset
    payload := (data.drop segOffset).take segSize }

def splitSend (msgId : MessageId) (data : List UInt8) (splitThreshold : Nat) : List Fragment :=
  (range (estimateFragmentNum splitThreshold data.length)).map (buildFragment msgId data splitThreshold)

/-! ## The receiver -/

inductive SpliceError where
  | splitInvalidMsg
  | newObjectFailed
  | prepareTimerFailed
  | serError

inductive SpliceResult where
  | ok (message : List UInt8)
  | indeterminate
  | error (result : SpliceError)

/-- What becomes of the timer of a new message. -/
inductive SpliceTimer where
  | callbackFails
  | prepareFails
  | prepared

/-- What the rest of the channel does in a call: the timer of a new message, and whether the timer
has just been taken by the timeout thread when a message is complete. -/
structure SpliceEnv where
  timer : SpliceTimer
  timedOut : Bool

/-- `memcpy_s` clears a destination that is too small for the source: all that is known is that it
stays in the destination. -/
structure Securec where
  cleared : List UInt8 → List UInt8
  length_cleared : ∀ dest, (cleared dest).length = dest.length

/-- An incomplete message; `accepted` are the fragments that were copied into its buffer. -/
structure IncompleteMsg where
  buffer : List UInt8
  accepted : List Fragment

/-- A range of a buffer that `memcpy_s` is let write. -/
structure BufferWrite where
  offset : Nat
  length : Nat
  bufferSize : Nat

/-- A message that was returned with OK, and the fragments accepted for it. -/
structure Delivery where
  msgId : MessageId
  message : List UInt8
  accepted : List Fragment
  deriving DecidableEq

/-- `mMsgReceived`, and what has been written and returned so far. -/
structure Splicer where
  received : MessageId → Option IncompleteMsg
  writes : List BufferWrite
  delivered : List Delivery

namespace Splicer

def initial : Splicer where
  received := fun _ => none
  writes := []
  delivered := []

def set (splicer : Splicer) (msgId : MessageId) (entry : Option IncompleteMsg) : Splicer :=
  { splicer with received := update splicer.received msgId entry }

def logWrite (splicer : Splicer) (fragment : Fragment) (length bufferSize : Nat) : Splicer :=
  { splicer with writes := ⟨fragment.offset, length, bufferSize⟩ :: splicer.writes }

/-- The entry of the fragment's message: a first fragment makes it, the others find it. -/
def openMessage (splicer : Splicer) (env : SpliceEnv) (fragment : Fragment) : Except SpliceError IncompleteMsg :=
  match splicer.received fragment.msgId with
  | some incomplete => if fragment.offset = 0 then .error .serError else .ok incomplete
  | none =>
    if fragment.offset = 0 then
      match env.timer with
      | .callbackFails => .error .newObjectFailed
      | .prepareFails => .error .prepareTimerFailed
      | .prepared => .ok ⟨replicate fragment.totalLength 0, []⟩
    else .error .serError

variable (securec : Securec)

/-- Copy the fragment into the buffer of its entry. -/
def putFragment (splicer : Splicer) (env : SpliceEnv) (fragment : Fragment) (incomplete : IncompleteMsg) :
    Splicer × SpliceResult :=
  let size := incomplete.buffer.length
  if fragment.offset > size then (splicer, .error .splitInvalidMsg)
  else if size - fragment.offset = 0 ∨ fragment.payload.length > size - fragment.offset then
    let buffer := incomplete.buffer.take fragment.offset ++ securec.cleared (incomplete.buffer.drop fragment.offset)
    ((splicer.set fragment.msgId (some { incomplete with buffer })).logWrite fragment (size - fragment.offset) size,
      .error .splitInvalidMsg)
  else
    let buffer := overwrite incomplete.buffer fragment.offset fragment.payload
    let accepted := incomplete.accepted ++ [fragment]
    let splicer := splicer.logWrite fragment fragment.payload.length size
    if fragment.offset + fragment.payload.length = fragment.totalLength then
      -- the text is moved out; where the timeout thread has the timer, it also has the entry to erase
      ({ splicer.set fragment.msgId (if env.timedOut then some ⟨[], []⟩ else none) with
          delivered := ⟨fragment.msgId, buffer, accepted⟩ :: splicer.delivered },
        .ok buffer)
    else (splicer.set fragment.msgId (some ⟨buffer, accepted⟩), .indeterminate)

/-- `none` stands for no message at all and for one that is too short for a header. -/
def spliceMessage (splicer : Splicer) (env : SpliceEnv) : Option Fragment → Splicer × SpliceResult
  | none => (splicer, .error .splitInvalidMsg)
  | some fragment =>
    if fragment.totalLength ≥ maxTotalLength then (splicer, .error .splitInvalidMsg)
    else
      match splicer.openMessage env fragment with
      | .error result => (splicer, .error result)
      | .ok incomplete => putFragment securec (splicer.set fragment.msgId (some incomplete)) env fragment incomplete

/-- The results for fragments that come one after the other. -/
def feed (splicer : Splicer) (env : SpliceEnv) : List Fragment → List SpliceResult
  | [] => []
  | fragment :: rest =>
    let spliced := splicer.spliceMessage securec env (some fragment)
    spliced.2 :: feed spliced.1 env rest

end Splicer

/-- A message arrives, or the timeout thread erases an entry. -/
inductive SpliceEvent where
  | message (env : SpliceEnv) (message : Option Fragment)
  | expire (msgId : MessageId)

namespace Splicer

variable (securec : Securec)

variable (splicer : Splicer)

def step : SpliceEvent → Splicer
  | .message env message => (splicer.spliceMessage securec env message).1
  | .expire msgId => splicer.set msgId none

/-! ## What is to hold -/

/-- The byte at `place` is that of one of the fragments, which has the message's id. -/
def SuppliedAt (fragments : List Fragment) (msgId : MessageId) (bytes : List UInt8) (place : Nat) : Prop :=
  ∃ fragment ∈ fragments,
    fragment.msgId = msgId ∧ fragment.Covers place ∧ bytes[place]? = fragment.payload[place - fragment.offset]?

instance (fragments : List Fragment) (msgId : MessageId) (bytes : List UInt8) (place : Nat) :
    Decidable (SuppliedAt fragments msgId bytes place) := inferInstanceAs (Decidable (∃ fragment ∈ fragments, _))

def InBounds : Prop :=
  ∀ write ∈ splicer.writes, write.offset + write.length ≤ write.bufferSize

def Supplied : Prop :=
  ∀ delivery ∈ splicer.delivered, ∀ place < delivery.message.length,
    SuppliedAt delivery.accepted delivery.msgId delivery.message place

/-- A later fragment of a message does not run over the end of its buffer, and if it ends at its
total length, no place of the buffer is left out by it and the accepted ones. -/
def NoGap : SpliceEvent → Prop
  | .message _ (some fragment) =>
    ∀ incomplete ∈ splicer.received fragment.msgId, fragment.offset ≠ 0 →
      (incomplete.buffer.length ≤ fragment.offset ∨
        fragment.offset + fragment.payload.length ≤ incomplete.buffer.length) ∧
      (fragment.offset + fragment.payload.length = fragment.totalLength →
        ∀ place < incomplete.buffer.length,
          fragment.Covers place ∨ ∃ earlier ∈ incomplete.accepted, earlier.Covers place)
  | .message _ none | .expire _ => True

instance (event : SpliceEvent) : Decidable (splicer.NoGap event) :=
  match event with
  | .message _ (some fragment) => inferInstanceAs (Decidable (∀ incomplete ∈ splicer.received fragment.msgId, _))
  | .message _ none | .expire _ => .isTrue trivial

/-! ## One call -/

variable {securec} {splicer} {env : SpliceEnv} {fragment : Fragment} {incomplete : IncompleteMsg}

theorem spliceMessage_ok (securec : Securec) (short : fragment.totalLength < maxTotalLength)
    (opened : splicer.openMessage env fragment = .ok incomplete) : splicer.spliceMessage securec env fragment =
      putFragment securec (splicer.set fragment.msgId (some incomplete)) env fragment incomplete := by
  simp only [spliceMessage, if_neg (Nat.not_le.mpr short), opened]

/-- A call fails at once, or it puts a fragment into an entry it has found or made. -/
theorem spliceMessage_cases (securec : Securec) (splicer : Splicer) (env : SpliceEnv) (message : Option Fragment) :
    (∃ result, splicer.spliceMessage securec env message = (splicer, .error result)) ∨
    ∃ fragment incomplete, message = some fragment ∧ splicer.openMessage env fragment = .ok incomplete ∧
      splicer.spliceMessage securec env message =
        putFragment securec (splicer.set fragment.msgId (some incomplete)) env fragment incomplete := by
  cases message with
  | none => exact .inl ⟨_, rfl⟩
  | some fragment =>
    by_cases long : fragment.totalLength ≥ maxTotalLength
    · exact .inl ⟨_, if_pos long⟩
    · cases opened : splicer.openMessage env fragment with
      | error result => exact .inl ⟨result, by simp only [spliceMessage, if_neg long, opened]⟩
      | ok incomplete => exact .inr ⟨fragment, incomplete, rfl, opened, spliceMessage_ok securec (by omega) opened⟩

theorem openMessage_ok (opened : splicer.openMessage env fragment = .ok incomplete) :
    (fragment.offset ≠ 0 ∧ splicer.received fragment.msgId = some incomplete) ∨
      (fragment.offset = 0 ∧ incomplete = ⟨replicate fragment.totalLength 0, []⟩) := by
  unfold openMessage at opened
  cases entry : splicer.received fragment.msgId with
  | some found =>
    by_cases first : fragment.offset = 0
    · simp [entry, first] at opened
    · simp only [entry, if_neg first, Except.ok.injEq] at opened
      exact .inl ⟨first, congrArg some opened⟩
  | none =>
    by_cases first : fragment.offset = 0
    · cases timer : env.timer with
      | callbackFails | prepareFails => simp [entry, first, timer] at opened
      | prepared =>
        simp only [entry, if_pos first, timer, Except.ok.injEq] at opened
        exact .inr ⟨first, opened.symm⟩
    · simp [entry, first] at opened

/-! ## Writes stay in the buffer -/

theorem InBounds.logWrite (bounded : splicer.InBounds) {length bufferSize : Nat}
    (fits : fragment.offset + length ≤ bufferSize) : (splicer.logWrite fragment length bufferSize).InBounds :=
  forall_mem_cons.mpr ⟨fits, bounded⟩

theorem InBounds.putFragment (bounded : splicer.InBounds) :
    (putFragment securec splicer env fragment incomplete).1.InBounds := by
  simp only [Splicer.putFragment]
  split
  · exact bounded
  split
  · exact @InBounds.logWrite (splicer.set _ _) fragment bounded _ incomplete.buffer.length (by omega)
  have fits : fragment.offset + fragment.payload.length ≤ incomplete.buffer.length := by omega
  split
  · exact bounded.logWrite fits
  · exact bounded.logWrite fits

theorem InBounds.step (bounded : splicer.InBounds) {event : SpliceEvent} : (splicer.step securec event).InBounds := by
  cases event with
  | expire msgId => exact bounded
  | message env message =>
    rw [Splicer.step]
    obtain ⟨result, equation⟩ | ⟨fragment, incomplete, -, -, equation⟩ :=
      spliceMessage_cases securec splicer env message
    · rwa [equation]
    · rw [equation]
      exact @InBounds.putFragment _ (splicer.set _ _) _ _ _ bounded

/-! ## Bytes come from fragments -/

/-- Every place of the buffer that an accepted fragment covers has the byte of one of them. -/
def EntrySound (msgId : MessageId) (incomplete : IncompleteMsg) : Prop :=
  ∀ place, ∀ earlier ∈ incomplete.accepted, earlier.Covers place →
    SuppliedAt incomplete.accepted msgId incomplete.buffer place

structure Sound (splicer : Splicer) : Prop where
  entries : ∀ msgId, ∀ incomplete ∈ splicer.received msgId, EntrySound msgId incomplete
  supplied : splicer.Supplied

theorem entrySound_fresh {msgId : MessageId} {buffer : List UInt8} : EntrySound msgId ⟨buffer, []⟩ := nofun

theorem EntrySound.accept (sound : EntrySound fragment.msgId incomplete)
    (fits : fragment.offset + fragment.payload.length ≤ incomplete.buffer.length) :
    EntrySound fragment.msgId
      ⟨overwrite incomplete.buffer fragment.offset fragment.payload, incomplete.accepted ++ [fragment]⟩ := by
  intro place earlier listed covers
  by_cases covered : fragment.Covers place
  · refine ⟨fragment, mem_append_right _ (mem_singleton_self _), rfl, covered, ?_⟩
    exact (getElem?_overwrite fits).trans (if_pos covered)
  · -- the byte is the one that was there, so an earlier fragment has it
    rcases mem_append.mp listed with before | isThis
    · obtain ⟨supplier, mem, sameId, supplies, byte⟩ := sound place earlier before covers
      refine ⟨supplier, mem_append_left _ mem, sameId, supplies, ?_⟩
      exact ((getElem?_overwrite fits).trans (if_neg covered)).trans byte
    · exact absurd (mem_singleton.mp isThis ▸ covers) covered

theorem Sound.set {msgId : MessageId} {entry : Option IncompleteMsg} (sound : splicer.Sound)
    (entrySound : ∀ incomplete ∈ entry, EntrySound msgId incomplete) : (splicer.set msgId entry).Sound where
  entries := forall_update_iff splicer.received
    (p := fun msgId entry => ∀ incomplete ∈ entry, EntrySound msgId incomplete)
    |>.mpr ⟨entrySound, fun other _ => sound.entries other⟩
  supplied := sound.supplied

theorem Sound.logWrite {length bufferSize : Nat} (sound : splicer.Sound) :
    (splicer.logWrite fragment length bufferSize).Sound := ⟨sound.entries, sound.supplied⟩

theorem Sound.deliver {delivery : Delivery} (sound : splicer.Sound) (whole : ∀ place < delivery.message.length,
      SuppliedAt delivery.accepted delivery.msgId delivery.message place) :
    Sound { splicer with delivered := delivery :: splicer.delivered } :=
  ⟨sound.entries, forall_mem_cons.mpr ⟨whole, sound.supplied⟩⟩

/-- The part of the condition that is about the entry. -/
def FillsGap (fragment : Fragment) (incomplete : IncompleteMsg) : Prop :=
  (incomplete.accepted = [] ∨ incomplete.buffer.length ≤ fragment.offset ∨
    fragment.offset + fragment.payload.length ≤ incomplete.buffer.length) ∧
  (fragment.offset + fragment.payload.length = fragment.totalLength →
    ∀ place < incomplete.buffer.length,
      fragment.Covers place ∨ ∃ earlier ∈ incomplete.accepted, earlier.Covers place)

theorem Sound.putFragment (sound : splicer.Sound) (entrySound : EntrySound fragment.msgId incomplete)
    (noGap : FillsGap fragment incomplete) : (putFragment securec splicer env fragment incomplete).1.Sound := by
  simp only [Splicer.putFragment]
  split
  · exact sound
  split
  next =>
    refine Sound.logWrite (sound.set fun _ same => ?_)
    cases same
    rcases noGap.1 with fresh | fits
    · rw [fresh]
      exact entrySound_fresh
    · -- there was no room at all, and nothing is cleared
      have behind : incomplete.buffer.length ≤ fragment.offset := by omega
      have noRoom : securec.cleared (incomplete.buffer.drop fragment.offset) = [] :=
        eq_nil_of_length_eq_zero (by rw [securec.length_cleared, length_drop]; omega)
      rwa [noRoom, append_nil, take_of_length_le behind]
  next =>
    have fits : fragment.offset + fragment.payload.length ≤ incomplete.buffer.length := by omega
    have accepted := entrySound.accept fits
    split
    next completes =>
      refine Sound.deliver (sound.logWrite.set ?_) fun place inside => ?_
      · intro left same
        split at same
        · cases same
          exact entrySound_fresh
        · cases same
      · rw [length_overwrite fits] at inside
        rcases noGap.2 completes place inside with this | ⟨earlier, listed, covers⟩
        · exact accepted place fragment (mem_append_right _ (mem_singleton_self _)) this
        · exact accepted place earlier (mem_append_left _ listed) covers
    next =>
      refine sound.logWrite.set fun _ same => ?_
      cases same
      exact accepted

/-- The first fragment of a message leaves no gap if it completes the message. -/
theorem fillsGap_first (first : fragment.offset = 0) :
    FillsGap fragment ⟨replicate fragment.totalLength 0, []⟩ := by
  refine ⟨.inl rfl, fun completes place inside => .inl ⟨by omega, ?_⟩⟩
  rw [length_replicate] at inside
  omega

theorem Sound.step (sound : splicer.Sound) {event : SpliceEvent} (noGap : splicer.NoGap event) :
    (splicer.step securec event).Sound := by
  cases event with
  | expire msgId => exact sound.set nofun
  | message env message =>
    rw [Splicer.step]
    obtain ⟨result, equation⟩ | ⟨fragment, incomplete, rfl, opened, equation⟩ :=
      spliceMessage_cases securec splicer env message
    · rwa [equation]
    · rw [equation]
      rcases openMessage_ok opened with ⟨later, found⟩ | ⟨first, rfl⟩
      · have entrySound := sound.entries _ incomplete found
        have fills := noGap incomplete found later
        exact (sound.set fun _ same => by cases same; exact entrySound).putFragment entrySound ⟨.inr fills.1, fills.2⟩
      · refine (sound.set fun _ same => ?_).putFragment entrySound_fresh (fillsGap_first first)
        cases same
        exact entrySound_fresh

theorem sound_initial : initial.Sound := ⟨nofun, nofun⟩

/-! ## A message split and put together again -/

section RoundTrip

variable {msgId : MessageId} {data : List UInt8} {splitThreshold segIndex : Nat}

/-- The buffer when the bytes before `filled` have arrived. -/
def partlyFilled (data : List UInt8) (filled : Nat) : List UInt8 :=
  data.take filled ++ replicate (data.length - filled) 0

theorem length_partlyFilled {data : List UInt8} {filled : Nat} : (partlyFilled data filled).length = data.length := by
  simp only [partlyFilled, length_append, length_take, length_replicate]
  omega

theorem partlyFilled_length {data : List UInt8} : partlyFilled data data.length = data := by
  rw [partlyFilled, take_length, Nat.sub_self, replicate_zero, append_nil]

theorem overwrite_partlyFilled {filled count : Nat} (inside : filled + count ≤ data.length) :
    overwrite (partlyFilled data filled) filled ((data.drop filled).take count) =
      partlyFilled data (filled + count) := by
  have taken : (data.take filled).length = filled := length_take_of_le (by omega)
  have supplied : ((data.drop filled).take count).length = count :=
    length_take_of_le (by rw [length_drop]; omega)
  rw [overwrite, partlyFilled, take_left' taken, ← take_add, drop_append, drop_eq_nil_of_le (by omega), nil_append,
    drop_replicate]
  congr 2
  omega

theorem estimateFragmentNum_spec {size : Nat} (pos : 0 < splitThreshold) (notEmpty : 0 < size)
    (small : size < maxTotalLength) (segIndex : Nat) :
    segIndex < estimateFragmentNum splitThreshold size ↔ segIndex * splitThreshold < size := by
  unfold estimateFragmentNum
  unfold maxTotalLength at small
  split
  next whole =>
    subst whole
    omega
  next =>
    rw [Nat.lt_iff_add_one_le, Nat.le_div_iff_mul_le pos, Nat.succ_mul]
    omega

theorem buildFragment_eq (msgId : MessageId) (small : data.length < maxTotalLength)
    (inside : segIndex * splitThreshold < data.length) :
    buildFragment msgId data splitThreshold segIndex =
      { msgId
        totalLength := data.length
        offset := segIndex * splitThreshold
        payload := (data.drop (segIndex * splitThreshold)).take
          (min splitThreshold (data.length - segIndex * splitThreshold)) } := by
  unfold maxTotalLength at small
  have offset : segIndex * splitThreshold % 2 ^ 32 = segIndex * splitThreshold := Nat.mod_eq_of_lt (by omega)
  have size : (data.length + 2 ^ 32 - segIndex * splitThreshold) % 2 ^ 32 =
      data.length - segIndex * splitThreshold := by
    omega
  simp only [buildFragment, offset, size]

/-- The receiver has, or will make, the buffer with what the fragments before this one supply. -/
def Expects (splicer : Splicer) (env : SpliceEnv) (msgId : MessageId) (data : List UInt8)
    (splitThreshold segIndex : Nat) :
    Prop :=
  ∃ accepted, splicer.openMessage env (buildFragment msgId data splitThreshold segIndex) =
    .ok ⟨partlyFilled data (segIndex * splitThreshold), accepted⟩

theorem expects_first (prepared : env.timer = .prepared) (fresh : splicer.received msgId = none) :
    splicer.Expects env msgId data splitThreshold 0 := by
  refine ⟨[], ?_⟩
  simp [openMessage, buildFragment, fresh, prepared, partlyFilled]

/-- A fragment in its turn: the last one completes the message, and any other is followed by the
next. -/
theorem spliceMessage_buildFragment (securec : Securec) (pos : 0 < splitThreshold)
    (small : data.length < maxTotalLength)
    (inside : segIndex * splitThreshold < data.length)
    (expects : splicer.Expects env msgId data splitThreshold segIndex) :
    let spliced := splicer.spliceMessage securec env (some (buildFragment msgId data splitThreshold segIndex))
    if (segIndex + 1) * splitThreshold < data.length then
      spliced.2 = .indeterminate ∧ spliced.1.Expects env msgId data splitThreshold (segIndex + 1)
    else spliced.2 = .ok data := by
  obtain ⟨accepted, opened⟩ := expects
  have fragmentIs := buildFragment_eq msgId small inside
  generalize buildFragment msgId data splitThreshold segIndex = fragment at opened fragmentIs ⊢
  intro spliced
  have next : (segIndex + 1) * splitThreshold = segIndex * splitThreshold + splitThreshold := Nat.succ_mul _ _
  have length : fragment.payload.length = min splitThreshold (data.length - segIndex * splitThreshold) := by
    rw [fragmentIs, length_take_of_le (by rw [length_drop]; omega)]
  have buffer : overwrite (partlyFilled data (segIndex * splitThreshold)) fragment.offset fragment.payload =
      partlyFilled data (segIndex * splitThreshold + fragment.payload.length) := by
    rw [length, fragmentIs, overwrite_partlyFilled (by omega)]
  have offset : fragment.offset = segIndex * splitThreshold := by rw [fragmentIs]
  have total : fragment.totalLength = data.length := by rw [fragmentIs]
  have sameId : fragment.msgId = msgId := by rw [fragmentIs]
  have spliced_eq := spliceMessage_ok securec (by rwa [total]) opened
  simp only [putFragment, length_partlyFilled] at spliced_eq
  rw [if_neg (by omega), if_neg (by omega), buffer] at spliced_eq
  rw [show spliced = _ from spliced_eq]
  split
  next more =>
    rw [if_neg (by omega)]
    have filled : segIndex * splitThreshold + fragment.payload.length = (segIndex + 1) * splitThreshold := by omega
    refine ⟨rfl, accepted ++ [fragment], ?_⟩
    rw [buildFragment_eq msgId small more, filled, sameId]
    simp only [openMessage, set, update_self, if_neg (by omega : ¬ (segIndex + 1) * splitThreshold = 0)]
  next last =>
    have filled : segIndex * splitThreshold + fragment.payload.length = data.length := by omega
    rw [if_pos (by omega), filled, partlyFilled_length]

theorem feed_buildFragment (pos : 0 < splitThreshold) (small : data.length < maxTotalLength) {count : Nat}
    (inside : segIndex * splitThreshold < data.length) (more : (segIndex + count) * splitThreshold < data.length)
    (last : data.length ≤ (segIndex + count + 1) * splitThreshold)
    (expects : splicer.Expects env msgId data splitThreshold segIndex) :
    splicer.feed securec env ((range' segIndex (count + 1)).map (buildFragment msgId data splitThreshold)) =
      replicate count .indeterminate ++ [.ok data] := by
  induction count generalizing splicer segIndex with
  | zero =>
    have spliced := spliceMessage_buildFragment securec pos small inside expects
    rw [if_neg (by simpa using last)] at spliced
    rw [range'_one, map_singleton, feed, feed, spliced, replicate_zero, nil_append]
  | succ count ih =>
    have nextInside : (segIndex + 1) * splitThreshold < data.length :=
      lt_of_le_of_lt (Nat.mul_le_mul_right _ (by omega)) more
    have spliced := spliceMessage_buildFragment securec pos small inside expects
    rw [if_pos nextInside] at spliced
    rw [range'_succ, map_cons, feed, spliced.1]
    congr 1
    have shift : segIndex + 1 + count = segIndex + (count + 1) := by omega
    exact ih nextInside (by rwa [shift]) (by rwa [shift]) spliced.2

theorem feed_splitSend (prepared : env.timer = .prepared) (fresh : splicer.received msgId = none)
    (pos : 0 < splitThreshold) (notEmpty : 0 < data.length) (small : data.length < maxTotalLength) :
    splicer.feed securec env (splitSend msgId data splitThreshold) =
      replicate (estimateFragmentNum splitThreshold data.length - 1) .indeterminate ++ [.ok data] := by
  have spec := estimateFragmentNum_spec pos notEmpty small
  have some : 0 < estimateFragmentNum splitThreshold data.length := (spec 0).mpr (by omega)
  obtain ⟨count, isCount⟩ := Nat.exists_eq_add_of_lt some
  rw [Nat.zero_add] at isCount
  rw [isCount] at spec
  rw [splitSend, isCount, range_eq_range']
  refine feed_buildFragment pos small (by omega) ?_ ?_ (expects_first prepared fresh)
  · rw [Nat.zero_add]
    exact (spec count).mp (Nat.lt_succ_self _)
  · rw [Nat.zero_add]
    exact Nat.le_of_not_lt fun more => absurd ((spec (count + 1)).mpr more) (Nat.lt_irrefl _)

end RoundTrip

/-- Fragments fed in order give the message back; whatever arrives, nothing is written outside a
buffer; and where no message is completed with a gap in it, every byte returned is from a fragment. -/
theorem splice_right (securec : Securec) :
    (∀ (splicer : Splicer) (env : SpliceEnv) (msgId : MessageId) (data : List UInt8) (splitThreshold : Nat),
      env.timer = .prepared → splicer.received msgId = none → 0 < splitThreshold → 0 < data.length →
      data.length < maxTotalLength →
      splicer.feed securec env (splitSend msgId data splitThreshold) =
        replicate (estimateFragmentNum splitThreshold data.length - 1) .indeterminate ++ [.ok data]) ∧
    (∀ splicer, Run (step securec) (fun _ _ => True) initial splicer → splicer.InBounds) ∧
    (∀ splicer, Run (step securec) NoGap initial splicer → splicer.Supplied) := by
  refine ⟨fun splicer env msgId data splitThreshold => feed_splitSend, fun splicer run => ?_, fun splicer run => ?_⟩
  · exact run.invariant (motive := InBounds) nofun fun _ event bounded _ => bounded.step
  · exact (run.invariant (motive := Sound) sound_initial fun _ event sound noGap => sound.step noGap).supplied

/-- A `memcpy_s` that fills a destination that is too small with zeros. -/
def zeroing : Securec where
  cleared dest := replicate dest.length 0
  length_cleared _ := length_replicate

/-- The first fragment of ten bytes, and the last. -/
def firstFour : Fragment := ⟨⟨1, 7⟩, 10, 0, [1, 2, 3, 4]⟩

def lastFour : Fragment := ⟨⟨1, 7⟩, 10, 6, [7, 8, 9, 10]⟩

def middleTwo : Fragment := ⟨⟨1, 7⟩, 10, 4, [5, 6]⟩

def arrivals (fragments : List Fragment) : List SpliceEvent :=
  fragments.map fun fragment => .message ⟨.prepared, false⟩ fragment

theorem splice_right_tenBytes :
    (initial.feed zeroing ⟨.prepared, false⟩ (splitSend ⟨1, 7⟩ [1, 2, 3, 4, 5, 6, 7, 8, 9, 10] 4) =
      [.indeterminate, .indeterminate, .ok [1, 2, 3, 4, 5, 6, 7, 8, 9, 10]]) ∧
    ∃ splicer, Run (step zeroing) NoGap initial splicer ∧ splicer.delivered ≠ [] ∧ splicer.Supplied ∧
      splicer.InBounds := by
  have run :
      Run (step zeroing) NoGap initial ((arrivals [firstFour, middleTwo, lastFour]).foldl (step zeroing) initial) :=
    .ofList (by decide)
  have anyRun : Run (step zeroing) (fun _ _ => True) initial
      ((arrivals [firstFour, middleTwo, lastFour]).foldl (step zeroing) initial) := .ofList (by decide)
  refine ⟨?_, _, run, by decide, (splice_right zeroing).2.2 _ run, (splice_right zeroing).2.1 _ anyRun⟩
  exact (splice_right zeroing).1 initial ⟨.prepared, false⟩ ⟨1, 7⟩ _ 4 rfl rfl (by decide) (by decide) (by decide)

/-- With the fragment in the middle lost, the last one completes the message, and two bytes of it
are not from any fragment. -/
theorem middleLost_completes :
    ∃ splicer, Run (step zeroing) (fun _ _ => True) initial splicer ∧
      splicer.delivered = [⟨⟨1, 7⟩, [1, 2, 3, 4, 0, 0, 7, 8, 9, 10], [firstFour, lastFour]⟩] ∧ ¬ splicer.Supplied := by
  refine ⟨(arrivals [firstFour, lastFour]).foldl (step zeroing) initial, .ofList (by decide), by decide,
    fun supplied => ?_⟩
  exact absurd (supplied ⟨⟨1, 7⟩, [1, 2, 3, 4, 0, 0, 7, 8, 9, 10], [firstFour, lastFour]⟩ (by decide) 4 (by decide))
    (by decide)

/-! ## Several messages at once -/

def about (msgId : MessageId) : SpliceEvent → Bool
  | .message _ (some fragment) => fragment.msgId = msgId
  | .message _ none => false
  | .expire expired => expired = msgId

def answersTo (securec : Securec) (msgId : MessageId) (splicer : Splicer) : List SpliceEvent → List SpliceResult
  | [] => []
  | event :: events =>
    let answers := answersTo securec msgId (splicer.step securec event) events
    match event with
    | .message env (some fragment) =>
      if fragment.msgId = msgId then (splicer.spliceMessage securec env fragment).2 :: answers else answers
    | .message _ none | .expire _ => answers

section Isolation

variable {other : Splicer} {msgId : MessageId}

theorem received_spliceMessage_of_ne (ne : msgId ≠ fragment.msgId) :
    (splicer.spliceMessage securec env fragment).1.received msgId = splicer.received msgId := by
  obtain ⟨result, failed⟩ | ⟨_, incomplete, is, -, put⟩ := spliceMessage_cases securec splicer env fragment
  · rw [failed]
  · cases is
    rw [put, putFragment]
    dsimp only
    split_ifs <;> simp [set, logWrite, ne]

theorem spliceMessage_local (same : other.received fragment.msgId = splicer.received fragment.msgId) :
    (other.spliceMessage securec env fragment).2 = (splicer.spliceMessage securec env fragment).2 ∧
      (other.spliceMessage securec env fragment).1.received fragment.msgId =
        (splicer.spliceMessage securec env fragment).1.received fragment.msgId := by
  have opens : other.openMessage env fragment = splicer.openMessage env fragment := by
    rw [openMessage, same, openMessage]
  rw [spliceMessage, spliceMessage, opens]
  split_ifs
  · exact ⟨rfl, same⟩
  · cases splicer.openMessage env fragment with
    | error failed => exact ⟨rfl, same⟩
    | ok incomplete =>
      dsimp only [putFragment]
      split_ifs <;> simp [set, logWrite]

/-- A message has the same answers from receivers with the same entry for it, if one gets nothing else. -/
theorem answersTo_eq {events : List SpliceEvent} (same : other.received msgId = splicer.received msgId) :
    other.answersTo securec msgId (events.filter (about msgId)) = splicer.answersTo securec msgId events := by
  induction events generalizing splicer other with
  | nil => rfl
  | cons event events ih =>
    cases event with
    | expire expired =>
      by_cases mine : expired = msgId
      · rw [filter_cons_of_pos (by simp [about, mine])]
        exact ih (by simp [step, set, mine])
      · rw [filter_cons_of_neg (by simp [about, mine])]
        exact ih (by simp [step, set, same, Ne.symm mine])
    | message env message =>
      cases message with
      | none => exact ih same
      | some fragment =>
        by_cases mine : fragment.msgId = msgId
        · subst mine
          have alike := @spliceMessage_local securec splicer env fragment other same
          rw [filter_cons_of_pos (by simp [about]), answersTo, answersTo]
          simp only [if_true, alike.1]
          exact congrArg _ (ih alike.2)
        · rw [filter_cons_of_neg (by simp [about, mine]), answersTo]
          simp only [mine, if_false]
          exact ih (same.trans (received_spliceMessage_of_ne (Ne.symm mine)).symm)

end Isolation

/-- Whatever else arrives or expires in between, the fragments of a message are answered as if it were the only one. -/
theorem answersTo_isolated (securec : Securec) (msgId : MessageId) (splicer : Splicer) (events : List SpliceEvent) :
    splicer.answersTo securec msgId events = splicer.answersTo securec msgId (events.filter (about msgId)) :=
  (answersTo_eq rfl).symm

end Splicer

end UbsComm.Service
