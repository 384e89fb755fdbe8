import UbsComm.Urma.SendRingRight
import Mathlib.Data.Fintype.Basic

/-! # Waiting for room in the send ring

Writers that find the send ring of a socket full clear the socket's `EPOLLOUT` bit, look once more and
then wait, for epoll or in `WaitBlockingSignal`.  The completion handlers release room and tell the
writers, each in a way of its own.  An interleaving takes one step of one writer, of one handler
or of the thread in `EpollWait` at a time; a writer holds the block it was granted until its post has returned.
Interest with `EPOLLONESHOT` is left out. -/

namespace UbsComm.Urma

open Library Function List

/-- What a handler tells after its release: `NotifyWritable` or `NotifyBlockingWritable`. -/
inductive Notice where
  | writable
  | blockingWritable
  deriving DecidableEq

/-- The completions that release room of the ring. -/
inductive Completion where
  | inBandAck
  | postWrite
  /-- A control message has completed, or its post has failed. -/
  | ctrlOnlyFinished

def Completion.notices : Completion → List Notice
  | .inBandAck => [.writable, .blockingWritable]
  | .postWrite => [.blockingWritable]
  | .ctrlOnlyFinished => []

/-! ## What is asked of the ring -/

/-- The calls of `WriteInline`, `WriteZeroCopy` and `PostCtrlOnlyNotification`. -/
inductive WriteRequest where
  | inBand (total : UInt32)
  | zeroCopy (validCount : UInt32)
  | ctrlOnly

/-- Sizes of `UrmaMessageHead` and `PageBufferInMessage`. -/
def sizeofMessageHead : Nat := 48
def sizeofPageBuffer : Nat := 16

/-- The bytes in whole units of `UBS_SND_BUFF_ALLOC_UNIT`. -/
def roundUnit (unit bytes : Nat) : Nat := (bytes + unit - 1) / unit * unit

namespace WriteRequest

variable (unit : Nat)

def least : WriteRequest → Nat
  | .inBand _ => sizeofMessageHead + 1
  | .zeroCopy validCount => sizeofMessageHead + validCount.toNat * sizeofPageBuffer
  | .ctrlOnly => sizeofMessageHead

def most : WriteRequest → Nat
  | .inBand total => sizeofMessageHead + total.toNat
  | request => request.least

/-- Below this the request is refused. -/
def need (request : WriteRequest) : Nat := roundUnit unit request.least

def call (request : WriteRequest) : RingCall :=
  match request with
  | .zeroCopy _ => .allocate (.ofNat _ (request.need unit))
  | .inBand _ | .ctrlOnly => .allocateRange (.ofNat _ (request.need unit)) (.ofNat _ (roundUnit unit request.most))

def completion : WriteRequest → Completion
  | .inBand _ => .inBandAck
  | .zeroCopy _ => .postWrite
  | .ctrlOnly => .ctrlOnlyFinished

end WriteRequest

namespace SendRing

/-- The block that the call is granted. -/
def grantedBy (ring : SendRing) (call : RingCall) : Option LiveBlock :=
  if (ring.step call).live.length = ring.live.length then none else (ring.step call).live.head?

/-- `Release` of the block. -/
def free (ring : SendRing) (block : LiveBlock) : SendRing := ring.step (.release (ring.live.idxOf block))

variable {unit bytes : Nat} {ring : SendRing} {request : WriteRequest}

theorem roundUnit_bounds (pos : 0 < unit) (some : 0 < bytes) :
    unit ≤ roundUnit unit bytes ∧ roundUnit unit bytes < bytes + unit := by
  have quotient : 0 < (bytes + unit - 1) / unit := Nat.div_pos (by omega) pos
  have less := Nat.div_mul_le_self (bytes + unit - 1) unit
  exact ⟨Nat.le_mul_of_pos_left unit quotient, Nat.lt_of_le_of_lt less (by omega)⟩

theorem request_sizes (request : WriteRequest) : 0 < request.least ∧ 0 < request.most ∧
    request.least < 2 ^ 37 ∧ request.most < 2 ^ 37 := by
  cases request with
  | inBand value | zeroCopy value =>
    have small := value.toNat_lt
    simp only [WriteRequest.least, WriteRequest.most, sizeofMessageHead, sizeofPageBuffer]
    omega
  | ctrlOnly => decide

theorem granted_none {call : RingCall} {buf : UrmaSockContinuousBuf} {granted : Option (Nat × Nat)}
    (same : ring.step call = ring.report call buf granted) (refused : ring.grantedBy call = none) : granted = none := by
  cases granted with
  | none => rfl
  | some => simp [grantedBy, same, report] at refused

theorem Inv.free (inv : ring.Inv) {block : LiveBlock} : (ring.free block).Inv :=
  inv.step (show ring.Careful (.release _) from trivial)

variable (inv : ring.Inv) (careful : ring.Careful (request.call unit))
include inv careful

/-- A request does not add room. -/
theorem Inv.request_available : (ring.step (request.call unit)).available ≤ ring.available := by
  have after := inv.step careful
  cases request with
  | zeroCopy => exact inv.available_le after (inv.allocate careful)
  | inBand | ctrlOnly => exact inv.available_le after (inv.allocateRange (Fin.isLt _) careful rfl)

/-- A request that is refused finds too little room. -/
theorem Inv.request_refused (valid : 0 < unit ∧ unit < 2 ^ 32) (refused : ring.grantedBy (request.call unit) = none) :
    ring.available < request.need unit := by
  obtain ⟨leastPos, mostPos, leastSmall, mostSmall⟩ := request_sizes request
  have least : unit ≤ request.need unit ∧ request.need unit < _ := roundUnit_bounds valid.1 leastPos
  have most := roundUnit_bounds valid.1 mostPos
  have leastWord : (Fin.ofNat (2 ^ 64) (request.need unit)).val = request.need unit := Nat.mod_eq_of_lt (by omega)
  have mostWord : (Fin.ofNat (2 ^ 64) (roundUnit unit request.most)).val = roundUnit unit request.most :=
    Nat.mod_eq_of_lt (by omega)
  cases request with
  | zeroCopy =>
    have allocated := inv.allocate careful
    rw [granted_none rfl refused, leastWord] at allocated
    exact inv.available_lt allocated (by omega) (by omega)
  | inBand | ctrlOnly =>
    have allocated := inv.allocateRange (Fin.isLt _) careful rfl
    rw [granted_none rfl refused, leastWord, mostWord] at allocated
    exact inv.available_lt allocated (by omega) (by omega)

end SendRing

/-! ## The writers and the handlers -/

inductive WriterPhase where
  | running
  /-- The ring has granted the block, the post is to come. -/
  | posting (block : LiveBlock)
  /-- Allocate failed, or the post did and its room was released. -/
  | refused
  /-- The `EPOLLOUT` bit is cleared, the second look is to come. -/
  | cleared
  /-- EAGAIN was returned, the caller waits for `EPOLLOUT`. -/
  | epollWaiting
  /-- In `WaitBlockingSignal`. -/
  | blocked
  deriving DecidableEq

def WriterPhase.granted : WriterPhase → Option LiveBlock
  | .posting block => some block
  | .running | .refused | .cleared | .epollWaiting | .blocked => none

/-- One writer: what it writes, and whether its `BlockingWaiter` is registered. -/
structure RingWriter where
  phase : WriterPhase
  request : WriteRequest
  registered : Bool

namespace RingWriter

variable (writer : RingWriter) (unit available : Nat)

/-- The writer waits for `EPOLLOUT` although there is room for it. -/
abbrev WaitsForEpoll : Prop := writer.phase = .epollWaiting ∧ writer.request.need unit ≤ available

/-- The writer is blocked, or may block again before its call ends. -/
abbrev Blocking : Prop := writer.phase = .blocked ∨ writer.registered = true

/-- The writer is blocked, or will be before its next try, although there is room for it. -/
abbrev WaitsForFlag : Prop :=
  (writer.phase = .blocked ∨ writer.registered = true ∧ (writer.phase = .refused ∨ writer.phase = .cleared)) ∧
    writer.request.need unit ≤ available

/-- The second look at the ring is to come. -/
abbrev Looks : Prop := writer.phase = .refused ∨ writer.phase = .cleared

end RingWriter

structure WritableState (Writer : Type) where
  ring : SendRing
  /-- The blocks of messages on their way, with the completion that will release them. -/
  posted : List (Completion × LiveBlock)
  /-- The `EPOLLOUT` bits of the interest and of the reached events. -/
  events : Bool
  reach : Bool
  writableReady : Bool
  /-- The eventfd's counter is not zero. -/
  eventfd : Bool
  /-- What the thread in `EpollWait` is about to report, if it is between its look at the reached
  events and its read of the eventfd. -/
  reported : Option Bool
  blockFlag : Bool
  handlers : List (List Notice)
  writer : Writer → RingWriter

inductive WritableAction (Writer : Type) where
  | allocate (writer : Writer) (request : WriteRequest)
  /-- The post succeeds; `last` if it ends the call. -/
  | post (writer : Writer) (last : Bool)
  | postFails (writer : Writer)
  | clear (writer : Writer)
  | recheck (writer : Writer)
  /-- A blocked writer that finds the flag. -/
  | signalled (writer : Writer)
  /-- The timeout of a blocked writer, or a caller that does not wait for epoll any longer. -/
  | expire (writer : Writer)
  | sendCtrl
  | release (message : Nat)
  | handle (index : Nat)
  | epollCtlMod (interest : Bool)
  | epollLook
  | epollRead

namespace WritableState

variable {Writer : Type} [DecidableEq Writer] (unit : Nat) (blocking : Writer → Bool) (edgeTriggered : Bool)

variable (state : WritableState Writer)

def setPhase (writer : Writer) (phase : WriterPhase) : WritableState Writer :=
  { state with writer := update state.writer writer { state.writer writer with phase } }

/-- `NotifyWritable`. -/
def notifyWritable : WritableState Writer :=
  if state.events then { state with reach := true, eventfd := true } else { state with writableReady := true }

def notify : Notice → WritableState Writer
  | .writable => state.notifyWritable
  | .blockingWritable => { state with blockFlag := true }

/-- `EpollCtlMod` with or without `EPOLLOUT`. -/
def epollCtlMod (interest : Bool) : WritableState Writer :=
  let ready := interest && state.writableReady
  let reach := state.reach || ready
  { state with
    events := interest, writableReady := state.writableReady && !ready, reach
    eventfd := state.eventfd || (reach && interest) }

/-- The second look of `ClearWritableIfBlocked`. -/
def refill : WritableState Writer :=
  if unit ≤ state.ring.available then state.notifyWritable else state

/-- After the second look: EAGAIN for the caller, one more try of a waiter that only now registers,
or the wait for the flag. -/
def await (writer : Writer) : WritableState Writer :=
  if !blocking writer then state.setPhase writer .epollWaiting
  else if (state.writer writer).registered then state.setPhase writer .blocked
  else
    { state with
      writer := update state.writer writer
        { state.writer writer with phase := .running, registered := true } }

/-- The eventfd is read.  A reported event reaches all callers that wait for it, and is
consumed or written again. -/
def deliver (reported : Bool) : WritableState Writer :=
  if reported then
    { state with
      reported := none, reach := state.reach && !edgeTriggered, eventfd := !edgeTriggered
      writer := fun writer =>
        if (state.writer writer).phase = .epollWaiting then { state.writer writer with phase := .running }
        else state.writer writer }
  else { state with reported := none, eventfd := false }

def step : WritableAction Writer → WritableState Writer
  | .allocate writer request =>
    if (state.writer writer).phase = .running then
      let phase := ((state.ring.grantedBy (request.call unit)).map WriterPhase.posting).getD .refused
      { state with
        ring := state.ring.step (request.call unit)
        writer := update state.writer writer { state.writer writer with phase, request } }
    else state
  | .post writer last =>
    match (state.writer writer).phase with
    | .posting block =>
      { state with
        posted := state.posted ++ [((state.writer writer).request.completion, block)]
        writer := update state.writer writer
          { state.writer writer with phase := .running, registered := (state.writer writer).registered && !last } }
    | _ => state
  | .postFails writer =>
    match (state.writer writer).phase with
    | .posting block => { state with ring := state.ring.free block }.setPhase writer .refused
    | _ => state
  | .clear writer =>
    if (state.writer writer).phase = .refused then { state with reach := false }.setPhase writer .cleared else state
  | .recheck writer =>
    if (state.writer writer).phase = .cleared then (state.refill unit).await blocking writer else state
  | .signalled writer =>
    if (state.writer writer).phase = .blocked ∧ state.blockFlag then
      { state with blockFlag := false }.setPhase writer .running
    else state
  | .expire writer =>
    if (state.writer writer).phase = .blocked ∨ (state.writer writer).phase = .epollWaiting then
      state.setPhase writer .running
    else state
  | .sendCtrl =>
    let call := WriteRequest.ctrlOnly.call unit
    { state with
      ring := state.ring.step call
      posted := state.posted ++ (state.ring.grantedBy call).toList.map (Completion.ctrlOnlyFinished, ·) }
  | .release message =>
    match state.posted[message]? with
    | none => state
    | some (completion, block) =>
      { state with
        ring := state.ring.free block, posted := state.posted.eraseIdx message
        handlers := state.handlers ++ [completion.notices] }
  | .handle index =>
    match state.handlers[index]? with
    | some (notice :: rest) => { state with handlers := state.handlers.set index rest }.notify notice
    | _ => state
  | .epollCtlMod interest => state.epollCtlMod interest
  | .epollLook =>
    if state.eventfd && state.reported.isNone then { state with reported := some (state.reach && state.events) }
    else state
  | .epollRead =>
    match state.reported with
    | some reported => state.deliver edgeTriggered reported
    | none => state

/-! ## No lost wake-up -/

/-- An `EPOLLOUT` notification is there for the next `EpollWait`, or for the next `EpollCtlMod` that asks. -/
abbrev Notified : Prop :=
  state.reach = true ∧ (state.events = true → state.eventfd = true) ∨
    state.events = false ∧ state.writableReady = true

abbrev Handles (notice : Notice) : Prop :=
  ∃ notices ∈ state.handlers, notice ∈ notices

/-- A notification is there, or a handler or a writer's second look is about to issue it. -/
def EpollWakes : Prop :=
  state.Notified ∨ state.Handles .writable ∨ ∃ writer, (state.writer writer).Looks

def FlagWakes : Prop :=
  state.blockFlag = true ∨ state.Handles .blockingWritable

/-- Nobody waits without a wake-up under way while the ring has room for them. -/
structure Right : Prop where
  epoll : ∀ writer, (state.writer writer).WaitsForEpoll unit state.ring.available → state.EpollWakes
  flag : ∀ writer, (state.writer writer).WaitsForFlag unit state.ring.available → state.FlagWakes

/-- The condition on a step.  The calls of the ring are careful, and a message is below the 16 bits that its head has
for the size.  A post fails, and a completion that does not tell the writers releases its room, only when no writer is
there for it to tell, or another handler will.  One blocking writer at a time takes the flag, and no notification came
since the thread in `EpollWait` had its look. -/
def Careful : WritableAction Writer → Prop
  | .allocate writer request => (state.writer writer).phase = .running → state.ring.Careful (request.call unit)
  | .sendCtrl => state.ring.Careful (WriteRequest.ctrlOnly.call unit)
  | .post writer _ => ∀ block ∈ (state.writer writer).phase.granted, block.size < 2 ^ 16
  | .postFails _ => ∀ writer, (state.writer writer).Blocking → state.FlagWakes
  | .release message => ∀ entry ∈ state.posted[message]?,
    (.writable ∈ entry.1.notices ∨ ∀ writer, (state.writer writer).phase = .epollWaiting → state.EpollWakes) ∧
      (.blockingWritable ∈ entry.1.notices ∨ ∀ writer, (state.writer writer).Blocking → state.FlagWakes)
  | .signalled writer => ∀ other, other ≠ writer → (state.writer other).Blocking → state.Handles .blockingWritable
  | .epollRead => state.reported = some false → ¬ (state.reach = true ∧ state.events = true)
  | .clear _ | .recheck _ | .expire _ | .handle _ | .epollCtlMod _ | .epollLook => True

structure Inv : Prop extends Right unit state where
  ring : state.ring.Inv

variable {unit blocking edgeTriggered} {state after : WritableState Writer}

omit [DecidableEq Writer] in
/-- Nobody new waits, and the wake-ups under way stay under way. -/
theorem Inv.mono (inv : state.Inv unit) (ring : after.ring.Inv)
    (epollWaiters : ∀ writer, (after.writer writer).WaitsForEpoll unit after.ring.available →
      (state.writer writer).WaitsForEpoll unit state.ring.available ∨ after.EpollWakes)
    (flagWaiters : ∀ writer, (after.writer writer).WaitsForFlag unit after.ring.available →
      (state.writer writer).WaitsForFlag unit state.ring.available ∨ after.FlagWakes)
    (epollWakes : state.EpollWakes → after.EpollWakes) (flagWakes : state.FlagWakes → after.FlagWakes) :
    after.Inv unit where
  epoll writer waits := (epollWaiters writer waits).elim (fun before => epollWakes (inv.epoll writer before)) id
  flag writer waits := (flagWaiters writer waits).elim (fun before => flagWakes (inv.flag writer before)) id
  ring := ring

variable {writer : Writer} {changed : RingWriter}

/-- A step of one writer that does not add room. -/
theorem Inv.own (inv : state.Inv unit) (ring : after.ring.Inv)
    (writers : after.writer = update state.writer writer changed) (room : after.ring.available ≤ state.ring.available)
    (epollWaiter : changed.WaitsForEpoll unit after.ring.available → after.EpollWakes)
    (flagWaiter : changed.WaitsForFlag unit after.ring.available →
      (state.writer writer).WaitsForFlag unit state.ring.available ∨ after.FlagWakes)
    (epollWakes : state.EpollWakes → after.EpollWakes) (flagWakes : state.FlagWakes → after.FlagWakes) :
    after.Inv unit := by
  refine inv.mono ring (fun other waits => ?_) (fun other waits => ?_) epollWakes flagWakes
  · rw [writers, update_apply] at waits
    split at waits
    · exact .inr (epollWaiter waits)
    · exact .inl ⟨waits.1, waits.2.trans room⟩
  · rw [writers, update_apply] at waits
    split at waits
    · rename_i same
      exact same ▸ flagWaiter waits
    · exact .inl ⟨waits.1, waits.2.trans room⟩

/-- The second look of another writer stays to come. -/
theorem looks_of_update (writers : after.writer = update state.writer writer changed)
    (done : ¬ (state.writer writer).Looks) (looks : ∃ other, (state.writer other).Looks) :
    ∃ other, (after.writer other).Looks := by
  obtain ⟨other, looks⟩ := looks
  have ne : other ≠ writer := fun same => done (same ▸ looks)
  exact ⟨other, by rwa [writers, update_of_ne ne]⟩

omit [DecidableEq Writer] in
theorem notifyWritable_notified : state.notifyWritable.Notified := by
  unfold notifyWritable Notified
  cases state.events <;> simp

omit [DecidableEq Writer] in
theorem notifyWritable_frame (state : WritableState Writer) :
    state.notifyWritable.writer = state.writer ∧ state.notifyWritable.ring = state.ring ∧
      state.notifyWritable.handlers = state.handlers ∧ state.notifyWritable.blockFlag = state.blockFlag := by
  unfold notifyWritable
  split <;> exact ⟨rfl, rfl, rfl, rfl⟩

/-! ## One step of each kind -/

variable (inv : state.Inv unit)
include inv

theorem Inv.allocate (valid : 0 < unit ∧ unit < 2 ^ 32) {request : WriteRequest}
    (careful : state.Careful unit (.allocate writer request)) :
    (state.step unit blocking edgeTriggered (.allocate writer request)).Inv unit := by
  refine guarded inv fun running => ?_
  have careful := careful running
  have room := inv.ring.request_available careful
  have done : ¬ (state.writer writer).Looks := by simp [RingWriter.Looks, running]
  refine inv.own (inv.ring.step careful) rfl room ?_ ?_ (Or.imp_right (Or.imp_right (looks_of_update rfl done))) id
  · intro waits
    cases granted : state.ring.grantedBy (request.call unit) <;> simp [RingWriter.WaitsForEpoll, granted] at waits
  · intro waits
    cases granted : state.ring.grantedBy (request.call unit) with
    | some block => simp [RingWriter.WaitsForFlag, granted] at waits
    | none =>
      have full := inv.ring.request_refused careful valid granted
      exact absurd (waits.2.trans room) (Nat.not_le.mpr full)

theorem Inv.post {last : Bool} : (state.step unit blocking edgeTriggered (.post writer last)).Inv unit := by
  rw [WritableState.step]
  split
  next block posting =>
    have done : ¬ (state.writer writer).Looks := by simp [RingWriter.Looks, posting]
    refine inv.own inv.ring rfl le_rfl ?_ ?_ (Or.imp_right (Or.imp_right (looks_of_update rfl done))) id
    · intro waits
      simp [RingWriter.WaitsForEpoll] at waits
    · intro waits
      simp [RingWriter.WaitsForFlag] at waits
  next => exact inv

theorem Inv.postFails (careful : state.Careful unit (.postFails writer)) :
    (state.step unit blocking edgeTriggered (.postFails writer)).Inv unit := by
  rw [WritableState.step]
  split
  next block posting =>
    refine ⟨⟨fun _ _ => .inr (.inr ⟨writer, ?_⟩), fun other waits => ?_⟩, inv.ring.free⟩
    · -- the second look comes after the release
      simp [setPhase, RingWriter.Looks]
    · refine careful other ?_
      have phase := waits.1
      by_cases same : other = writer
      · subst same
        simp only [setPhase, update_self] at phase
        exact .inr (by simpa using phase)
      · simp only [setPhase, update_of_ne same] at phase
        exact phase.imp_right And.left
  next => exact inv

theorem Inv.clear : (state.step unit blocking edgeTriggered (.clear writer)).Inv unit := by
  refine guarded inv fun refused => ?_
  refine inv.own inv.ring rfl le_rfl ?_ ?_ ?_ id
  · intro waits
    simp [RingWriter.WaitsForEpoll] at waits
  · intro waits
    obtain ⟨phase, fits⟩ := waits
    exact .inl ⟨.inr ⟨by simpa using phase, .inl refused⟩, fits⟩
  · -- the second look is now this writer's to take
    exact fun _ => .inr (.inr ⟨writer, by simp [setPhase, RingWriter.Looks]⟩)

omit inv [DecidableEq Writer] in
/-- After the second look a notification is there, unless the ring is full. -/
theorem refill_notified (valid : 0 < unit) {request : WriteRequest} (fits : request.need unit ≤ state.ring.available) :
    (state.refill unit).Notified := by
  have need := (SendRing.roundUnit_bounds valid (SendRing.request_sizes request).1).1
  rw [refill, if_pos (need.trans fits)]
  exact notifyWritable_notified

omit inv [DecidableEq Writer] in
theorem refill_frame (state : WritableState Writer) :
    (state.refill unit).writer = state.writer ∧ (state.refill unit).ring = state.ring ∧
      (state.refill unit).handlers = state.handlers ∧ (state.refill unit).blockFlag = state.blockFlag := by
  unfold refill
  split
  · exact state.notifyWritable_frame
  · exact ⟨rfl, rfl, rfl, rfl⟩

omit inv in
/-- What the writer does after its second look changes that writer only. -/
theorem await_frame (state : WritableState Writer) (blocking : Writer → Bool) (writer : Writer) :
    ∃ changed : RingWriter, state.await blocking writer = { state with writer := update state.writer writer changed } ∧
      changed.request = (state.writer writer).request ∧ ¬ changed.Looks ∧
      (changed.phase = .blocked → (state.writer writer).registered = true) := by
  unfold await
  split
  · exact ⟨_, rfl, rfl, by simp [RingWriter.Looks]⟩
  · split
    · rename_i registered
      exact ⟨_, rfl, rfl, by simp [RingWriter.Looks, registered]⟩
    · exact ⟨_, rfl, rfl, by simp [RingWriter.Looks]⟩

theorem Inv.recheck (valid : 0 < unit) : (state.step unit blocking edgeTriggered (.recheck writer)).Inv unit := by
  refine guarded inv fun cleared => ?_
  obtain ⟨changed, after, request, done, blocked⟩ := await_frame (state.refill unit) blocking writer
  obtain ⟨writers, ring, handlers, blockFlag⟩ := state.refill_frame
  rw [after]
  rw [writers] at request blocked
  refine ⟨⟨fun other waits => .inl ?_, fun other waits => ?_⟩, ring ▸ inv.ring⟩
  · have fits := waits.2
    rw [ring] at fits
    exact refill_notified valid fits
  · have flagWakes : state.FlagWakes := by
      refine inv.flag other ?_
      dsimp only at waits
      rw [writers, ring, update_apply] at waits
      split at waits
      · rename_i same
        subst same
        obtain ⟨phase, fits⟩ := waits
        -- whoever blocks now was registered when the ring refused it
        have isBlocked : changed.phase = .blocked := phase.resolve_right fun still => done still.2
        exact ⟨.inr ⟨blocked isBlocked, .inr cleared⟩, request ▸ fits⟩
      · exact waits
    simpa only [FlagWakes, Handles, handlers, blockFlag] using flagWakes

theorem Inv.signalled (careful : state.Careful unit (.signalled writer)) :
    (state.step unit blocking edgeTriggered (.signalled writer)).Inv unit := by
  refine guarded inv fun ready => ⟨⟨fun other waits => ?_, fun other waits => ?_⟩, inv.ring⟩
  · have done : ¬ (state.writer writer).Looks := by simp [RingWriter.Looks, ready.1]
    have before : (state.writer other).WaitsForEpoll unit state.ring.available := by
      dsimp only [setPhase] at waits
      rw [update_apply] at waits
      split at waits
      · simp [RingWriter.WaitsForEpoll] at waits
      · exact waits
    exact (inv.epoll other before).imp_right (Or.imp_right (looks_of_update rfl done))
  · dsimp only [setPhase] at waits
    rw [update_apply] at waits
    split at waits
    · simp [RingWriter.WaitsForFlag] at waits
    · rename_i ne
      exact .inr (careful other ne (waits.1.imp_right And.left))

theorem Inv.expire : (state.step unit blocking edgeTriggered (.expire writer)).Inv unit := by
  refine guarded inv fun waiting => ?_
  have done : ¬ (state.writer writer).Looks := by rcases waiting with phase | phase <;> simp [RingWriter.Looks, phase]
  refine inv.own inv.ring rfl le_rfl ?_ ?_ (Or.imp_right (Or.imp_right (looks_of_update rfl done))) id
  · intro waits
    simp [RingWriter.WaitsForEpoll] at waits
  · intro waits
    simp [RingWriter.WaitsForFlag] at waits

theorem Inv.sendCtrl (careful : state.Careful unit .sendCtrl) :
    (state.step unit blocking edgeTriggered .sendCtrl).Inv unit := by
  have careful : state.ring.Careful (WriteRequest.ctrlOnly.call unit) := careful
  have room := inv.ring.request_available careful
  exact inv.mono (inv.ring.step careful) (fun _ waits => .inl ⟨waits.1, waits.2.trans room⟩)
    (fun _ waits => .inl ⟨waits.1, waits.2.trans room⟩) id id

theorem Inv.release {message : Nat} (careful : state.Careful unit (.release message)) :
    (state.step unit blocking edgeTriggered (.release message)).Inv unit := by
  rw [WritableState.step]
  split
  next => exact inv
  next completion block found =>
    obtain ⟨epoll, flag⟩ := careful _ found
    have handles : ∀ notice, notice ∈ completion.notices ∨ state.Handles notice →
        ∃ notices ∈ state.handlers ++ [completion.notices], notice ∈ notices := by
      intro notice told
      simpa [Handles, or_comm] using told
    refine ⟨⟨fun writer waits => ?_, fun writer waits => ?_⟩, inv.ring.free⟩
    · obtain told | wakes := epoll
      · exact .inr (.inl (handles _ (.inl told)))
      · exact (wakes writer waits.1).imp_right (Or.imp_left fun pending => handles _ (.inr pending))
    · obtain told | wakes := flag
      · exact .inr (handles _ (.inl told))
      · exact (wakes writer (waits.1.imp_right And.left)).imp_right fun pending => handles _ (.inr pending)

omit inv [DecidableEq Writer] in
/-- A handler that gives one notice still has the others to give. -/
theorem Handles.set {index : Nat} {notice other : Notice} {rest : List Notice}
    (found : state.handlers[index]? = some (notice :: rest)) (ne : other ≠ notice)
    (handles : state.Handles other) : ∃ notices ∈ state.handlers.set index rest, other ∈ notices := by
  obtain ⟨notices, mem, has⟩ := handles
  obtain ⟨place, at_place⟩ := mem_iff_getElem?.1 mem
  obtain ⟨bound, _⟩ := List.getElem?_eq_some_iff.1 found
  by_cases same : place = index
  · subst same
    rw [found] at at_place
    obtain rfl := Option.some.inj at_place
    have inRest : other ∈ rest := (mem_cons.1 has).resolve_left ne
    exact ⟨rest, mem_iff_getElem?.2 ⟨place, by simp [bound]⟩, inRest⟩
  · refine ⟨notices, mem_iff_getElem?.2 ⟨place, ?_⟩, has⟩
    rw [getElem?_set_ne (Ne.symm same), at_place]

theorem Inv.handle {index : Nat} : (state.step unit blocking edgeTriggered (.handle index)).Inv unit := by
  rw [WritableState.step]
  split
  swap
  · exact inv
  rename_i notice rest found
  cases notice with
  | writable =>
    obtain ⟨writers, ring, handlers, blockFlag⟩ :=
      notifyWritable_frame { state with handlers := state.handlers.set index rest }
    refine ⟨⟨fun _ _ => .inl notifyWritable_notified, fun writer waits => ?_⟩, ring.symm ▸ inv.ring⟩
    rw [notify, writers, ring] at waits
    rw [notify, FlagWakes, Handles, handlers, blockFlag]
    exact (inv.flag writer waits).imp_right (Handles.set found (by decide))
  | blockingWritable =>
    exact inv.mono inv.ring (fun _ => .inl) (fun _ _ => .inr (.inl rfl))
      (Or.imp_right (Or.imp_left (Handles.set found (by decide)))) fun _ => .inl rfl

omit inv [DecidableEq Writer] in
theorem Notified.epollCtlMod (notified : state.Notified) {interest : Bool} : (state.epollCtlMod interest).Notified := by
  unfold Notified WritableState.epollCtlMod at *
  cases interest <;> grind

theorem Inv.epollRead (careful : state.Careful unit .epollRead) :
    (state.step unit blocking edgeTriggered .epollRead).Inv unit := by
  rw [WritableState.step]
  split
  swap
  · exact inv
  rename_i reported look
  cases reported with
  | true =>
    refine ⟨⟨fun writer waits => ?_, fun writer waits => inv.flag writer ?_⟩, inv.ring⟩
    · have phase := waits.1
      simp only [deliver, if_true] at phase
      split at phase
      · simp at phase
      · contradiction
    · simp only [deliver, if_true] at waits
      split at waits
      · simp [RingWriter.WaitsForFlag] at waits
      · exact waits
  | false =>
    have unseen := careful look
    refine inv.mono inv.ring (fun _ => .inl) (fun _ => .inl) (Or.imp_left fun notified => ?_) id
    simp only [Notified, deliver] at notified ⊢
    grind

/-! ## Every run -/

theorem Inv.step (valid : 0 < unit ∧ unit < 2 ^ 32) {action : WritableAction Writer}
    (careful : state.Careful unit action) :
    (state.step unit blocking edgeTriggered action).Inv unit := by
  cases action with
  | allocate writer request => exact inv.allocate valid careful
  | post writer last => exact inv.post
  | postFails writer => exact inv.postFails careful
  | clear writer => exact inv.clear
  | recheck writer => exact inv.recheck valid.1
  | signalled writer => exact inv.signalled careful
  | expire writer => exact inv.expire
  | sendCtrl => exact inv.sendCtrl careful
  | release message => exact inv.release careful
  | handle index => exact inv.handle
  | epollCtlMod interest =>
    exact inv.mono inv.ring (fun _ => .inl) (fun _ => .inl) (Or.imp_left fun notified => notified.epollCtlMod) id
  | epollLook => exact guarded inv fun _ => inv.mono inv.ring (fun _ => .inl) (fun _ => .inl) id id
  | epollRead => exact inv.epollRead careful

omit inv [DecidableEq Writer] in
theorem Right.woken (right : state.Right unit) (told : ∀ notices ∈ state.handlers, notices = [])
    (looked : ∀ writer, ¬ (state.writer writer).Looks) {writer : Writer} :
    ((state.writer writer).WaitsForEpoll unit state.ring.available → state.Notified) ∧
      ((state.writer writer).WaitsForFlag unit state.ring.available → state.blockFlag = true) := by
  have nothing : ∀ notice, ¬ state.Handles notice := by
    rintro notice ⟨notices, mem, has⟩
    rw [told notices mem] at has
    exact absurd has not_mem_nil
  refine ⟨fun waits => ?_, fun waits => ?_⟩
  · obtain notified | handles | ⟨other, looks⟩ := right.epoll writer waits
    · exact notified
    · exact absurd handles (nothing _)
    · exact absurd looks (looked other)
  · exact (right.flag writer waits).resolve_right (nothing _)

omit inv in
/-- Along careful steps no writer waits for room that is there without a wake-up under way: once the
handlers have told and the writers have looked, the notification is there or the flag is set. -/
theorem writers_woken_of_careful_steps (valid : 0 < unit ∧ unit < 2 ^ 32) {start finish : WritableState Writer}
    (ring : start.ring.Inv) (running : ∀ writer, (start.writer writer).phase = .running)
    (run : Run (step unit blocking edgeTriggered) (Careful unit) start finish) :
    finish.Right unit ∧
      ((∀ notices ∈ finish.handlers, notices = []) → (∀ writer, ¬ (finish.writer writer).Looks) →
        ∀ writer, ((finish.writer writer).WaitsForEpoll unit finish.ring.available → finish.Notified) ∧
          ((finish.writer writer).WaitsForFlag unit finish.ring.available → finish.blockFlag = true)) := by
  have initial : start.Inv unit :=
    ⟨⟨by simp [RingWriter.WaitsForEpoll, running], by simp [RingWriter.WaitsForFlag, running]⟩, ring⟩
  have inv : finish.Inv unit := run.invariant initial fun _ _ inv careful => inv.step valid careful
  exact ⟨inv.toRight, inv.woken⟩

omit inv

section Decidable

variable [Fintype Writer] (state)

instance : Decidable state.EpollWakes := inferInstanceAs (Decidable (_ ∨ _))

instance : Decidable state.FlagWakes := inferInstanceAs (Decidable (_ ∨ _))

instance : Decidable (state.Right unit) :=
  decidable_of_iff (_ ∧ _) ⟨fun both => ⟨both.1, both.2⟩, fun right => ⟨right.epoll, right.flag⟩⟩

instance (action) : Decidable (state.Careful unit action) := by
  cases action <;> dsimp only [Careful] <;> infer_instance

end Decidable

/-- Two writers and a ring of two units of 64 bytes. -/
def emptyRing : WritableState Bool where
  ring := .new 128
  posted := []
  events := true
  reach := true
  writableReady := false
  eventfd := true
  reported := none
  blockFlag := false
  handlers := []
  writer _ := ⟨.running, .ctrlOnly, false⟩

/-- The writer's message takes the whole ring. -/
def fills (request : WriteRequest) : List (WritableAction Bool) := [.allocate true request, .post true true]

def refused (writer : Bool) : List (WritableAction Bool) :=
  [.allocate writer (.inBand 1), .clear writer, .recheck writer]

/-- The first writer waits for epoll and the second blocks; an inline acknowledgement wakes both. -/
def mixedRun : List (WritableAction Bool) :=
  fills (.inBand 80) ++ refused false ++ refused true ++ refused true ++
    [.release 0, .handle 0, .handle 0, .signalled true, .allocate true (.inBand 1), .epollLook, .epollRead]

theorem writers_woken_mixedRun :
    (∀ writer, (emptyRing.writer writer).phase = .running) ∧
      (mixedRun.foldl (step 64 id false) emptyRing).Right 64 := by
  have careful : AllAllowed (step 64 id false) (Careful 64) emptyRing mixedRun := by decide +kernel
  exact ⟨fun _ => rfl,
    (writers_woken_of_careful_steps (by decide) (SendRing.new_inv (by decide)) (fun _ => rfl) (Run.ofList careful)).1⟩

def afterActions (blocking : Bool → Bool) (actions : List (WritableAction Bool)) : WritableState Bool :=
  actions.foldl (step 64 blocking false) emptyRing

/-- A writer that waits for epoll hears nothing of a large message's acknowledgement, and nobody of
a control message's completion.  One of two blocked writers takes the flag that was
set for both, and a notification between the look and the read of `EpollWait` is read away.  A
blocked writer whose own post failed, or that of another one, waits for others to release room. -/
theorem writers_leftWaiting :
    ¬ (afterActions id (fills (.zeroCopy 5) ++ refused false ++ [.release 0, .handle 0])).Right 64 ∧
    ¬ (afterActions id ([.sendCtrl, .sendCtrl] ++ refused true ++ refused true ++ [.release 0])).Right 64 ∧
    ¬ (afterActions (fun _ => true) (fills (.inBand 80) ++ refused true ++ refused true ++ refused false ++
      refused false ++ [.release 0, .handle 0, .handle 0, .signalled true, .allocate true (.inBand 1)])).Right 64 ∧
    ¬ (afterActions id (fills (.inBand 80) ++ refused false ++
      [.epollLook, .release 0, .handle 0, .handle 0, .epollRead])).Right 64 ∧
    ¬ (afterActions id (fills (.inBand 80) ++ refused true ++
      [.release 0, .handle 0, .handle 0, .allocate true (.inBand 1), .postFails true, .clear true, .recheck true,
        .signalled true, .allocate true (.inBand 1), .postFails true, .clear true, .recheck true])).Right 64 ∧
    ¬ (afterActions id ([.allocate false (.inBand 80)] ++ refused true ++ refused true ++
      [.postFails false, .clear false, .recheck false])).Right 64 := by
  decide +kernel

end WritableState

end UbsComm.Urma
