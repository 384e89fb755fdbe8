import UbsComm.Library.Run
import Mathlib.Data.List.Basic

/-! # Telling the reader that data has arrived

The poller puts the messages that arrive into slots ordered by their sequence number, or in dispatcher mode
into a queue that the reader drains into the slots.  It tells the reader if the message is the next one.  The reader
takes the slots at the consume position, then clears its readiness and looks
at the head slot once more.  An interleaving takes one step of the poller or of the reader at a time.
The returns of `ReadVOnce` before its clear (EINVAL, and 0 after SHUT_RD) are left out. -/

namespace UbsComm.Urma

open Library List

/-- `MAX_IN_FLIGHT` and the capacity of the dispatcher's queue. -/
def maxInFlight : Nat := 256

def dispatchCapacity : Nat := 1024

inductive SlotState where
  | idle
  | reading
  | dataReady
  deriving DecidableEq

structure RxSlot where
  seqNo : Nat
  state : SlotState
  deriving DecidableEq

/-- What the message of a slot is: its bytes are there, or they are to be pulled by a read that was
issued or could not be. -/
inductive Arrival where
  | writeInBand
  | preWrite (issued : Bool)
  deriving DecidableEq

inductive RxEvent where
  | dataReached (seqNo : Nat) (arrival : Arrival)
  | dataReadFinished (seqNo : Nat)

/-- Where the poller is, with the consume position that it has loaded. -/
inductive PollerPhase where
  | idle
  | loaded (seqNo consumed : Nat) (arrival : Arrival)
  | inserted (seqNo consumed : Nat) (arrival : Arrival)
  | published (seqNo consumed : Nat)
  /-- In `ProcessDataReadFinished`, before its load of the consume position and after it. -/
  | finished (seqNo : Nat)
  | finishedLoaded (seqNo consumed : Nat)
  | notifying
  /-- The event is in the queue of the dispatcher, the notification is to come. -/
  | pushed
  deriving DecidableEq

inductive ReaderPhase where
  | idle
  | draining
  | reading
  | cleared
  | notifying
  deriving DecidableEq

structure ReadableState where
  consumeSeqNo : Nat
  slots : List RxSlot
  queue : List RxEvent
  poller : PollerPhase
  reader : ReaderPhase
  /-- A readable notification was issued after the reader's last clear. -/
  notified : Bool

/-! ## The slots -/

def insertSlot (slot : RxSlot) : List RxSlot → List RxSlot
  | [] => [slot]
  | curr :: rest => if curr.seqNo < slot.seqNo then curr :: insertSlot slot rest else slot :: curr :: rest

variable (slots : List RxSlot)

def findSlot (seqNo : Nat) : Option RxSlot :=
  slots.find? (·.seqNo = seqNo)

def setReady (seqNo : Nat) : List RxSlot :=
  slots.map fun slot => if slot.seqNo = seqNo then { slot with state := .dataReady } else slot

def setReading (seqNo : Nat) : List RxSlot :=
  slots.map fun slot => if slot.seqNo = seqNo then { slot with state := .reading } else slot

def removeSlot (seqNo : Nat) : List RxSlot :=
  slots.filter (·.seqNo ≠ seqNo)

namespace ReadableState

/-- The head slot is the one at the consume position, and its data is there. -/
def headReady (state : ReadableState) (consumed : Nat) : Bool :=
  match state.slots with
  | [] => false
  | slot :: _ => slot.seqNo = consumed ∧ slot.state = .dataReady

def outsideWindow (seqNo consumed : Nat) : Bool :=
  seqNo < consumed ∨ consumed + maxInFlight ≤ seqNo

/-- The slot's part of `ProcessDataReached` once it is inserted. -/
def settleArrival (slots : List RxSlot) (seqNo : Nat) : Arrival → List RxSlot
  | .writeInBand => setReady slots seqNo
  | .preWrite true => setReading slots seqNo
  | .preWrite false => removeSlot slots seqNo

/-- A deferred event, handled by the reader. -/
def handleEvent (state : ReadableState) : RxEvent → List RxSlot
  | .dataReached seqNo arrival =>
    if outsideWindow seqNo state.consumeSeqNo ∨ (findSlot state.slots seqNo).isSome then state.slots
    else settleArrival (insertSlot ⟨seqNo, .idle⟩ state.slots) seqNo arrival
  | .dataReadFinished seqNo =>
    if findSlot state.slots seqNo = some ⟨seqNo, .reading⟩ then setReady state.slots seqNo else state.slots

end ReadableState

inductive ReadableAction where
  /-- The poller takes the next completion. -/
  | poll (event : RxEvent)
  | insert
  /-- The slot gets its state, and `DATA_READY` is published. -/
  | settle
  | decide
  | load
  | check
  | notify
  /-- The reader's steps. -/
  | readV
  | drainOne
  | drainEnd
  | retire
  | clear
  | recheck
  | refill

namespace ReadableState

variable (state : ReadableState)

def pushEvent (event : RxEvent) : ReadableState :=
  if state.queue.length < dispatchCapacity then { state with queue := state.queue ++ [event], poller := .pushed }
  else state

/-- The first step of a completion, deferred or inline. -/
def poll (deferred : Bool) (state : ReadableState) (event : RxEvent) : ReadableState :=
  if deferred then state.pushEvent event
  else
    match event with
    | .dataReached seqNo arrival =>
      if outsideWindow seqNo state.consumeSeqNo then state
      else { state with poller := .loaded seqNo state.consumeSeqNo arrival }
    | .dataReadFinished seqNo =>
      if findSlot state.slots seqNo = some ⟨seqNo, .reading⟩ then
        { state with slots := setReady state.slots seqNo, poller := .finished seqNo }
      else state

def step (deferred : Bool) (state : ReadableState) : ReadableAction → ReadableState
  | .poll event => if state.poller = .idle then state.poll deferred event else state
  | .insert =>
    match state.poller with
    | .loaded seqNo consumed arrival =>
      if (findSlot state.slots seqNo).isSome then { state with poller := .idle }
      else
        { state with
          slots := insertSlot ⟨seqNo, .idle⟩ state.slots, poller := .inserted seqNo consumed arrival }
    | _ => state
  | .settle =>
    match state.poller with
    | .inserted seqNo consumed arrival =>
      { state with
        slots := settleArrival state.slots seqNo arrival
        poller := if arrival = .writeInBand then .published seqNo consumed else .idle }
    | _ => state
  | .decide =>
    match state.poller with
    | .published seqNo consumed => { state with poller := if seqNo = consumed then .notifying else .idle }
    | _ => state
  | .load =>
    match state.poller with
    | .finished seqNo => { state with poller := .finishedLoaded seqNo state.consumeSeqNo }
    | _ => state
  | .check =>
    match state.poller with
    | .finishedLoaded seqNo consumed =>
      { state with poller := if seqNo = consumed ∨ state.headReady consumed then .notifying else .idle }
    | _ => state
  | .notify =>
    if state.poller = .notifying ∨ state.poller = .pushed then { state with poller := .idle, notified := true }
    else state
  | .readV => if state.reader = .idle then { state with reader := .draining } else state
  | .drainOne =>
    match state.reader, state.queue with
    | .draining, event :: queue => { state with slots := state.handleEvent event, queue }
    | _, _ => state
  | .drainEnd =>
    if state.reader = .draining ∧ state.queue = [] then { state with reader := .reading } else state
  | .retire =>
    if state.reader = .reading ∧ state.headReady state.consumeSeqNo then
      { state with slots := state.slots.tail, consumeSeqNo := state.consumeSeqNo + 1 }
    else state
  | .clear => if state.reader = .reading then { state with reader := .cleared, notified := false } else state
  | .recheck =>
    if state.reader = .cleared then
      { state with reader := if state.headReady state.consumeSeqNo then .notifying else .idle }
    else state
  | .refill => if state.reader = .notifying then { state with reader := .idle, notified := true } else state

/-! ## No lost wake-up -/

/-- The message at the consume position is there. -/
def HasData : Prop :=
  ⟨state.consumeSeqNo, .dataReady⟩ ∈ state.slots

/-- The poller has yet to notify. -/
def PollerWakes : Prop :=
  match state.poller with
  | .notifying | .pushed => True
  | .published seqNo consumed | .finishedLoaded seqNo consumed => seqNo = consumed
  | .finished seqNo => seqNo = state.consumeSeqNo
  | .idle | .loaded .. | .inserted .. => False

structure Right : Prop where
  ordered : state.slots.Pairwise (·.seqNo < ·.seqNo)
  behind : ∀ slot ∈ state.slots, state.consumeSeqNo ≤ slot.seqNo
  /-- Data waits only with a notification, one to come, or a reader that has yet to look. -/
  data : state.HasData → state.notified = true ∨ state.PollerWakes ∨ state.reader ≠ .idle
  deferred : state.queue ≠ [] → state.notified = true ∨ state.poller = .pushed

/-- The message that is inserted was not consumed since the poller's load. -/
def InsertsInTime : PollerPhase → Prop
  | .loaded seqNo _ _ => (findSlot state.slots seqNo).isSome ∨ state.consumeSeqNo ≤ seqNo
  | _ => True

/-- The reader has not come to the message that is published since the poller's load, unless it is notified
or has yet to look. -/
def PublishesInTime : PollerPhase → Prop
  | .inserted seqNo consumed .writeInBand =>
    seqNo = state.consumeSeqNo → (findSlot state.slots seqNo).isSome →
      seqNo = consumed ∨ state.notified = true ∨ state.reader ≠ .idle
  | _ => True

/-- The condition on a step.  The reader clears its readiness when no event was deferred since its drain,
or one that is still to be notified. -/
def Careful : ReadableAction → Prop
  | .insert => state.InsertsInTime state.poller
  | .settle => state.PublishesInTime state.poller
  | .clear => state.reader = .reading → state.queue ≠ [] → state.poller = .pushed
  | .poll _ | .decide | .load | .check | .notify | .readV | .drainOne | .drainEnd | .retire | .recheck | .refill => True

section Decidable

variable (state : ReadableState)

instance (phase) : Decidable (state.InsertsInTime phase) := by
  cases phase <;> dsimp only [InsertsInTime] <;> infer_instance

instance (phase) : Decidable (state.PublishesInTime phase) := by
  unfold PublishesInTime
  split <;> infer_instance

instance (action) : Decidable (state.Careful action) := by
  cases action <;> dsimp only [Careful] <;> infer_instance

end Decidable

/-! ## The slots stay in order -/

section Slots

variable {slots : List RxSlot} {seqNo consumed : Nat} {slot : RxSlot}

theorem mem_insertSlot {slot other : RxSlot} : other ∈ insertSlot slot slots ↔ other = slot ∨ other ∈ slots := by
  induction slots with
  | nil => simp [insertSlot]
  | cons curr rest ih =>
    rw [insertSlot]
    split
    · rw [mem_cons, ih, mem_cons, or_left_comm]
    · exact mem_cons

theorem pairwise_insertSlot (ordered : slots.Pairwise (·.seqNo < ·.seqNo))
    (new : ∀ other ∈ slots, other.seqNo ≠ slot.seqNo) : (insertSlot slot slots).Pairwise (·.seqNo < ·.seqNo) := by
  induction slots with
  | nil => simp [insertSlot]
  | cons curr rest ih =>
    obtain ⟨before, rest_ordered⟩ := pairwise_cons.1 ordered
    have new_curr := new curr mem_cons_self
    rw [insertSlot]
    split
    · rename_i smaller
      refine pairwise_cons.2 ⟨fun other mem => ?_, ih rest_ordered fun other mem =>
        new other (mem_cons_of_mem _ mem)⟩
      obtain rfl | old := mem_insertSlot.1 mem
      · exact smaller
      · exact before other old
    · rename_i notSmaller
      have smaller : slot.seqNo < curr.seqNo := by omega
      refine pairwise_cons.2 ⟨fun other mem => ?_, ordered⟩
      obtain rfl | old := mem_cons.1 mem
      · exact smaller
      · exact Nat.lt_trans smaller (before other old)

/-- The slots are in order, and none is in front of the consume position. -/
def InOrder (consumed : Nat) (slots : List RxSlot) : Prop :=
  slots.Pairwise (·.seqNo < ·.seqNo) ∧ ∀ slot ∈ slots, consumed ≤ slot.seqNo

section

variable {consumed : Nat} (inOrder : InOrder consumed slots)
include inOrder

theorem InOrder.insertSlot (missing : ¬ (findSlot slots slot.seqNo).isSome)
    (later : consumed ≤ slot.seqNo) : InOrder consumed (insertSlot slot slots) := by
  refine ⟨pairwise_insertSlot inOrder.1 (by simpa [findSlot] using missing), fun other mem => ?_⟩
  obtain rfl | old := mem_insertSlot.1 mem
  · exact later
  · exact inOrder.2 other old

/-- A change of states and a removal bring no new sequence number. -/
theorem InOrder.of_sublist {after : List RxSlot}
    (sub : (after.map RxSlot.seqNo).Sublist (slots.map RxSlot.seqNo)) : InOrder consumed after :=
  ⟨pairwise_map.1 ((pairwise_map.2 inOrder.1).sublist sub),
    forall_mem_map.1 fun _ mem => forall_mem_map.2 inOrder.2 _ (sub.subset mem)⟩

theorem InOrder.setReady : InOrder consumed (setReady slots seqNo) :=
  inOrder.of_sublist (by simp [Urma.setReady, Function.comp_def, apply_ite RxSlot.seqNo])

theorem InOrder.settleArrival {arrival : Arrival} : InOrder consumed (settleArrival slots seqNo arrival) := by
  match arrival with
  | .writeInBand => exact inOrder.setReady
  | .preWrite true =>
    exact inOrder.of_sublist (by
      simp [ReadableState.settleArrival, setReading, Function.comp_def, apply_ite RxSlot.seqNo])
  | .preWrite false => exact inOrder.of_sublist (filter_sublist.map _)

end

theorem mem_setReady :
    (⟨consumed, .dataReady⟩ : RxSlot) ∈ setReady slots seqNo ↔
      ⟨consumed, .dataReady⟩ ∈ slots ∨ consumed = seqNo ∧ (findSlot slots seqNo).isSome := by
  rw [setReady, mem_map, findSlot, find?_isSome]
  constructor
  · rintro ⟨old, there, equal⟩
    split at equal
    · rename_i same
      have seq := congrArg RxSlot.seqNo equal
      exact .inr ⟨seq.symm.trans same, old, there, by simpa using same⟩
    · exact .inl (equal ▸ there)
  · rintro (there | ⟨rfl, old, there, same⟩)
    · exact ⟨_, there, by split <;> rfl⟩
    · have same : old.seqNo = consumed := by simpa using same
      exact ⟨old, there, by simp [same]⟩

/-- Only a message that was sent in band becomes ready when its slot gets its state. -/
theorem mem_settleArrival {arrival : Arrival}
    (ready : (⟨consumed, .dataReady⟩ : RxSlot) ∈ settleArrival slots seqNo arrival) :
    ⟨consumed, .dataReady⟩ ∈ slots ∨ arrival = .writeInBand ∧ consumed = seqNo ∧ (findSlot slots seqNo).isSome := by
  match arrival with
  | .writeInBand => exact (mem_setReady.1 ready).imp_right fun new => ⟨rfl, new⟩
  | .preWrite true =>
    obtain ⟨old, there, equal⟩ := mem_map.1 ready
    split at equal
    · exact absurd (congrArg RxSlot.state equal) (by simp)
    · exact .inl (equal ▸ there)
  | .preWrite false => exact .inl (mem_filter.1 ready).1

end Slots

/-! ## One step -/

variable {state : ReadableState} {deferred : Bool}

section

variable (right : state.Right)
include right

theorem Right.inOrder : InOrder state.consumeSeqNo state.slots :=
  ⟨right.ordered, right.behind⟩

/-- The poller goes on, and a notification that was to come is still to come. -/
theorem Right.pollerGoesOn {poller : PollerPhase} (notPushed : state.poller ≠ .pushed)
    (wakes : state.PollerWakes → { state with poller }.PollerWakes) : Right { state with poller } where
  ordered := right.ordered
  behind := right.behind
  data has := (right.data has).imp_right (Or.imp_left wakes)
  deferred some_ := .inl ((right.deferred some_).resolve_right notPushed)

theorem Right.headReady (data : state.HasData) : state.headReady state.consumeSeqNo = true := by
  unfold HasData at data
  unfold ReadableState.headReady
  have ordered := right.ordered
  have behind := right.behind
  cases slots : state.slots with
  | nil =>
    rw [slots] at data
    cases data
  | cons head rest =>
    rw [slots] at data ordered behind
    obtain same | later := mem_cons.1 data
    · simp [← same]
    · have less := (pairwise_cons.1 ordered).1 _ later
      have least := behind head mem_cons_self
      dsimp only at less
      omega

theorem Right.poll {event : RxEvent} : (state.step deferred (.poll event)).Right := by
  refine guarded right fun idle => ?_
  unfold ReadableState.poll
  split
  · -- The event goes into the queue, and the notification is to come.
    exact guarded right fun _ =>
      { right with data := fun _ => .inr (.inl trivial), deferred := fun _ => .inr rfl }
  · cases event with
    | dataReached seqNo arrival =>
      dsimp only
      split
      · exact right
      · exact right.pollerGoesOn (by simp [idle]) (by simp [PollerWakes, idle])
    | dataReadFinished seqNo =>
      refine guarded right fun _ => ?_
      refine ⟨right.inOrder.setReady.1, right.inOrder.setReady.2, fun has => ?_, fun some_ => .inl ?_⟩
      · obtain old | ⟨same, -⟩ := mem_setReady.1 has
        · have woken := right.data old
          rw [PollerWakes, idle] at woken
          exact woken.imp_right fun other => other.elim False.elim .inr
        · exact .inr (.inl same.symm)
      · exact (right.deferred some_).resolve_right (by simp [idle])

theorem Right.insert_iff : (state.step deferred .insert).Right ↔ state.Careful .insert := by
  rw [step, Careful]
  cases phase : state.poller with
  | loaded seqNo consumed arrival =>
    have data := right.data
    have deferred' := right.deferred
    rw [PollerWakes, phase] at data
    rw [phase] at deferred'
    dsimp only
    split
    · rename_i found
      exact iff_of_true (right.pollerGoesOn (by simp [phase]) (by simp [PollerWakes, phase])) (.inl found)
    · rename_i missing
      constructor
      · intro after
        exact .inr (after.behind ⟨seqNo, .idle⟩ (mem_insertSlot.2 (.inl rfl)))
      · intro careful
        have inOrder : InOrder state.consumeSeqNo (insertSlot ⟨seqNo, .idle⟩ state.slots) :=
          right.inOrder.insertSlot missing (careful.resolve_left missing)
        refine ⟨inOrder.1, inOrder.2, fun has => ?_, fun some_ => ?_⟩
        · obtain same | old := mem_insertSlot.1 has
          · simp at same
          · exact (data old).imp_right fun other => other.elim False.elim .inr
        · exact (deferred' some_).imp_right fun pushed => by simp at pushed
  | idle | inserted | published | finished | finishedLoaded | notifying | pushed => exact iff_of_true right trivial

theorem Right.settle_iff : (state.step deferred .settle).Right ↔ state.Careful .settle := by
  rw [step, Careful]
  cases phase : state.poller with
  | inserted seqNo consumed arrival =>
    have data := right.data
    have deferred' := right.deferred
    rw [PollerWakes, phase] at data
    rw [phase] at deferred'
    constructor
    · intro after
      cases arrival with
      | preWrite issued => trivial
      | writeInBand =>
        intro same found
        have has := after.data (mem_setReady.2 (.inr ⟨same.symm, found⟩))
        obtain notified | equal | reader := has
        · exact .inr (.inl notified)
        · exact .inl equal
        · exact .inr (.inr reader)
    · intro careful
      refine ⟨right.inOrder.settleArrival.1, right.inOrder.settleArrival.2, fun has => ?_, fun some_ => ?_⟩
      · obtain old | ⟨rfl, same, found⟩ := mem_settleArrival has
        · exact (data old).imp_right fun other => other.elim False.elim .inr
        · obtain equal | notified | reader := careful same.symm found
          · exact .inr (.inl (by simpa [PollerWakes] using equal))
          · exact .inl notified
          · exact .inr (.inr reader)
      · exact (deferred' some_).imp_right fun pushed => by simp at pushed
  | idle | loaded | published | finished | finishedLoaded | notifying | pushed => exact iff_of_true right trivial

theorem Right.decide : (state.step deferred .decide).Right := by
  rw [step]
  split
  · rename_i seqNo consumed phase
    refine right.pollerGoesOn (by simp [phase]) ?_
    simp only [PollerWakes, phase]
    intro equal
    simp [equal]
  · exact right

theorem Right.load : (state.step deferred .load).Right := by
  rw [step]
  split
  · rename_i seqNo phase
    refine right.pollerGoesOn (by simp [phase]) ?_
    simp only [PollerWakes, phase]
    exact id
  · exact right

theorem Right.check : (state.step deferred .check).Right := by
  rw [step]
  split
  · rename_i seqNo consumed phase
    refine right.pollerGoesOn (by simp [phase]) ?_
    simp only [PollerWakes, phase]
    intro equal
    simp [equal]
  · exact right

theorem Right.notify : (state.step deferred .notify).Right :=
  guarded right fun _ => { right with data := fun _ => .inl rfl, deferred := fun _ => .inl rfl }

theorem Right.readV : (state.step deferred .readV).Right :=
  guarded right fun _ => { right with data := fun _ => .inr (.inr (by simp)) }

theorem Right.drainOne : (state.step deferred .drainOne).Right := by
  rw [step]
  split
  swap
  · exact right
  rename_i event queue draining queued
  have some_ : state.queue ≠ [] := by simp [queued]
  have reader : state.reader ≠ .idle := by simp [draining]
  have inOrder : InOrder state.consumeSeqNo (state.handleEvent event) := by
    cases event with
    | dataReached seqNo arrival =>
      rw [handleEvent]
      split
      · exact right.inOrder
      · rename_i fresh
        obtain ⟨inside, missing⟩ := not_or.1 fresh
        have later : state.consumeSeqNo ≤ seqNo := by
          simp only [outsideWindow, decide_eq_true_eq] at inside
          omega
        exact (right.inOrder.insertSlot missing later).settleArrival
    | dataReadFinished seqNo => exact guarded right.inOrder fun _ => right.inOrder.setReady
  exact ⟨inOrder.1, inOrder.2, fun _ => .inr (.inr reader), fun _ => right.deferred some_⟩

theorem Right.drainEnd : (state.step deferred .drainEnd).Right :=
  guarded right fun _ => { right with data := fun _ => .inr (.inr (by simp)) }

theorem Right.retire : (state.step deferred .retire).Right := by
  refine guarded right fun ready => ?_
  have reader : state.reader ≠ .idle := by simp [ready.1]
  have head := ready.2
  unfold ReadableState.headReady at head
  have ordered := right.ordered
  cases slots : state.slots with
  | nil => simp [slots] at head
  | cons first rest =>
    simp only [slots, decide_eq_true_eq] at head
    rw [slots] at ordered
    obtain ⟨before, restOrdered⟩ := pairwise_cons.1 ordered
    refine ⟨restOrdered, fun slot mem => ?_, fun _ => .inr (.inr reader), right.deferred⟩
    have less := before slot mem
    dsimp only
    omega

theorem Right.clear_iff : (state.step deferred .clear).Right ↔ state.Careful .clear := by
  rw [step]
  split
  · rename_i reading
    constructor
    · intro after _ some_
      exact (after.deferred some_).resolve_left (by simp)
    · intro careful
      exact { right with
        data := fun _ => .inr (.inr (by simp))
        deferred := fun some_ => .inr (careful reading some_) }
  · rename_i other
    exact iff_of_true right fun reading => absurd reading other

theorem Right.recheck : (state.step deferred .recheck).Right := by
  refine guarded right fun _ => { right with data := fun has => .inr (.inr ?_) }
  rw [right.headReady has]
  simp

theorem Right.refill : (state.step deferred .refill).Right :=
  guarded right fun _ => { right with data := fun _ => .inl rfl, deferred := fun _ => .inl rfl }

/-! ## Every run -/

theorem Right.step_iff (action : ReadableAction) : (state.step deferred action).Right ↔ state.Careful action := by
  cases action with
  | poll event => exact iff_of_true right.poll trivial
  | insert => exact right.insert_iff
  | settle => exact right.settle_iff
  | decide => exact iff_of_true right.decide trivial
  | load => exact iff_of_true right.load trivial
  | check => exact iff_of_true right.check trivial
  | notify => exact iff_of_true right.notify trivial
  | readV => exact iff_of_true right.readV trivial
  | drainOne => exact iff_of_true right.drainOne trivial
  | drainEnd => exact iff_of_true right.drainEnd trivial
  | retire => exact iff_of_true right.retire trivial
  | clear => exact right.clear_iff
  | recheck => exact iff_of_true right.recheck trivial
  | refill => exact iff_of_true right.refill trivial

end

def init : ReadableState := ⟨0, [], [], .idle, .idle, false⟩

theorem Right.init : init.Right where
  ordered := .nil
  behind _ mem := by cases mem
  data has := by cases has
  deferred some_ := absurd rfl some_

/-- Along careful steps, whenever poller and reader are between operations and the message at the consume
position is there or an event is deferred, a notification was issued after the reader's last clear.  Each step
that is not careful leaves the reader without one, or a slot in front of the consume position. -/
theorem reader_woken_of_careful_steps {finish : ReadableState} (run : Run (step deferred) Careful init finish) :
    (finish.poller = .idle → finish.reader = .idle → finish.HasData ∨ finish.queue ≠ [] → finish.notified = true) ∧
      finish.Right ∧ ∀ action, (finish.step deferred action).Right ↔ finish.Careful action := by
  have right : finish.Right :=
    run.invariant Right.init fun _ action right careful => (right.step_iff action).2 careful
  refine ⟨fun poller reader waits => ?_, right, right.step_iff⟩
  obtain has | queued := waits
  · have woken := right.data has
    simpa [PollerWakes, poller, reader] using woken
  · have woken := right.deferred queued
    simpa [poller] using woken

/-- One message in band, up to the poller's decision. -/
def arrive (seqNo : Nat) : List ReadableAction := [.poll (.dataReached seqNo .writeInBand), .insert, .settle, .decide]

/-- The reader takes the message at the consume position, and looks once more. -/
def take : List ReadableAction := [.readV, .drainEnd, .retire, .clear, .recheck]

/-- The second message is there when the reader looks once more. -/
def twoMessages : List ReadableAction := arrive 0 ++ [.notify] ++ arrive 1 ++ take ++ [.refill]

theorem reader_woken_twoMessages : (twoMessages.foldl (step false) init).notified = true := by
  have run : Run (step false) Careful init (twoMessages.foldl (step false) init) := Run.ofList (by decide)
  exact (reader_woken_of_careful_steps run).1 (by decide) (by decide)
    (.inl (show (⟨_, _⟩ : RxSlot) ∈ _ by decide))

/-- A message whose poller has loaded the consume position before the reader takes the one in front of it
and publishes after the reader's look. -/
def latePublish : List ReadableAction :=
  arrive 0 ++ [.notify, .poll (.dataReached 1 .writeInBand)] ++ take ++ [.insert, .settle, .decide]

/-- An event that is deferred and notified between the reader's drain and its clear. -/
def lateEvent : List ReadableAction :=
  [.poll (.dataReached 0 .writeInBand), .notify, .readV, .drainOne, .drainEnd,
    .poll (.dataReached 1 .writeInBand), .notify, .retire, .clear, .recheck]

/-- Nobody is at work, a message or an event waits, and the reader is not notified. -/
theorem reader_leftWaiting :
    ((latePublish.foldl (step false) init).poller = .idle ∧ (latePublish.foldl (step false) init).reader = .idle ∧
      ⟨(latePublish.foldl (step false) init).consumeSeqNo, .dataReady⟩ ∈ (latePublish.foldl (step false) init).slots ∧
      (latePublish.foldl (step false) init).notified = false) ∧
    ((lateEvent.foldl (step true) init).poller = .idle ∧ (lateEvent.foldl (step true) init).reader = .idle ∧
      (lateEvent.foldl (step true) init).queue ≠ [] ∧ (lateEvent.foldl (step true) init).notified = false) := by
  decide

end ReadableState

end UbsComm.Urma
