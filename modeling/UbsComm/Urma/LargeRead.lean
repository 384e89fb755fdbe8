import UbsComm.Library.Run
import Mathlib.Logic.Function.Basic

/-! # Large reads and their completions

A message too large for the ring is read from the peer's memory: `IssueReadRequest` posts the read and then
stores `READING` in the slot of the message, and the completion, which carries 30 bits of the sequence
number, looks the slot up and stores `DATA_READY`.

Both are done by one executor, the poller of the connection or the `ReadV` that drains the dispatcher's queue: a
completion that comes while `IssueReadRequest` runs waits in `events`, which stands for the completion queue and,
behind it, the dispatcher's. -/

namespace UbsComm.Urma.LargeRead

open Library Function List

/-- The slot of a message, with the place of `IssueReadRequest` where its state is `IDLE`. -/
inductive RxSlotState where
  | absent
  /-- The slot is inserted, its blocks are allocated, the post is to come. -/
  | issuing
  /-- The post has returned, `READING` is not stored yet. -/
  | posted
  | reading
  | dataReady
  deriving DecidableEq

/-- `inFlight` says that work requests of the read are posted and neither done nor failed, `blocksHeld` that
the blocks they write to are allocated; `finished` counts successful completions of the read and `moved` how
often the slot went to `DATA_READY`. -/
structure RxSlot where
  state : RxSlotState
  inFlight : Bool
  blocksHeld : Bool
  finished : Nat
  moved : Nat

inductive ReadAction where
  | dataReached (seqNo : Nat)
  | post (seqNo : Nat)
  /-- The post, or a step before it, failed after this many work requests were posted. -/
  | postFails (seqNo posted : Nat)
  | storeReading (seqNo : Nat)
  /-- The read is done, and its completion is queued unless the dispatcher's queue is full. -/
  | readFinished (seqNo : Nat) (pushed : Bool)
  /-- The executor takes the next completion. -/
  | drain
  /-- An error completion; `breaks` if its status asks for another route and the socket can switch. -/
  | readError (seqNo : Nat) (breaks : Bool)
  /-- The reader has consumed the message, and the slot is freed. -/
  | retire (seqNo : Nat)

/-- The slots of a connection by sequence number; `executor` is the message whose `IssueReadRequest` runs, `events`
are the numbers that the queued completions carry, and `broken` is the socket's state. -/
structure ReadSlots where
  slots : Nat → RxSlot
  executor : Option Nat
  events : List Nat
  broken : Bool

namespace ReadSlots

def new : ReadSlots := ⟨fun _ => ⟨.absent, false, false, 0, 0⟩, none, [], false⟩

variable (conn : ReadSlots)

def set (seqNo : Nat) (slot : RxSlot) : ReadSlots :=
  { conn with slots := update conn.slots seqNo slot }

/-- `SenderCRContext{READ_DATA_REQUEST, seq_no, fd}.seq_no`. -/
def crSeqNo (seqNo : Nat) : Nat := seqNo % 2 ^ 30

def processDataReadFinished (seqNo : Nat) : ReadSlots :=
  let slot := conn.slots seqNo
  if slot.state = .reading then conn.set seqNo { slot with state := .dataReady, moved := slot.moved + 1 } else conn

def step : ReadAction → ReadSlots
  | .dataReached seqNo =>
    let slot := conn.slots seqNo
    if conn.executor = none ∧ slot.state = .absent then
      { conn.set seqNo { slot with state := .issuing, blocksHeld := true } with executor := some seqNo }
    else conn
  | .post seqNo =>
    let slot := conn.slots seqNo
    if slot.state = .issuing then conn.set seqNo { slot with state := .posted, inFlight := true } else conn
  | .postFails seqNo posted =>
    let slot := conn.slots seqNo
    if slot.state = .issuing then
      { conn.set seqNo { slot with state := .absent, blocksHeld := false, inFlight := decide (0 < posted) } with
        executor := none }
    else conn
  | .storeReading seqNo =>
    let slot := conn.slots seqNo
    if slot.state = .posted then { conn.set seqNo { slot with state := .reading } with executor := none } else conn
  | .readFinished seqNo pushed =>
    let slot := conn.slots seqNo
    if slot.inFlight then
      { conn.set seqNo { slot with inFlight := false, finished := slot.finished + 1 } with
        events := if pushed then conn.events ++ [crSeqNo seqNo] else conn.events }
    else conn
  | .drain =>
    match conn.executor, conn.events with
    | none, seqNo :: events => { conn with events := events }.processDataReadFinished seqNo
    | _, _ => conn
  | .readError seqNo breaks =>
    let slot := conn.slots seqNo
    if slot.inFlight then
      { conn.set seqNo { slot with inFlight := false } with broken := conn.broken || breaks }
    else conn
  | .retire seqNo =>
    let slot := conn.slots seqNo
    if slot.state = .dataReady then conn.set seqNo { slot with state := .absent, blocksHeld := false } else conn

/-- A slot that waits has its read in flight or the completion queued, unless the socket is broken; a read in flight
has its blocks; and each successful completion that was handled has moved the slot, once. -/
structure Right (seqNo : Nat) : Prop where
  waits : (conn.slots seqNo).state = .reading →
    (conn.slots seqNo).inFlight = true ∨ seqNo ∈ conn.events ∨ conn.broken = true
  blocks : (conn.slots seqNo).inFlight = true → (conn.slots seqNo).blocksHeld = true
  moved : (conn.slots seqNo).moved + conn.events.count seqNo = (conn.slots seqNo).finished

/-- A sequence number has 30 bits, a post that fails has posted nothing, the dispatcher's queue is not full, and an
error breaks the connection. -/
def Careful : ReadAction → Prop
  | .dataReached seqNo => seqNo < 2 ^ 30
  | .postFails _ posted => posted = 0
  | .readFinished _ pushed => pushed = true
  | .readError _ breaks => breaks = true
  | _ => True

instance (action) : Decidable (Careful action) := by
  cases action <;> dsimp only [Careful] <;> infer_instance

end ReadSlots

/-- What the state of a slot says of the rest, with so many of its completions queued. -/
structure RxSlot.Inv (seqNo : Nat) (executor : Option Nat) (queued : Nat) (broken : Bool) (slot : RxSlot) : Prop where
  busy : slot.state = .issuing ∨ slot.state = .posted → executor = some seqNo
  waiting : slot.state = .posted ∨ slot.state = .reading → slot.inFlight = true ∨ 0 < queued ∨ broken = true
  once : slot.inFlight.toNat + queued ≤ 1
  due : slot.inFlight = true ∨ 0 < queued → slot.state = .posted ∨ slot.state = .reading
  small : slot.state ≠ .absent → seqNo < 2 ^ 30
  blocks : slot.state ≠ .absent → slot.blocksHeld = true
  moved : slot.moved + queued = slot.finished

variable {conn : ReadSlots} {slot : RxSlot} {broken : Bool} {executor : Option Nat} {seqNo other queued : Nat}

namespace RxSlot.Inv

variable (inv : slot.Inv seqNo executor queued broken)
include inv

/-- Nothing of the read is on its way before the post and after the move. -/
theorem idle (state : slot.state ≠ .posted ∧ slot.state ≠ .reading) : ¬ (slot.inFlight = true ∨ 0 < queued) :=
  fun due => (inv.due due).elim state.1 state.2

theorem present (due : slot.inFlight = true ∨ 0 < queued) : slot.state ≠ .absent := by
  rcases inv.due due with same | same <;> simp [same]

end RxSlot.Inv

namespace ReadSlots

def Inv (conn : ReadSlots) : Prop :=
  ∀ seqNo, (conn.slots seqNo).Inv seqNo conn.executor (conn.events.count seqNo) conn.broken

namespace Inv

theorem right (inv : conn.Inv) (seqNo : Nat) : conn.Right seqNo where
  waits reading := by simpa only [count_pos_iff] using (inv seqNo).waiting (.inr reading)
  blocks flying := (inv seqNo).blocks ((inv seqNo).present (.inl flying))
  moved := (inv seqNo).moved

theorem set (events : List Nat) (changed : slot.Inv seqNo executor (events.count seqNo) broken)
    (others : ∀ other ≠ seqNo, (conn.slots other).Inv other executor (events.count other) broken) :
    Inv ⟨update conn.slots seqNo slot, executor, events, broken⟩ := by
  intro other
  by_cases same : other = seqNo
  · subst same
    simpa using changed
  · simpa [same] using others other same

variable (inv : conn.Inv)
include inv

/-- While no `IssueReadRequest` runs, or the one of this slot, no other slot is in the middle of one. -/
theorem elsewhere (mine : conn.executor = none ∨ conn.executor = some seqNo) (ne : other ≠ seqNo) :
    (conn.slots other).Inv other executor (conn.events.count other) conn.broken :=
  { inv other with
    busy := fun state => by
      have busy := (inv other).busy state
      rcases mine with same | same <;> rw [same] at busy <;> cases busy
      exact absurd rfl ne }

/-- A successful completion that the executor takes finds its slot `READING`. -/
theorem reading_of_event (idle : conn.executor = none) (queued : seqNo ∈ conn.events) :
    (conn.slots seqNo).state = .reading := by
  refine ((inv seqNo).due (.inr (count_pos_iff.2 queued))).resolve_left fun posted => ?_
  cases idle.symm.trans ((inv seqNo).busy (.inr posted))

theorem dataReached (small : seqNo < 2 ^ 30) : (conn.step (.dataReached seqNo)).Inv := by
  refine guarded inv fun free => set conn.events ?_ fun other ne => inv.elsewhere (.inl free.1) ne
  have nothing := (inv seqNo).idle (by simp [free.2])
  exact ⟨fun _ => rfl, by simp, (inv seqNo).once, fun due => absurd due nothing, fun _ => small, fun _ => rfl,
    (inv seqNo).moved⟩

theorem post : (conn.step (.post seqNo)).Inv := by
  refine guarded inv fun issuing => set conn.events ?_ fun other _ => inv other
  have slot := inv seqNo
  have nothing := slot.idle (by simp [issuing])
  have present : (conn.slots seqNo).state ≠ .absent := by simp [issuing]
  exact ⟨fun _ => slot.busy (.inl issuing), fun _ => .inl rfl, by rw [Bool.toNat_true]; omega, fun _ => .inl rfl,
    fun _ => slot.small present, fun _ => slot.blocks present, slot.moved⟩

theorem postFails : (conn.step (.postFails seqNo 0)).Inv := by
  refine guarded inv fun issuing => set conn.events ?_ fun other ne =>
    inv.elsewhere (.inr ((inv seqNo).busy (.inl issuing))) ne
  have nothing := (inv seqNo).idle (by simp [issuing])
  exact ⟨by simp, by simp, by change 0 + conn.events.count seqNo ≤ 1; omega,
    fun due => absurd (.inr (due.resolve_left nofun)) nothing, by simp, by simp, (inv seqNo).moved⟩

theorem storeReading : (conn.step (.storeReading seqNo)).Inv := by
  refine guarded inv fun posted => set conn.events ?_ fun other ne =>
    inv.elsewhere (.inr ((inv seqNo).busy (.inr posted))) ne
  have slot := inv seqNo
  have present : (conn.slots seqNo).state ≠ .absent := by simp [posted]
  exact ⟨by simp, fun _ => slot.waiting (.inl posted), slot.once, fun _ => .inr rfl, fun _ => slot.small present,
    fun _ => slot.blocks present, slot.moved⟩

theorem readFinished : (conn.step (.readFinished seqNo true)).Inv := by
  refine guarded inv fun flying => ?_
  have slot := inv seqNo
  have small : crSeqNo seqNo = seqNo := Nat.mod_eq_of_lt (slot.small (slot.present (.inl flying)))
  have once := slot.once
  have moved := slot.moved
  rw [flying, Bool.toNat_true] at once
  rw [small, if_pos rfl]
  refine set (conn.events ++ [seqNo]) ?_ fun other ne => ?_
  · rw [count_append, count_singleton_self]
    exact ⟨slot.busy, fun _ => .inr (.inl (Nat.succ_pos _)), by simp; omega, fun _ => slot.due (.inl flying),
      slot.small, slot.blocks, by dsimp only; omega⟩
  · rw [count_append, count_singleton, if_neg (by simpa using ne.symm)]
    exact inv other

theorem drain : (conn.step .drain).Inv := by
  rw [step]
  split
  next seqNo events idle queue =>
    have reading := inv.reading_of_event idle (queue ▸ mem_cons_self)
    have slot := inv seqNo
    have once := slot.once
    have moved := slot.moved
    rw [queue, count_cons_self] at once moved
    have none : events.count seqNo = 0 := by omega
    have still : (conn.slots seqNo).inFlight = false := Bool.toNat_eq_zero.1 (by omega)
    have present : (conn.slots seqNo).state ≠ .absent := by simp [reading]
    rw [processDataReadFinished, if_pos reading]
    refine set events ?_ fun other ne => ?_
    · exact ⟨by simp, by simp, by rw [still, none]; decide, by rw [still, none]; nofun, fun _ => slot.small present,
        fun _ => slot.blocks present, by dsimp only; omega⟩
    · have kept := inv other
      rwa [queue, count_cons_of_ne ne.symm] at kept
  next => exact inv

theorem readError : (conn.step (.readError seqNo true)).Inv := by
  refine guarded inv fun flying => ?_
  have slot := inv seqNo
  have once := slot.once
  have broken : (conn.broken || true) = true := Bool.or_true _
  refine set conn.events ⟨slot.busy, fun _ => .inr (.inr broken), ?_, fun _ => slot.due (.inl flying), slot.small,
    slot.blocks, slot.moved⟩ fun other _ => { inv other with waiting := fun _ => .inr (.inr broken) }
  rw [Bool.toNat_false]
  omega

theorem retire : (conn.step (.retire seqNo)).Inv := by
  refine guarded inv fun ready => set conn.events ?_ fun other _ => inv other
  have nothing := (inv seqNo).idle (by simp [ready])
  exact ⟨by simp, by simp, (inv seqNo).once, fun due => absurd due nothing, by simp, by simp, (inv seqNo).moved⟩

theorem step {action : ReadAction} (careful : Careful action) : (conn.step action).Inv := by
  cases action with
  | dataReached seqNo => exact inv.dataReached careful
  | post seqNo => exact inv.post
  | postFails seqNo posted =>
    cases careful
    exact inv.postFails
  | storeReading seqNo => exact inv.storeReading
  | readFinished seqNo pushed =>
    cases careful
    exact inv.readFinished
  | drain => exact inv.drain
  | readError seqNo breaks =>
    cases careful
    exact inv.readError
  | retire seqNo => exact inv.retire

end Inv

end ReadSlots

end UbsComm.Urma.LargeRead
