import Mathlib.Algebra.Ring.Nat
import Mathlib.Data.List.Range

/-! # Broken endpoints of a channel

An endpoint finds its channel and its own index in the word `Ep2ChanUpCtx`, where the index
has five bits. -/

namespace UbsComm.Service

open Function

/-- `Ep2ChanUpCtx`: one bit `connected`, five bits `epIdx`, 58 bits `ptr`. -/
def ep2ChanUpCtx (connected ptr epIdx : Nat) : Nat := connected % 2 + 2 * (epIdx % 2 ^ 5) + 2 ^ 6 * (ptr % 2 ^ 58)

def upCtxEpIdx (wholeUpCtx : Nat) : Nat := wholeUpCtx / 2 % 2 ^ 5

def upCtxConnected (wholeUpCtx : Nat) : Nat := wholeUpCtx % 2

def upCtxPtr (wholeUpCtx : Nat) : Nat := wholeUpCtx / 2 ^ 6

inductive ChannelState where
  | established | closed

/-- What the handling of broken endpoints reads and writes: `epBroken` is `epState` being
`SER_EP_BROKEN`, `nepBroken` the endpoint's own state being `NEP_BROKEN`, and `ioProcessed`
and `handlerCalls` count `ProcessIoInBroken` and the calls of the user's handler. -/
structure Channel where
  address : Nat
  epSize : Nat
  upCtx : Nat → Nat
  epBroken : Nat → Bool
  nepBroken : Nat → Bool
  brokenProcessed : Bool
  state : ChannelState
  ioProcessed : Nat
  handlerCalls : Nat

namespace Channel

/-- A channel of `epSize` endpoints after `SetEpUpCtx`. -/
def connected (address epSize : Nat) : Channel where
  address := address
  epSize := epSize
  upCtx := fun i => ep2ChanUpCtx 1 address i
  epBroken := fun _ => false
  nepBroken := fun _ => false
  brokenProcessed := false
  state := .established
  ioProcessed := 0
  handlerCalls := 0

def setEpBroken (channel : Channel) (index : Nat) : Channel :=
  if index ≥ channel.epSize then channel else { channel with epBroken := update channel.epBroken index true }

def allEpBroken (channel : Channel) : Bool :=
  (List.range channel.epSize).all fun i => channel.epBroken i && channel.nepBroken i

/-- The driver has marked endpoint `i` as broken and calls `ServiceEndPointBroken`. -/
def serviceEndPointBroken (channel : Channel) (i : Nat) : Channel :=
  let channel := { channel with nepBroken := update channel.nepBroken i true }
  let wholeUpCtx := channel.upCtx i
  if upCtxConnected wholeUpCtx = 0 ∨ upCtxPtr wholeUpCtx ≠ channel.address then channel
  else
    let channel := channel.setEpBroken (upCtxEpIdx wholeUpCtx)
    if ¬ channel.allEpBroken then channel
    else if channel.brokenProcessed then channel
    else
      { channel with
        brokenProcessed := true
        state := .closed
        ioProcessed := channel.ioProcessed + 1
        handlerCalls := channel.handlerCalls + 1 }

/-- The event marks this endpoint and no other. -/
def MarksExactly (before : Channel) (i : Nat) (after : Channel) : Prop :=
  ∀ j < before.epSize, after.epBroken j = (before.epBroken j || j == i)

def after (address epSize : Nat) (events : List Nat) : Channel :=
  events.foldl serviceEndPointBroken (connected address epSize)

/-- Each event marks its own endpoint; the pending requests are failed and the handler is
called once, at the last event. -/
def EventsRight (address epSize : Nat) (order : List Nat) : Prop :=
  ∀ earlier i later, order = earlier ++ i :: later →
    MarksExactly (after address epSize earlier) i (after address epSize (earlier ++ [i])) ∧
      (after address epSize (earlier ++ [i])).handlerCalls = (if later = [] then 1 else 0) ∧
      (after address epSize (earlier ++ [i])).ioProcessed = if later = [] then 1 else 0

/-! ## Indices of five bits -/

variable {address epSize i : Nat} {events order : List Nat}

theorem upCtx_fields (small : address < 2 ^ 58) :
    upCtxConnected (ep2ChanUpCtx 1 address i) = 1 ∧ upCtxPtr (ep2ChanUpCtx 1 address i) = address ∧
      upCtxEpIdx (ep2ChanUpCtx 1 address i) = i % 2 ^ 5 := by
  simp only [upCtxConnected, upCtxPtr, upCtxEpIdx, ep2ChanUpCtx]
  omega

/-- The channel after a list of events, none of them for an endpoint with a larger index. -/
structure Broken (address epSize : Nat) (events : List Nat) (channel : Channel) : Prop where
  fixed : channel.address = address ∧ channel.epSize = epSize ∧ channel.upCtx = (ep2ChanUpCtx 1 address ·)
  nepBroken : ∀ j, channel.nepBroken j = decide (j ∈ events)
  epBroken : ∀ j < epSize, channel.epBroken j = decide (j ∈ events)
  processed : channel.brokenProcessed = decide (∀ j < epSize, j ∈ events)
  calls : channel.handlerCalls = channel.brokenProcessed.toNat ∧ channel.ioProcessed = channel.brokenProcessed.toNat

variable {channel : Channel}

theorem allEpBroken_iff : channel.allEpBroken ↔ ∀ j < channel.epSize, channel.epBroken j ∧ channel.nepBroken j := by
  simp [allEpBroken]

/-- The two marks of an event for endpoint `i`. -/
def mark (channel : Channel) (i : Nat) : Channel :=
  { channel with
    nepBroken := update channel.nepBroken i true, epBroken := update channel.epBroken i true }

section

variable (broken : Broken address epSize events channel)
include broken

theorem serviceEndPointBroken_eq (fits : address < 2 ^ 58) (few : epSize ≤ 32) (small : i < epSize) :
    channel.serviceEndPointBroken i =
      if (channel.mark i).allEpBroken ∧ ¬ channel.brokenProcessed then
        { channel.mark i with
          brokenProcessed := true
          state := .closed
          ioProcessed := channel.ioProcessed + 1
          handlerCalls := channel.handlerCalls + 1 }
      else channel.mark i := by
  obtain ⟨sameAddress, sameSize, sameCtx⟩ := broken.fixed
  obtain ⟨isConnected, isPtr, isIdx⟩ := @upCtx_fields address i fits
  have index : i % 2 ^ 5 = i := Nat.mod_eq_of_lt (by omega)
  simp only [serviceEndPointBroken, sameCtx, isIdx, index, setEpBroken, sameSize, if_neg (Nat.not_le.mpr small)]
  by_cases all : (channel.mark i).allEpBroken <;> by_cases done : channel.brokenProcessed <;> simp_all [mark]

theorem Broken.marked :
    (∀ j, (channel.mark i).nepBroken j = decide (j ∈ events ++ [i])) ∧
      ∀ j < epSize, (channel.mark i).epBroken j = decide (j ∈ events ++ [i]) := by
  constructor
  · intro j
    by_cases same : j = i <;> simp [mark, same, broken.nepBroken]
  · intro j inside
    by_cases same : j = i <;> simp [mark, same, broken.epBroken j inside]

theorem Broken.step (fits : address < 2 ^ 58)
    (few : epSize ≤ 32) (small : i < epSize) :
    Broken address epSize (events ++ [i]) (channel.serviceEndPointBroken i) := by
  obtain ⟨nepBroken, epBroken⟩ := Broken.marked (i := i) broken
  have all : (channel.mark i).allEpBroken ↔ ∀ j < epSize, j ∈ events ++ [i] := by
    rw [allEpBroken_iff, show (channel.mark i).epSize = epSize from broken.fixed.2.1]
    constructor
    · intro marked j inside
      exact of_decide_eq_true ((epBroken j inside).symm.trans (marked j inside).1)
    · intro mem j inside
      rw [epBroken j inside, nepBroken]
      exact ⟨decide_eq_true (mem j inside), decide_eq_true (mem j inside)⟩
  rw [serviceEndPointBroken_eq broken fits few small]
  split
  next fresh =>
    have none : channel.brokenProcessed = false := Bool.eq_false_iff.mpr fresh.2
    refine ⟨broken.fixed, nepBroken, epBroken, (decide_eq_true (all.mp fresh.1)).symm, ?_⟩
    simp [broken.calls, none]
  next old =>
    refine ⟨broken.fixed, nepBroken, epBroken, ?_, broken.calls⟩
    show channel.brokenProcessed = _
    rw [broken.processed]
    by_cases earlier : ∀ j < epSize, j ∈ events
    · rw [decide_eq_true earlier, decide_eq_true fun j inside => List.mem_append_left _ (earlier j inside)]
    · have notProcessed : ¬ channel.brokenProcessed := by
        rw [broken.processed]
        simpa using earlier
      rw [decide_eq_false earlier, decide_eq_false fun now => old ⟨all.mpr now, notProcessed⟩]

end

theorem broken_after (fits : address < 2 ^ 58) (few : epSize ≤ 32) (pos : 0 < epSize)
    (inside : ∀ j ∈ events, j < epSize) :
    Broken address epSize events (after address epSize events) := by
  induction events using List.reverseRecOn with
  | nil =>
    refine ⟨⟨rfl, rfl, rfl⟩, fun j => by simp [after, connected], fun j _ => by simp [after, connected], ?_, rfl, rfl⟩
    exact (decide_eq_false fun all => List.not_mem_nil (all 0 pos)).symm
  | append_singleton events i ih =>
    rw [after, List.foldl_append]
    apply Broken.step _ fits few (inside i (by simp))
    exact ih fun j mem => inside j (List.mem_append_left _ mem)

theorem eventsRight_of_few (fits : address < 2 ^ 58) (few : epSize ≤ 32) (all : order.Perm (List.range epSize)) :
    EventsRight address epSize order := by
  rintro earlier i later rfl
  have bounds : ∀ j ∈ earlier ++ i :: later, j < epSize := fun j mem => List.mem_range.mp (all.mem_iff.mp mem)
  have small : i < epSize := bounds i (by simp)
  have before :=
    @broken_after address epSize earlier fits few (by omega) fun j mem => bounds j (List.mem_append_left _ mem)
  have now := @broken_after address epSize (earlier ++ [i]) fits few (by omega) fun j mem => bounds j (by
    rw [List.mem_append] at mem ⊢
    exact mem.imp id fun isI => List.mem_cons.mpr (.inl (List.mem_singleton.mp isI)))
  -- the handling is due when no event is left
  have due : (after address epSize (earlier ++ [i])).brokenProcessed = decide (later = []) := by
    rw [now.processed]
    apply decide_eq_decide.mpr
    constructor
    · intro done
      by_contra left
      obtain ⟨next, mem⟩ := List.exists_mem_of_ne_nil later left
      have nodup := all.nodup_iff.mpr List.nodup_range
      rw [List.append_cons, List.nodup_append] at nodup
      exact nodup.2.2 next (done next (bounds next (by simp [mem]))) next mem rfl
    · rintro rfl j inside
      exact all.mem_iff.mpr (List.mem_range.mpr inside)
  refine ⟨fun j inside => ?_, ?_, ?_⟩
  · rw [before.fixed.2.1] at inside
    rw [now.epBroken j inside, before.epBroken j inside]
    by_cases mem : j ∈ earlier <;> simp [beq_eq_decide]
  · rw [now.calls.1, due]
    by_cases isLast : later = [] <;> simp [isLast]
  · rw [now.calls.2, due]
    by_cases isLast : later = [] <;> simp [isLast]

/-! ## Endpoints past the thirty-second -/

/-- No event marks an endpoint whose index needs a sixth bit. -/
structure Unmarked (address : Nat) (channel : Channel) : Prop where
  upCtx : channel.upCtx = (ep2ChanUpCtx 1 address ·)
  epBroken : ∀ j ≥ 32, channel.epBroken j = false

theorem Unmarked.step (unmarked : Unmarked address channel) (fits : address < 2 ^ 58) {i : Nat} :
    Unmarked address (channel.serviceEndPointBroken i) := by
  obtain ⟨isConnected, isPtr, isIdx⟩ := @upCtx_fields address i fits
  have kept : ∀ j ≥ 32, update channel.epBroken (i % 2 ^ 5) true j = false := fun j large => by
    rw [update_of_ne (by omega)]
    exact unmarked.epBroken j large
  simp only [serviceEndPointBroken, unmarked.upCtx, isIdx, setEpBroken]
  constructor
  · split_ifs <;> rfl
  · split_ifs
    all_goals first | exact unmarked.epBroken | exact kept

theorem unmarked_after (fits : address < 2 ^ 58) {events : List Nat} :
    Unmarked address (after address epSize events) := by
  induction events using List.reverseRecOn with
  | nil => exact ⟨rfl, fun _ _ => rfl⟩
  | append_singleton events i ih =>
    rw [after, List.foldl_append]
    exact ih.step fits

theorem serviceEndPointBroken_epSize {channel : Channel} {i : Nat} :
    (channel.serviceEndPointBroken i).epSize = channel.epSize := by
  simp only [serviceEndPointBroken, setEpBroken]
  split_ifs <;> rfl

theorem after_epSize {events : List Nat} : (after address epSize events).epSize = epSize := by
  induction events using List.reverseRecOn with
  | nil => rfl
  | append_singleton events i ih =>
    rw [after, List.foldl_append]
    exact serviceEndPointBroken_epSize.trans ih

theorem few_of_eventsRight (fits : address < 2 ^ 58) (all : order.Perm (List.range epSize))
    (right : EventsRight address epSize order) : epSize ≤ 32 := by
  by_contra many
  have mem : 32 ∈ order := all.mem_iff.mpr (List.mem_range.mpr (Nat.not_le.mp many))
  obtain ⟨earlier, later, split⟩ := List.append_of_mem mem
  have marks := (right earlier 32 later split).1 32 (by rw [after_epSize]; omega)
  rw [(unmarked_after fits).epBroken 32 (Nat.le_refl _)] at marks
  simp at marks

/-- A channel handles the breaking of its endpoints right, in whatever order they break, exactly
when it has no more than 32 of them; a connection may ask for 64. -/
theorem eventsRight_iff (address n : Nat) (order : List Nat) (fits : address < 2 ^ 58)
    (all : order.Perm (List.range n)) : EventsRight address n order ↔ n ≤ 32 :=
  ⟨few_of_eventsRight fits all, fun few => eventsRight_of_few fits few all⟩

theorem eventsRight_two : EventsRight 4096 2 [1, 0] :=
  (eventsRight_iff 4096 2 [1, 0] (by decide) (by decide)).mpr (by decide)

/-- All 33 endpoints have broken, the last of them is not marked, and the handler has not been
called. -/
theorem eventsRight_thirtyThree :
    (List.range 33).Perm (List.range 33) ∧ ¬ EventsRight 4096 33 (List.range 33) ∧
      (after 4096 33 (List.range 33)).epBroken 32 = false ∧ (after 4096 33 (List.range 33)).handlerCalls = 0 := by
  refine ⟨.refl _, fun right => ?_, by decide +kernel, by decide +kernel⟩
  exact absurd (few_of_eventsRight (by decide) (.refl _) right) (by decide)

end Channel

end UbsComm.Service
