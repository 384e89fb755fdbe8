import Mathlib.Data.List.Basic

/-! # Choosing an endpoint for a request

The endpoints of a channel stand in one array, rail behind rail.  A request starts at a cursor that all
requests of its rail share and goes around the rail until it meets an endpoint that is not broken. -/

namespace UbsComm.Service

inductive UBSHcomChannelState where
  | new | established | close | destroy
  deriving DecidableEq

inductive ServiceEpState where
  | established | broken | establishedOccupied | establishedUnoccupied
  deriving DecidableEq

/-- What `NextWorkerPollEp` reads.  An endpoint is the number that stands for its address; `InitializeEp`
has filled the array up to `epSize`, a 16-bit number. -/
structure WorkerPoll where
  chState : UBSHcomChannelState
  epSize : Nat
  driverNum : Nat
  epState : Nat → ServiceEpState
  epArr : Nat → Option Nat
  filled : ∀ index < epSize, (epArr index).isSome

/-- `aborted` stands for a division by zero. -/
inductive PollChoice where
  | ok (ep : Nat)
  | notEstablished
  | aborted
  deriving DecidableEq

namespace WorkerPoll

variable (channel : WorkerPoll)

def railSize : Nat := channel.epSize / channel.driverNum

/-- The index for a value of the cursor.  It is below `epSize`, so 16 bits hold it. -/
def place (dvrIdx cursor : Nat) : Nat :=
  cursor % channel.railSize + dvrIdx * channel.railSize

/-- The loop, from `tmpIndex` and `count` on.  It runs at most `railSize` times. -/
def probe (channel : WorkerPoll) (dvrIdx : Nat) : Nat → Nat → Nat → Nat × Nat
  | 0, tmpIndex, count => (tmpIndex, count)
  | fuel + 1, tmpIndex, count =>
    if channel.epState tmpIndex = .broken ∧ count < channel.railSize then
      channel.probe dvrIdx fuel (channel.place dvrIdx (tmpIndex + 1)) (count + 1)
    else (tmpIndex, count)

/-- `cursor` is the value of `mEpChoosingIdx[dvrIdx]` before the call, any 16-bit number. -/
def nextWorkerPollEp (dvrIdx cursor : Nat) : PollChoice :=
  if channel.chState ≠ .established then .notEstablished
  else if channel.driverNum = 0 ∨ channel.railSize = 0 then .aborted
  else
    let (tmpIndex, count) := channel.probe dvrIdx channel.railSize (channel.place dvrIdx cursor) 0
    if count > channel.epSize then .notEstablished
    else
      match channel.epArr tmpIndex with
      | none => .notEstablished
      | some ep => .ok ep

/-- The endpoint with this index belongs to the rail and is not broken. -/
def Usable (dvrIdx index : Nat) : Prop :=
  dvrIdx * channel.railSize ≤ index ∧ index < (dvrIdx + 1) * channel.railSize ∧ channel.epState index ≠ .broken

/-- What is chosen is usable, and something is chosen if the channel is established and the rail has a
usable endpoint. -/
def ChoiceRight (dvrIdx cursor : Nat) : Prop :=
  (∀ ep, channel.nextWorkerPollEp dvrIdx cursor = .ok ep →
    ∃ index, channel.Usable dvrIdx index ∧ channel.epArr index = some ep) ∧
  (channel.chState = .established → (∃ index, channel.Usable dvrIdx index) →
    ∃ ep, channel.nextWorkerPollEp dvrIdx cursor = .ok ep)

variable {channel} {dvrIdx cursor count : Nat}

/-- One turn of the loop is a step of the cursor. -/
theorem place_place : channel.place dvrIdx (channel.place dvrIdx cursor + 1) = channel.place dvrIdx (cursor + 1) := by
  have same : (channel.place dvrIdx cursor + 1) % channel.railSize = (cursor + 1) % channel.railSize := by
    rw [place, Nat.add_right_comm, Nat.add_mul_mod_self_right, Nat.mod_add_mod]
  rw [place, same, place]

/-- The cursor comes to every endpoint of the rail within one round. -/
theorem Usable.exists_place {index : Nat} (usable : channel.Usable dvrIdx index) :
    ∃ turn < channel.railSize, channel.place dvrIdx (cursor + turn) = index := by
  obtain ⟨above, below, -⟩ := usable
  obtain ⟨inner, rfl⟩ := Nat.exists_eq_add_of_le above
  rw [Nat.succ_mul, Nat.add_lt_add_iff_left] at below
  have start := Nat.mod_lt cursor (Nat.zero_lt_of_lt below)
  refine ⟨(inner + (channel.railSize - cursor % channel.railSize)) % channel.railSize,
    Nat.mod_lt _ (Nat.zero_lt_of_lt below), ?_⟩
  have around : cursor % channel.railSize + (inner + (channel.railSize - cursor % channel.railSize)) =
      inner + channel.railSize := by omega
  rw [place, Nat.add_mod_mod, ← Nat.mod_add_mod, around, Nat.add_mod_right, Nat.mod_eq_of_lt below, Nat.add_comm]

/-- The loop ends at the first endpoint that is not broken, or after a whole round. -/
theorem probe_spec (fuel : Nat) (enough : count + fuel = channel.railSize) :
    ∃ turns ≤ fuel, channel.probe dvrIdx fuel (channel.place dvrIdx cursor) count =
        (channel.place dvrIdx (cursor + turns), count + turns) ∧
      (∀ turn < turns, channel.epState (channel.place dvrIdx (cursor + turn)) = .broken) ∧
      (turns < fuel → channel.epState (channel.place dvrIdx (cursor + turns)) ≠ .broken) := by
  induction fuel generalizing cursor count with
  | zero => exact ⟨0, Nat.le_refl _, rfl, nofun, nofun⟩
  | succ fuel ih =>
    by_cases broken : channel.epState (channel.place dvrIdx cursor) = .broken
    · obtain ⟨turns, few, ends, passed, stops⟩ := @ih (cursor + 1) (count + 1) (by omega)
      simp only [Nat.add_assoc, Nat.add_comm 1] at ends passed stops
      refine ⟨turns + 1, by omega, ?_, ?_, fun short => stops (by omega)⟩
      · rw [probe, if_pos ⟨broken, by omega⟩, place_place, ends]
      · intro turn early
        cases turn with
        | zero => exact broken
        | succ turn => exact passed turn (by omega)
    · refine ⟨0, Nat.zero_le _, ?_, nofun, fun _ => broken⟩
      rw [probe, if_neg fun both => broken both.1]
      rfl

/-- The count never passes the test for "all broken": an established channel always returns an endpoint. -/
theorem nextWorkerPollEp_established (rail : dvrIdx < channel.driverNum) (established : channel.chState = .established)
    (nonempty : channel.railSize ≠ 0) :
    ∃ index ep, channel.nextWorkerPollEp dvrIdx cursor = .ok ep ∧ channel.epArr index = some ep ∧
      ((∃ other, channel.Usable dvrIdx other) → channel.Usable dvrIdx index) := by
  obtain ⟨turns, few, ends, passed, stops⟩ := @probe_spec channel dvrIdx cursor 0 channel.railSize (Nat.zero_add _)
  have inside := Nat.mod_lt (cursor + turns) (Nat.pos_of_ne_zero nonempty)
  have above : dvrIdx * channel.railSize ≤ channel.place dvrIdx (cursor + turns) := Nat.le_add_left ..
  have below : channel.place dvrIdx (cursor + turns) < (dvrIdx + 1) * channel.railSize := by
    rw [place, Nat.succ_mul]
    omega
  have whole : (dvrIdx + 1) * channel.railSize ≤ channel.epSize :=
    Nat.le_trans (Nat.mul_le_mul_right _ rail) (Nat.mul_div_le ..)
  obtain ⟨ep, found⟩ := Option.isSome_iff_exists.mp (channel.filled _ (Nat.lt_of_lt_of_le below whole))
  have small : ¬ 0 + turns > channel.epSize := by
    rw [Nat.succ_mul] at whole
    omega
  refine ⟨_, ep, ?_, found, ?_⟩
  · rw [nextWorkerPollEp, if_neg (not_not.mpr established), if_neg (by omega), ends]
    simp only [if_neg small, found]
  · rintro ⟨other, usable⟩
    obtain ⟨turn, short, rfl⟩ := @usable.exists_place _ _ cursor
    refine ⟨above, below, ?_⟩
    rcases Nat.lt_or_ge turns channel.railSize with early | late
    · exact stops early
    · exact absurd (passed turn (by omega)) usable.2.2

/-- The choice is right just when there is something to choose, or nothing is chosen anyway. -/
theorem nextWorkerPollEp_right_iff (rail : dvrIdx < channel.driverNum) (cursor : Nat) :
    channel.ChoiceRight dvrIdx cursor ↔
      (channel.chState = .established → channel.railSize ≠ 0 → ∃ index, channel.Usable dvrIdx index) := by
  by_cases ready : channel.chState = .established ∧ channel.railSize ≠ 0
  · obtain ⟨index, ep, chosen, found, usable⟩ :=
      @nextWorkerPollEp_established channel dvrIdx cursor rail ready.1 ready.2
    constructor
    · rintro ⟨sound, -⟩ _ _
      obtain ⟨index, usable, -⟩ := sound ep chosen
      exact ⟨index, usable⟩
    · refine fun live => ⟨fun other same => ?_, fun _ _ => ⟨ep, chosen⟩⟩
      cases chosen.symm.trans same
      exact ⟨index, usable (live ready.1 ready.2), found⟩
  · refine iff_of_true ⟨fun ep chosen => ?_, ?_⟩ fun established nonempty => absurd ⟨established, nonempty⟩ ready
    · rw [nextWorkerPollEp] at chosen
      split at chosen
      · cases chosen
      · rw [if_pos (by tauto)] at chosen
        cases chosen
    · rintro established ⟨index, above, below, -⟩
      rw [not_and, not_not] at ready
      rw [ready established] at below
      omega

/-- Two rails of two endpoints; those of the first rail are broken. -/
def firstRailBroken : WorkerPoll where
  chState := .established
  epSize := 4
  driverNum := 2
  epState := fun index => if index < 2 then .broken else .established
  epArr := fun index => if index < 4 then some (100 + index) else none
  filled := by decide

theorem nextWorkerPollEp_right_secondRail : firstRailBroken.ChoiceRight 1 7 :=
  (nextWorkerPollEp_right_iff (by decide) 7).mpr fun _ _ => ⟨2, by decide, by decide, by decide⟩

/-- A broken endpoint is returned with OK. -/
theorem nextWorkerPollEp_all_broken :
    firstRailBroken.nextWorkerPollEp 0 7 = .ok 101 ∧ firstRailBroken.epState 1 = .broken ∧
      ¬ firstRailBroken.ChoiceRight 0 7 := by
  refine ⟨by decide, by decide, fun right => ?_⟩
  obtain ⟨index, ⟨-, below, usable⟩, -⟩ := right.1 101 (by decide)
  have small : index < 2 := below
  exact usable (if_pos small)

end WorkerPoll

end UbsComm.Service
