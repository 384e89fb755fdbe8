import UbsComm.Library.Run
import Mathlib.Logic.Function.Basic

/-! # A synchronous send in fragments

The callback of every fragment refers to an object on the stack of the call.  The callbacks are
run by other threads, and only that of the last fragment wakes the caller. -/

namespace UbsComm.Service

open Library Function

/-- The callback of a fragment: another thread that has taken the sequence number of its timer will
run it. -/
inductive FragmentCallback where
  | absent
  | registered
  | taken
  | consumed
  deriving DecidableEq

inductive SplitPhase where
  | prepare
  | post
  | wait
  | returned
  deriving DecidableEq

/-- `SyncSendSplitWithWorkerPoll` at fragment `segIndex`; `ranAfterReturn` says that a callback was
run after the call had returned. -/
structure SyncSplit where
  fragmentNum : Nat
  segIndex : Nat
  phase : SplitPhase
  callbacks : Nat → FragmentCallback
  signaled : Bool
  ranAfterReturn : Bool

/-- `take` is a completion, a timeout or a broken channel getting the sequence number of the
fragment's timer, and `run` the same thread running the callback. -/
inductive SplitAction where
  | allocFails
  | prepareFails
  | prepare
  | post
  | postFails
  | take (fragment : Nat)
  | run (fragment : Nat)
  | wake

namespace SyncSplit

def initial (fragmentNum : Nat) : SyncSplit where
  fragmentNum := fragmentNum
  segIndex := 0
  phase := .prepare
  callbacks := fun _ => .absent
  signaled := false
  ranAfterReturn := false

variable (call : SyncSplit)

def setCallback (fragment : Nat) (callback : FragmentCallback) : SyncSplit :=
  { call with callbacks := update call.callbacks fragment callback }

def step : SplitAction → SyncSplit
  | .allocFails | .prepareFails => if call.phase = .prepare then { call with phase := .returned } else call
  | .prepare =>
    if call.phase = .prepare then { call.setCallback call.segIndex .registered with phase := .post } else call
  | .post =>
    if call.phase = .post then
      { call with
        segIndex := call.segIndex + 1
        phase := if call.segIndex + 1 < call.fragmentNum then .prepare else .wait }
    else call
  | .postFails =>
    -- `DestroyTimerContext` destroys the callback unless the timer has been taken
    if call.phase = .post then
      if call.callbacks call.segIndex = .registered then
        { call.setCallback call.segIndex .consumed with phase := .returned }
      else { call with phase := .returned }
    else call
  | .take fragment => if call.callbacks fragment = .registered then call.setCallback fragment .taken else call
  | .run fragment =>
    if call.callbacks fragment = .taken then
      { call.setCallback fragment .consumed with
        signaled := call.signaled || fragment + 1 = call.fragmentNum
        ranAfterReturn := call.ranAfterReturn || call.phase = .returned }
    else call
  | .wake => if call.phase = .wait ∧ call.signaled then { call with phase := .returned } else call

def Fails : SplitAction → Prop
  | .allocFails | .prepareFails => call.phase = .prepare
  | .postFails => call.phase = .post
  | .prepare | .post | .take _ | .run _ | .wake => False

/-- Whatever the other threads do from here, no callback runs after the return. -/
def NoLateRun : Prop :=
  ∀ finish, Run SyncSplit.step (fun _ _ => True) call finish → finish.ranAfterReturn = false

/-- The callbacks of the earlier fragments have been run, and no thread is about to run that of
this one. -/
def EarlierDone : Prop :=
  (∀ fragment < call.segIndex, call.callbacks fragment = .consumed) ∧ call.callbacks call.segIndex ≠ .taken

/-! ## What holds before the return -/

variable {call} {fragmentNum : Nat} {callback : FragmentCallback}

structure Sending (call : SyncSplit) : Prop where
  later : ∀ fragment > call.segIndex, call.callbacks fragment = .absent
  current : call.phase ≠ .post → call.phase ≠ .returned → call.callbacks call.segIndex = .absent
  posting : call.phase = .post → call.callbacks call.segIndex ≠ .absent
  earlier : ∀ fragment < call.segIndex, call.callbacks fragment ≠ .absent
  early : call.phase ≠ .returned → call.ranAfterReturn = false

theorem sending_initial : Sending (initial fragmentNum) where
  later := fun _ _ => rfl
  current := fun _ _ => rfl
  posting := nofun
  earlier := fun _ none => absurd none (Nat.not_lt_zero _)
  early := fun _ => rfl

theorem update_ne_absent {callbacks : Nat → FragmentCallback} {fragment other : Nat}
    (before : callbacks other ≠ .absent) (new : callback ≠ .absent) :
    update callbacks fragment callback other ≠ .absent := by
  by_cases same : other = fragment
  · rwa [same, update_self]
  · rwa [update_of_ne same]

/-- Another thread changes a callback that is there. -/
theorem Sending.setCallback (sending : Sending call) {fragment : Nat}
    (there : call.callbacks fragment ≠ .absent) (new : callback ≠ .absent) :
    Sending (call.setCallback fragment callback) where
  later := fun other after => by
    have absent := sending.later other after
    have ne : other ≠ fragment := fun same => there (same ▸ absent)
    exact (update_of_ne ne _ _).trans absent
  current := fun notPost notReturned => by
    have absent := sending.current notPost notReturned
    have ne : call.segIndex ≠ fragment := fun same => there (same ▸ absent)
    exact (update_of_ne ne _ _).trans absent
  posting := fun posting => update_ne_absent (sending.posting posting) new
  earlier := fun other before => update_ne_absent (sending.earlier other before) new
  early := sending.early

theorem Sending.return (sending : Sending call) : Sending { call with phase := .returned } where
  later := sending.later
  current := fun _ isReturned => absurd rfl isReturned
  posting := nofun
  earlier := sending.earlier
  early := fun isReturned => absurd rfl isReturned

theorem Sending.step (sending : Sending call) {action : SplitAction} : Sending (call.step action) := by
  cases action with
  | allocFails | prepareFails | wake =>
    exact guarded sending fun _ => sending.return
  | prepare =>
    exact guarded sending fun preparing =>
      { later := fun other after => (update_of_ne (Nat.ne_of_gt after) _ _).trans (sending.later other after)
        current := fun notPost => absurd rfl notPost
        posting := fun _ => by
          show update call.callbacks call.segIndex .registered call.segIndex ≠ .absent
          rw [update_self]
          decide
        earlier := fun other before => update_ne_absent (sending.earlier other before) (by decide)
        early := fun _ => sending.early (by rw [preparing]; decide) }
  | post =>
    exact guarded sending fun posting =>
      { later := fun other after => sending.later other (Nat.lt_of_succ_lt after)
        current := fun _ _ => sending.later _ (Nat.lt_succ_self _)
        posting := fun isPost => by
          split at isPost <;> exact nomatch isPost
        earlier := fun other before => by
          rcases Nat.lt_or_eq_of_le (Nat.le_of_lt_succ before) with less | same
          · exact sending.earlier other less
          · exact same ▸ sending.posting posting
        early := fun _ => sending.early (by rw [posting]; decide) }
  | postFails =>
    refine guarded sending fun posting => ?_
    exact guarded sending.return fun _ => (sending.setCallback (sending.posting posting) (by decide)).return
  | take fragment =>
    exact guarded sending fun registered => sending.setCallback (by rw [registered]; decide) (by decide)
  | run fragment =>
    exact guarded sending fun taken =>
      { sending.setCallback (by rw [taken]; decide) (by decide) with
        early := fun notReturned => by
          rw [sending.early notReturned]
          exact decide_eq_false notReturned }

/-! ## What can happen after the return -/

def Settled (call : SyncSplit) : Prop :=
  ∀ fragment, call.callbacks fragment ≠ .registered ∧ call.callbacks fragment ≠ .taken

theorem noLateRun_of_settled (isReturned : call.phase = .returned) (settled : Settled call)
    (early : call.ranAfterReturn = false) : NoLateRun call := by
  have still : ∀ action, call.step action = call := by
    intro action
    cases action with
    | allocFails | prepareFails | prepare | post | postFails => exact if_neg (by rw [isReturned]; decide)
    | take fragment => exact if_neg (settled fragment).1
    | run fragment => exact if_neg (settled fragment).2
    | wake => exact if_neg (by rw [isReturned]; simp)
  intro finish run
  have same : call = finish := by
    apply run.invariant rfl
    rintro state action rfl _
    exact (still action).symm
  rw [← same, early]

theorem settled_of_noLateRun (isReturned : call.phase = .returned) (noLateRun : NoLateRun call) : Settled call := by
  have runs : ∀ state : SyncSplit, ∀ fragment, state.phase = .returned → state.callbacks fragment = .taken →
      (state.step (.run fragment)).ranAfterReturn = true := by
    intro state fragment returned taken
    rw [SyncSplit.step, if_pos taken]
    simp [returned]
  refine fun fragment => ⟨fun registered => ?_, fun taken => ?_⟩
  · have late := noLateRun _ ((Run.refl.snoc (.take fragment) trivial).snoc (.run fragment) trivial)
    rw [runs _ fragment] at late
    · exact nomatch late
    · rw [SyncSplit.step, if_pos registered]
      exact isReturned
    · rw [SyncSplit.step, if_pos registered]
      exact update_self ..
  · have late := noLateRun _ (Run.refl.snoc (.run fragment) trivial)
    rw [runs _ fragment isReturned taken] at late
    exact nomatch late

theorem noLateRun_return_iff (early : call.ranAfterReturn = false) :
    NoLateRun { call with phase := .returned } ↔ Settled call := by
  constructor
  · intro noLateRun
    have settled := settled_of_noLateRun rfl noLateRun
    exact settled
  · intro settled
    exact noLateRun_of_settled rfl settled early

/-- The callbacks of the fragments that were sent decide. -/
theorem Sending.settled_iff (sending : Sending call)
    (current : call.callbacks call.segIndex ≠ .registered ∧ call.callbacks call.segIndex ≠ .taken) :
    Settled call ↔ ∀ fragment < call.segIndex, call.callbacks fragment = .consumed := by
  constructor
  · intro settled fragment before
    have present := sending.earlier fragment before
    have := settled fragment
    cases state : call.callbacks fragment <;> simp_all
  · intro consumed fragment
    rcases Nat.lt_trichotomy fragment call.segIndex with before | same | after
    · rw [consumed fragment before]
      decide
    · rwa [same]
    · rw [sending.later fragment after]
      decide

/-- When a synchronous split send fails, at whatever fragment and after whatever the other threads
have done, no callback can run after the return exactly when the callbacks of all earlier fragments
have been run and no thread holds that of the failing one. -/
theorem noLateRun_iff_earlierDone (fragmentNum : Nat) (call : SyncSplit)
    (run : Run SyncSplit.step (fun _ _ => True) (initial fragmentNum) call) (action : SplitAction)
    (fails : call.Fails action) :
    NoLateRun (call.step action) ↔ EarlierDone call := by
  have sending : Sending call := run.invariant sending_initial fun _ action sending _ => sending.step
  cases action with
  | allocFails | prepareFails =>
    change call.phase = .prepare at fails
    have early := sending.early (by rw [fails]; decide)
    have absent := sending.current (by rw [fails]; decide) (by rw [fails]; decide)
    rw [SyncSplit.step, if_pos fails, noLateRun_return_iff early, sending.settled_iff (by rw [absent]; decide)]
    simp [EarlierDone, absent]
  | postFails =>
    change call.phase = .post at fails
    have early := sending.early (by rw [fails]; decide)
    rw [SyncSplit.step, if_pos fails]
    split
    next registered =>
      have destroyed : Sending (call.setCallback call.segIndex .consumed) :=
        sending.setCallback (by rw [registered]; decide) (by decide)
      have current : (call.setCallback call.segIndex .consumed).callbacks call.segIndex = .consumed := update_self ..
      have decided : NoLateRun { call.setCallback call.segIndex .consumed with phase := .returned } ↔ _ :=
        (@noLateRun_return_iff (call.setCallback call.segIndex .consumed) early).trans (destroyed.settled_iff (by
          rw [show (call.setCallback call.segIndex .consumed).segIndex = call.segIndex from rfl, current]
          decide))
      have same : ∀ fragment < call.segIndex, (call.setCallback call.segIndex .consumed).callbacks fragment =
          call.callbacks fragment := fun fragment before => update_of_ne (Nat.ne_of_lt before) _ _
      simp only [EarlierDone, registered, ne_eq, reduceCtorEq, not_false_eq_true, and_true]
      exact decided.trans (forall₂_congr fun fragment before => by rw [same fragment before])
    next gone =>
      rw [noLateRun_return_iff early]
      by_cases taken : call.callbacks call.segIndex = .taken
      · exact iff_of_false (fun settled => (settled call.segIndex).2 taken) fun done => done.2 taken
      · rw [sending.settled_iff ⟨gone, taken⟩]
        simp [EarlierDone, taken]
  | prepare | post | take _ | run _ | wake => exact fails.elim

/-- The first fragment was sent and its callback run; the second cannot be posted. -/
def firstDone : List SplitAction := [.prepare, .post, .take 0, .run 0, .prepare]

theorem noLateRun_firstDone : NoLateRun ((firstDone.foldl SyncSplit.step (initial 2)).step .postFails) := by
  have reached : Run SyncSplit.step (fun _ _ => True) (initial 2) (firstDone.foldl SyncSplit.step (initial 2)) :=
    .ofList ⟨trivial, trivial, trivial, trivial, trivial, trivial⟩
  refine (noLateRun_iff_earlierDone 2 _ reached .postFails rfl).mpr ⟨fun fragment before => ?_, by decide⟩
  have isFirst : fragment = 0 := Nat.lt_one_iff.mp before
  rw [isFirst]
  rfl

/-- The second fragment cannot be posted while the first is under way, and the first completes
after the return. -/
def secondFails : List SplitAction := [.prepare, .post, .prepare, .postFails, .take 0, .run 0]

theorem secondFails_runs_late :
    ((secondFails.take 4).foldl SyncSplit.step (initial 2)).phase = .returned ∧
      (secondFails.foldl SyncSplit.step (initial 2)).ranAfterReturn = true ∧
      ¬ NoLateRun ((secondFails.take 4).foldl SyncSplit.step (initial 2)) := by
  have late : (secondFails.foldl SyncSplit.step (initial 2)).ranAfterReturn = true := by decide
  refine ⟨by decide, late, fun noLateRun => ?_⟩
  have run : Run SyncSplit.step (fun _ _ => True) ((secondFails.take 4).foldl SyncSplit.step (initial 2))
      (secondFails.foldl SyncSplit.step (initial 2)) :=
    (Run.refl.snoc (SplitAction.take 0) trivial).snoc (SplitAction.run 0) trivial
  rw [noLateRun _ run] at late
  exact nomatch late

end SyncSplit

end UbsComm.Service
