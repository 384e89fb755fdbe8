import UbsComm.Library.Run

/-! # An asynchronous one-sided operation over several rails

All rails share one counting callback.  Each rail runs it when it finishes, rails that were never
posted are made up for by the caller, and the run that completes the count runs the user's
callback with its own result and frees the counting one.  With one rail the user's callback is
used itself.  `Put` and `Get` make the whole operation again, with the same user's callback, when
it returns `SER_NEW_OBJECT_FAILED` and time is left. -/

namespace UbsComm.Service

open Library List

inductive RailLoop where
  /-- About to choose an endpoint for the next rail. -/
  | choose
  /-- The timer of the next rail is registered, the post is to come. -/
  | post
  /-- `ProcessRemainCallback` with this many runs to go. -/
  | remain (count : Nat)
  | returned
  deriving DecidableEq

/-- The operation: the rails whose timer holds the callback, how often the counting callback has
run, whether it is freed, and the results that the user's callback was run with.  `misused` says
that a freed callback was run, `failed` that a rail failed or was not posted, and `retry` that the
operation is to be made again. -/
structure AsyncRails where
  multiNum : Nat
  next : Nat
  loop : RailLoop
  holding : List Nat
  runTime : Nat
  freed : Bool
  userRuns : List Bool
  misused : Bool
  failed : Bool
  retry : Bool

inductive RailAction where
  | chooseFails
  /-- `retry` for `SER_NEW_OBJECT_FAILED` with time left when the operation has returned. -/
  | prepareFails (retry : Bool)
  | prepare
  | post
  | postFails
  | remainStep
  | finish (rail : Nat) (ok : Bool)

namespace AsyncRails

def initial (multiNum : Nat) : AsyncRails where
  multiNum := multiNum
  next := 0
  loop := .choose
  holding := []
  runTime := 0
  freed := false
  userRuns := []
  misused := false
  failed := false
  retry := false

variable (rails : AsyncRails)

/-- `Run` of the shared callback. -/
def runCallback (ok : Bool) : AsyncRails :=
  if rails.freed then { rails with misused := true }
  else if rails.runTime + 1 < rails.multiNum then { rails with runTime := rails.runTime + 1 }
  else { rails with runTime := rails.runTime + 1, userRuns := rails.userRuns ++ [ok], freed := true }

/-- Endpoint choice or timer preparation failed at rail `next`. -/
def compensate (retry : Bool) : AsyncRails :=
  { rails with loop := .remain (rails.multiNum - rails.next), failed := true, retry := retry }

def advance : AsyncRails :=
  { rails with next := rails.next + 1, loop := if rails.next + 1 < rails.multiNum then .choose else .returned }

def step : RailAction → AsyncRails
  | .chooseFails => if rails.loop = .choose then rails.compensate false else rails
  | .prepareFails retry => if rails.loop = .choose then rails.compensate retry else rails
  | .prepare =>
    if rails.loop = .choose then { rails with loop := .post, holding := rails.next :: rails.holding } else rails
  | .post => if rails.loop = .post then rails.advance else rails
  | .postFails =>
    -- `DestroyTimerContext`: the callback is deleted unless the timer has been finished already
    if rails.loop = .post then
      { rails with
        loop := .returned
        holding := rails.holding.erase rails.next
        freed := rails.freed || rails.next ∈ rails.holding
        failed := true }
    else rails
  | .remainStep =>
    match rails.loop with
    | .remain (count + 1) => { rails.runCallback false with loop := .remain count }
    | .remain 0 => { rails with loop := .returned }
    | .choose | .post | .returned => rails
  | .finish rail ok =>
    if rail ∈ rails.holding then
      { rails.runCallback ok with holding := rails.holding.erase rail, failed := rails.failed || !ok }
    else rails

def Finished : Prop := rails.loop = .returned ∧ rails.holding = []

/-- No post fails, no timer fires before its rail is posted, the rail that finishes last does not
succeed when another one has failed, and no preparation fails such that the operation is made again. -/
def Smooth : RailAction → Prop
  | .postFails => rails.loop ≠ .post
  | .finish rail ok =>
    (rails.loop = .post → rail ≠ rails.next) ∧ (ok → rails.failed → rails.runTime + 1 < rails.multiNum)
  | .prepareFails retry => retry = false
  | .chooseFails | .prepare | .post | .remainStep => True

instance (action : RailAction) : Decidable (rails.Smooth action) := by
  cases action <;> dsimp only [Smooth] <;> infer_instance

end AsyncRails

/-- A call of `Put` or `Get`: its operations, the latest first.  Rails of an earlier one may still be
under way. -/
abbrev OneSideCall := List AsyncRails

inductive OneSideAction where
  | rails (operation : Nat) (action : RailAction)
  /-- `continue` in the loop of `Put` or `Get`. -/
  | again

namespace OneSideCall

variable (call : OneSideCall)

def step : OneSideAction → OneSideCall
  | .rails operation action => call.modify operation (·.step action)
  | .again =>
    match call with
    | [] => call
    | rails :: _ => if rails.loop = .returned ∧ rails.retry then .initial rails.multiNum :: call else call

def userRuns : List Bool := call.flatMap AsyncRails.userRuns

/-- The user's callback runs at most once and not before the last posted rail has finished, once
everything has finished it has run, a success is reported only if every rail succeeded, and the
shared callback is not freed while a rail refers to it. -/
structure Right : Prop where
  once : call.userRuns.length ≤ 1
  last : call.userRuns ≠ [] → ∀ rails ∈ call, rails.holding = [] ∧ rails.loop ≠ .choose ∧ rails.loop ≠ .post
  finished : (∀ rails ∈ call, rails.Finished) → (∀ rails ∈ call.head?, rails.retry = false) → call.userRuns.length = 1
  success : true ∈ call.userRuns → ∀ rails ∈ call, rails.failed = false
  alive : ∀ rails ∈ call, rails.misused = false ∧ (rails.freed → rails.holding = [])

def Smooth (call : OneSideCall) : OneSideAction → Prop
  | .rails operation action => ∀ rails ∈ call[operation]?, rails.Smooth action
  | .again => True

instance : ∀ action, Decidable (call.Smooth action)
  | .rails _ _ => inferInstanceAs (Decidable (∀ rails ∈ _, _))
  | .again => .isTrue trivial

end OneSideCall

namespace AsyncRails

/-! ## Counting the runs -/

/-- The runs of the callback by rails that are not registered yet or made up for. -/
def toCome (rails : AsyncRails) : Nat :=
  match rails.loop with
  | .choose => rails.multiNum - rails.next
  | .post => rails.multiNum - rails.next - 1
  | .remain count => count
  | .returned => 0

structure Counted (rails : AsyncRails) : Prop where
  next : rails.loop = .choose ∨ rails.loop = .post → rails.next < rails.multiNum
  posting : rails.loop = .post → rails.next ∈ rails.holding
  runs : rails.runTime + rails.holding.length + rails.toCome = rails.multiNum
  freed : rails.freed = decide (rails.runTime = rails.multiNum)
  user : rails.userRuns.length = rails.freed.toNat
  success : true ∈ rails.userRuns → rails.failed = false
  misused : rails.misused = false
  retry : rails.retry = false

variable {rails : AsyncRails} {multiNum : Nat}

theorem counted_initial (some : 0 < multiNum) : Counted (initial multiNum) where
  next := fun _ => some
  posting := nofun
  runs := by simp [initial, toCome]
  freed := (decide_eq_false (Nat.ne_of_lt some)).symm
  user := rfl
  success := nofun
  misused := rfl
  retry := rfl

namespace Counted

variable (counted : Counted rails)
include counted

/-- The callback is freed by its last run. -/
theorem complete (isFreed : rails.freed = true) : rails.holding = [] ∧ rails.toCome = 0 := by
  have runs := counted.runs
  have freed := counted.freed
  rw [isFreed] at freed
  have := of_decide_eq_true freed.symm
  exact ⟨length_eq_zero_iff.mp (by omega), by omega⟩

/-- Where the user's callback has run, no rail is under way and none is to be posted. -/
theorem last (ran : rails.userRuns ≠ []) : rails.holding = [] ∧ rails.loop ≠ .choose ∧ rails.loop ≠ .post := by
  have user := counted.user
  have isFreed : rails.freed = true := by
    cases notFreed : rails.freed with
    | true => rfl
    | false =>
      rw [notFreed] at user
      exact absurd (length_eq_zero_iff.mp user) ran
  obtain ⟨none, nothing⟩ := counted.complete isFreed
  refine ⟨none, fun choosing => ?_, fun posting => ?_⟩
  · have := counted.next (.inl choosing)
    rw [toCome, choosing] at nothing
    dsimp only at nothing
    omega
  · have := counted.posting posting
    rw [none] at this
    exact not_mem_nil this

theorem ran_of_finished (finished : rails.Finished) : rails.userRuns.length = 1 := by
  have runs := counted.runs
  rw [toCome, finished.1, finished.2] at runs
  rw [counted.user, counted.freed, decide_eq_true (by simpa using runs)]
  rfl

/-- A call whose one operation is counted right. -/
theorem right : OneSideCall.Right [rails] := by
  have user : OneSideCall.userRuns [rails] = rails.userRuns := append_nil _
  refine ⟨?_, fun ran => ?_, fun finished _ => ?_, fun ran => ?_, ?_⟩
  · rw [user, counted.user]
    exact Bool.toNat_le _
  · rw [user] at ran
    exact forall_mem_singleton.2 (counted.last ran)
  · rw [user]
    exact counted.ran_of_finished (finished rails mem_cons_self)
  · rw [user] at ran
    exact forall_mem_singleton.2 (counted.success ran)
  · exact forall_mem_singleton.2 ⟨counted.misused, fun isFreed => (counted.complete isFreed).1⟩

end Counted

@[simp] theorem runCallback_holding {rails : AsyncRails} {ok : Bool} :
    (rails.runCallback ok).holding = rails.holding := by
  unfold AsyncRails.runCallback
  split
  · rfl
  · split <;> rfl

@[simp] theorem runCallback_failed {rails : AsyncRails} {ok : Bool} : (rails.runCallback ok).failed = rails.failed := by
  unfold AsyncRails.runCallback
  split
  · rfl
  · split <;> rfl

@[simp] theorem runCallback_loop {rails : AsyncRails} {ok : Bool} : (rails.runCallback ok).loop = rails.loop := by
  unfold AsyncRails.runCallback
  split
  · rfl
  · split <;> rfl

/-- A run of the callback that is still to come. -/
theorem Counted.runCallback (counted : Counted rails) (ok : Bool) (loop : RailLoop) (holding : List Nat) (failed : Bool)
    (due : rails.runTime < rails.multiNum)
    (next : loop = .choose ∨ loop = .post → rails.next < rails.multiNum) (posting : loop = .post → rails.next ∈ holding)
    (runs : rails.runTime + 1 + holding.length + ({ rails with loop } : AsyncRails).toCome = rails.multiNum)
    (success : ok → failed → rails.runTime + 1 < rails.multiNum) :
    Counted { rails.runCallback ok with loop, holding, failed } := by
  have freed := counted.freed
  have user := counted.user
  rw [decide_eq_false (by omega)] at freed
  rw [freed] at user
  have none : rails.userRuns = [] := length_eq_zero_iff.mp user
  unfold AsyncRails.runCallback
  rw [if_neg (by rw [freed]; decide)]
  split
  next early =>
    exact
      { next, posting, runs
        freed := by simp only [freed]; exact (decide_eq_false (by omega)).symm
        user := by simp only [freed, none]; rfl
        success := fun ran => by simp [none] at ran
        misused := counted.misused
        retry := counted.retry }
  next isLast =>
    exact
      { next, posting, runs
        freed := (decide_eq_true (by simp only; omega)).symm
        user := by simp [none]
        success := fun ran => by
          simp only [none, nil_append, mem_singleton] at ran
          cases isFailed : failed with
          | false => rfl
          | true => exact absurd (success ran.symm isFailed) isLast
        misused := counted.misused
        retry := counted.retry }

theorem Counted.compensate (counted : Counted rails) (choosing : rails.loop = .choose) :
    Counted (rails.compensate false) :=
  { counted with
    next := nofun
    posting := nofun
    runs := by
      have runs := counted.runs
      rwa [toCome, choosing] at runs
    success := fun ran => absurd choosing (counted.last (ne_nil_of_mem ran)).2.1
    retry := rfl }

theorem Counted.step (counted : Counted rails) {action : RailAction} (smooth : rails.Smooth action) :
    Counted (rails.step action) := by
  have runs := counted.runs
  cases action with
  | chooseFails => exact guarded counted counted.compensate
  | prepareFails retry =>
    cases smooth
    exact guarded counted counted.compensate
  | prepare =>
    refine guarded counted fun choosing => ?_
    have inside := counted.next (.inl choosing)
    rw [toCome, choosing] at runs
    exact
      { counted with
        next := fun _ => inside
        posting := fun _ => mem_cons_self
        runs := by simp only [toCome, length_cons] at runs ⊢; omega }
  | post =>
    refine guarded counted fun posting => ?_
    rw [toCome, posting] at runs
    unfold advance
    split
    next more =>
      exact
        { counted with
          next := fun _ => more
          posting := nofun
          runs := by simp only [toCome] at runs ⊢; omega }
    next =>
      exact
        { counted with
          next := nofun
          posting := nofun
          runs := by simp only [toCome] at runs ⊢; omega }
  | postFails =>
    rw [AsyncRails.step, if_neg smooth]
    exact counted
  | remainStep =>
    rw [AsyncRails.step]
    split
    next count remaining =>
      rw [toCome, remaining] at runs
      dsimp only at runs
      have ran := counted.runCallback false (.remain count) rails.holding rails.failed (by omega) nofun nofun
        (by simp only [toCome]; omega) nofun
      simpa only [runCallback_holding, runCallback_failed] using ran
    next remaining =>
      rw [toCome, remaining] at runs
      exact { counted with next := nofun, posting := nofun, runs }
    all_goals exact counted
  | finish rail ok =>
    refine guarded counted fun held => ?_
    have length := length_erase_of_mem held
    have pos := length_pos_of_mem held
    have ran :=
      counted.runCallback ok rails.loop (rails.holding.erase rail) (rails.failed || !ok) (by omega) counted.next
      (fun posting => (mem_erase_of_ne (smooth.1 posting).symm).mpr (counted.posting posting))
      (by show rails.runTime + 1 + (rails.holding.erase rail).length + rails.toCome = rails.multiNum; omega)
      (fun isOk isFailed => smooth.2 isOk (by simpa [isOk] using isFailed))
    simpa only [runCallback_loop] using ran

end AsyncRails

namespace OneSideCall

open AsyncRails

/-- A smooth call makes one operation. -/
theorem step_counted {call : OneSideCall} {action : OneSideAction} (one : ∃ rails, call = [rails] ∧ Counted rails)
    (smooth : call.Smooth action) : ∃ rails, call.step action = [rails] ∧ Counted rails := by
  obtain ⟨rails, rfl, counted⟩ := one
  cases action with
  | rails operation action =>
    cases operation with
    | zero => exact ⟨_, rfl, counted.step (smooth rails rfl)⟩
    | succ operation => exact ⟨rails, by simp [OneSideCall.step], counted⟩
  | again =>
    refine ⟨rails, ?_, counted⟩
    simp [OneSideCall.step, counted.retry]

/-- In every state of every smooth call over any number of rails the user's callback and the
shared one are used right. -/
theorem right_of_smooth (multiNum : Nat) (some : 0 < multiNum) (finish : OneSideCall)
    (run : Run OneSideCall.step Smooth [initial multiNum] finish) : Right finish := by
  obtain ⟨rails, rfl, counted⟩ := run.invariant (motive := fun call => ∃ rails, call = [rails] ∧ Counted rails)
    ⟨_, rfl, counted_initial some⟩ fun _ _ one smooth => step_counted one smooth
  exact counted.right

/-- Of three rails two are posted and the preparation of the third fails; the second rail fails too. -/
def thirdNotPrepared : List OneSideAction :=
  [.prepare, .post, .prepare, .post, .finish 1 false, .prepareFails false, .remainStep, .remainStep,
    .finish 0 false].map
    (.rails 0)

theorem right_thirdNotPrepared :
    userRuns (thirdNotPrepared.foldl OneSideCall.step [initial 3]) = [false] ∧
      Right (thirdNotPrepared.foldl OneSideCall.step [initial 3]) :=
  ⟨by decide, right_of_smooth 3 (by decide) _ (.ofList (by decide))⟩

/-- The post of the second rail fails while the first is under way. -/
def secondPostFails : List OneSideAction := [.prepare, .post, .prepare, .postFails, .finish 0 true].map (.rails 0)

/-- The first of two rails fails, then the second succeeds. -/
def firstFails : List OneSideAction :=
  [.prepare, .post, .prepare, .post, .finish 0 false, .finish 1 true].map (.rails 0)

/-- No timer object is left for the only rail; the operation is made again and succeeds. -/
def preparedAgain : List OneSideAction :=
  [.prepareFails true, .remainStep, .remainStep].map (.rails 0) ++
    .again :: [.prepare, .post, .finish 0 true].map (.rails 0)

/-- The first rail runs a freed callback; a failed rail is reported as a success; and the user's
callback runs twice. -/
theorem call_not_right :
    ¬ Right (secondPostFails.foldl OneSideCall.step [initial 2]) ∧
      ¬ Right (firstFails.foldl OneSideCall.step [initial 2]) ∧
      ¬ Right (preparedAgain.foldl OneSideCall.step [initial 1]) := by
  refine ⟨fun right => ?_, fun right => ?_, fun right => ?_⟩
  · exact absurd (right.alive _ (.head _)).1 (by decide)
  · exact absurd (right.success (by decide) _ (.head _)) (by decide)
  · exact absurd right.once (by decide)

end OneSideCall

end UbsComm.Service
