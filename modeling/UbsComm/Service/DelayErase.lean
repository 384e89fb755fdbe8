import UbsComm.Library.Run

/-! # Delayed erasure of a broken channel

`DelayEraseChannel` makes a timer that holds a reference to the channel.  The sequence table and the timer
queue hold the timer, and who drops the last of their references returns the channel's one. -/

namespace UbsComm.Service

open Library

/-- The call, before its next step. -/
inductive DelayEraseStep where
  | newCallback
  | getCtxStore
  | getCtxObj
  | putAndGetSeqNo
  | countSeqNo
  | addTimer
  | countQueue
  | returned (ok : Bool)
  deriving DecidableEq

/-- `ProcessTimeOut` or `ProcessCleanUp`, which is all that finds a timer of this type. -/
inductive TimerTaker where
  | waiting
  | eraseSeqNo
  | dropSeqNo
  | dropQueue
  | done
  deriving DecidableEq

/-- `storeObjs` are the objects taken from the pool of the context store, `seqStored` says that the timer is
in its sequence table, and `released` how often the timer was released. -/
structure DelayErase where
  call : DelayEraseStep
  taker : TimerTaker
  channelRefs : Int
  storeObjs : Int
  seqStored : Bool
  timerRefs : Int
  queued : Bool
  released : Nat

inductive DelayEraseAction where
  /-- The next step of the call, which may fail. -/
  | callStep (ok : Bool)
  | collect
  | takerStep

namespace DelayErase

def start (refs objs : Int) : DelayErase where
  call := .newCallback
  taker := .waiting
  channelRefs := refs
  storeObjs := objs
  seqStored := false
  timerRefs := 0
  queued := false
  released := 0

variable (state : DelayErase)

/-- The error exits return the object to the pool without dropping a reference. -/
def giveUp : DelayErase :=
  { state with storeObjs := state.storeObjs - 1, seqStored := false, call := .returned false }

def increaseRef : DelayErase := { state with timerRefs := state.timerRefs + 1 }

def decreaseRef : DelayErase :=
  if state.timerRefs - 1 = 0 then
    { state with
      timerRefs := 0
      channelRefs := state.channelRefs - 1
      storeObjs := state.storeObjs - 1
      released := state.released + 1 }
  else { state with timerRefs := state.timerRefs - 1 }

def callStep (ok : Bool) : DelayErase :=
  match state.call with
  | .newCallback => { state with call := if ok then .getCtxStore else .returned false }
  | .getCtxStore => { state with call := if ok then .getCtxObj else .returned false }
  | .getCtxObj =>
    -- the constructor of the timer takes the reference to the channel
    if ok then
      { state with storeObjs := state.storeObjs + 1, channelRefs := state.channelRefs + 1, call := .putAndGetSeqNo }
    else { state with call := .returned false }
  | .putAndGetSeqNo => if ok then { state with seqStored := true, call := .countSeqNo } else state.giveUp
  | .countSeqNo => { state.increaseRef with call := .addTimer }
  | .addTimer => if ok then { state with queued := true, call := .countQueue } else state.giveUp
  | .countQueue => { state.increaseRef with call := .returned true }
  | .returned _ => state

def takerStep : DelayErase :=
  match state.taker with
  | .eraseSeqNo =>
    if state.seqStored then { state with seqStored := false, taker := .dropSeqNo }
    else { state with taker := .dropQueue }
  | .dropSeqNo => { state.decreaseRef with taker := .dropQueue }
  | .dropQueue => { state.decreaseRef with taker := .done }
  | .waiting | .done => state

def step : DelayEraseAction → DelayErase
  | .callStep ok => state.callStep ok
  | .collect => if state.queued then { state with queued := false, taker := .eraseSeqNo } else state
  | .takerStep => state.takerStep

/-- A call that failed has left the channel's references and the store as they were; after one that succeeded
the reference is dropped when the timer is released, which happens once. -/
structure Right (refs objs : Int) (state : DelayErase) : Prop where
  failed : state.call = .returned false → state.channelRefs = refs ∧ state.storeObjs = objs ∧ state.seqStored = false
  dropped : state.call = .returned true →
    state.channelRefs = refs + 1 - state.released ∧ state.storeObjs = objs + 1 - state.released ∧
      state.released = if state.taker = .done then 1 else 0

/-- The sequence number and the queue are there, and the timer is not collected before the queue is counted. -/
def Careful : DelayEraseAction → Prop
  | .callStep ok => state.call = .putAndGetSeqNo ∨ state.call = .addTimer → ok = true
  | .collect => state.call = .returned true
  | .takerStep => True

instance (action) : Decidable (state.Careful action) := by
  cases action <;> dsimp only [Careful] <;> infer_instance

/-! ## Runs -/

/-- The states of the call while the timer waits, and those of the taker afterwards. -/
inductive Reached (refs objs : Int) : DelayErase → Prop where
  | early {call : DelayEraseStep}
      (before : call = .newCallback ∨ call = .getCtxStore ∨ call = .getCtxObj ∨ call = .returned false) :
      Reached refs objs ⟨call, .waiting, refs, objs, false, 0, false, 0⟩
  | put : Reached refs objs ⟨.putAndGetSeqNo, .waiting, refs + 1, objs + 1, false, 0, false, 0⟩
  | countSeqNo : Reached refs objs ⟨.countSeqNo, .waiting, refs + 1, objs + 1, true, 0, false, 0⟩
  | addTimer : Reached refs objs ⟨.addTimer, .waiting, refs + 1, objs + 1, true, 1, false, 0⟩
  | countQueue : Reached refs objs ⟨.countQueue, .waiting, refs + 1, objs + 1, true, 1, true, 0⟩
  | returned : Reached refs objs ⟨.returned true, .waiting, refs + 1, objs + 1, true, 2, true, 0⟩
  | eraseSeqNo : Reached refs objs ⟨.returned true, .eraseSeqNo, refs + 1, objs + 1, true, 2, false, 0⟩
  | dropSeqNo : Reached refs objs ⟨.returned true, .dropSeqNo, refs + 1, objs + 1, false, 2, false, 0⟩
  | dropQueue : Reached refs objs ⟨.returned true, .dropQueue, refs + 1, objs + 1, false, 1, false, 0⟩
  | done : Reached refs objs ⟨.returned true, .done, refs + 1 - 1, objs + 1 - 1, false, 0, false, 1⟩

variable {refs objs : Int} {state}

theorem Reached.step {action : DelayEraseAction} (reached : Reached refs objs state) (careful : state.Careful action) :
    Reached refs objs (state.step action) := by
  cases reached with
  | early before =>
    cases action with
    | callStep ok =>
      rcases before with rfl | rfl | rfl | rfl
      · cases ok <;> exact .early (by simp)
      · cases ok <;> exact .early (by simp)
      · cases ok with
        | false => exact .early (by simp)
        | true => exact .put
      · exact .early (by simp)
    | collect | takerStep => exact .early before
  | put =>
    cases action with
    | callStep ok =>
      cases careful (.inl rfl)
      exact .countSeqNo
    | collect | takerStep => exact .put
  | countSeqNo =>
    cases action with
    | callStep ok => exact .addTimer
    | collect | takerStep => exact .countSeqNo
  | addTimer =>
    cases action with
    | callStep ok =>
      cases careful (.inr rfl)
      exact .countQueue
    | collect | takerStep => exact .addTimer
  | countQueue =>
    cases action with
    | callStep ok => exact .returned
    | collect => cases careful
    | takerStep => exact .countQueue
  | returned =>
    cases action with
    | collect => exact .eraseSeqNo
    | callStep | takerStep => exact .returned
  | eraseSeqNo =>
    cases action with
    | takerStep => exact .dropSeqNo
    | callStep | collect => exact .eraseSeqNo
  | dropSeqNo =>
    cases action with
    | takerStep => exact .dropQueue
    | callStep | collect => exact .dropSeqNo
  | dropQueue =>
    cases action with
    | takerStep => exact .done
    | callStep | collect => exact .dropQueue
  | done => cases action <;> exact .done

theorem Reached.right (reached : Reached refs objs state) : Right refs objs state := by
  cases reached with
  | early before =>
    refine ⟨fun _ => ⟨rfl, rfl, rfl⟩, fun ok => ?_⟩
    rcases before with rfl | rfl | rfl | rfl <;> cases ok
  | _ => constructor <;> simp

/-- In every careful run, whatever the counts before, the call keeps its promise. -/
theorem delayErase_right_of_careful_steps (run : Run DelayErase.step Careful (start refs objs) state) :
    Right refs objs state := by
  have reached : Reached refs objs state :=
    run.invariant (Reached.early (.inl rfl)) fun _ _ reached careful => reached.step careful
  exact reached.right

def erasure : List DelayEraseAction :=
  [.callStep true, .callStep true, .callStep true, .callStep true, .callStep true, .callStep true, .callStep true,
    .collect, .takerStep, .takerStep, .takerStep]

theorem delayErase_right_erasure : Right 1 0 (erasure.foldl DelayErase.step (start 1 0)) :=
  delayErase_right_of_careful_steps (Run.ofList (by decide : AllAllowed DelayErase.step Careful (start 1 0) erasure))

/-- Without a sequence number the channel keeps a reference that nobody will drop. -/
theorem delayErase_noSeqNo :
    ¬ Right 1 0
      ([.callStep true, .callStep true, .callStep true, .callStep false].foldl DelayErase.step (start 1 0)) := by
  intro right
  exact absurd (right.failed (by decide)).1 (by decide)

end DelayErase

end UbsComm.Service
