import UbsComm.Library.Run

/-! # The timer of a request

A timer is counted for the caller, for the list of its channel and for the timeout queue.  Who
takes the sequence number out of the context store runs or destroys the callback and gives the
caller's reference back.  The steps below are the accesses to what the threads share: the
sequence number, the count, the list, the queue and the manager's stop flag. -/

namespace UbsComm.Service

open Library List

/-- The thread that registers the request, before its next step: `PrepareTimerContext` with
`AddTimer`, then the post, then `DestroyTimerContext` if the post failed.  The steps from
`refusedErase` are those after `AddTimer` found the manager stopping. -/
inductive Prepare where
  | putSeqNo
  | countQueue
  | checkStop
  | insertList
  | countList
  | pushQueue
  | post
  | posted
  | eraseSeqNo
  | deleteCallback
  | markFinished
  | dropCaller
  | destroyed
  | refusedErase
  | refusedDropQueue
  | refusedDropCaller
  | refused
  deriving DecidableEq

/-- A response or a send completion that has taken the sequence number. -/
inductive Completion where
  | idle
  | runCallback
  | markFinished
  | dropCaller
  deriving DecidableEq

/-- `ProcessTimeOut` or `ProcessCleanUp` with the timer taken from the queue. -/
inductive Collector where
  | idle
  | eraseSeqNo
  | runCallback
  | dropCaller
  | removeList
  | dropList
  | dropQueue
  deriving DecidableEq

/-- `ProcessIoInBroken` with the timer taken from the list. -/
inductive BrokenIo where
  | idle
  | eraseSeqNo
  | markFinished
  | runCallback
  | dropCaller
  | dropList
  deriving DecidableEq

/-- `zeros` counts how often the reference count has reached zero, and `consumed` how often the
callback was run or destroyed; `callback` is the pointer being set, `collected` and `cleaned` say that the queue has
given the timer away and that the manager has emptied the queue for good. -/
structure TimerState where
  refCount : Int
  zeros : Nat
  seqStored : Bool
  callback : Bool
  consumed : Nat
  finished : Bool
  expired : Bool
  inList : Bool
  inQueue : Bool
  needStop : Bool
  cleaned : Bool
  collected : Bool
  prepare : Prepare
  completion : Completion
  collector : Collector
  broken : BrokenIo

inductive TimerAction where
  | prepareStep
  | putSeqNoFails
  | postFails
  | complete
  | completionStep
  | expire
  | collect
  | stop
  | cleanUp
  | collectorStep
  | breakChannel
  | brokenStep

namespace TimerState

/-- The timer after its constructor and the count for the caller. -/
def initial : TimerState where
  refCount := 1
  zeros := 0
  seqStored := false
  callback := true
  consumed := 0
  finished := false
  expired := false
  inList := false
  inQueue := false
  needStop := false
  cleaned := false
  collected := false
  prepare := .putSeqNo
  completion := .idle
  collector := .idle
  broken := .idle

variable (timer : TimerState)

def decreaseRef : TimerState :=
  { timer with
    refCount := timer.refCount - 1
    zeros := if timer.refCount - 1 = 0 then timer.zeros + 1 else timer.zeros }

/-- `RunCallBack` and `DeleteCallBack`: the callback is used unless it is already null. -/
def useCallback : TimerState :=
  { timer with callback := false, consumed := if timer.callback then timer.consumed + 1 else timer.consumed }

/-- The timeout thread runs the callback and leaves the pointer. -/
def runTimedOut : TimerState :=
  { timer with consumed := if timer.callback then timer.consumed + 1 else timer.consumed }

def prepareStep : TimerState :=
  match timer.prepare with
  | .putSeqNo => { timer with seqStored := true, prepare := .countQueue }
  | .countQueue => { timer with refCount := timer.refCount + 1, prepare := .checkStop }
  | .checkStop => { timer with prepare := if timer.needStop then .refusedErase else .insertList }
  | .insertList => { timer with inList := true, prepare := .countList }
  | .countList => { timer with refCount := timer.refCount + 1, prepare := .pushQueue }
  | .pushQueue => { timer with inQueue := true, prepare := .post }
  | .post => { timer with prepare := .posted }
  | .eraseSeqNo =>
    if timer.seqStored then { timer with seqStored := false, prepare := .deleteCallback }
    else { timer with prepare := .destroyed }
  | .deleteCallback => { timer.useCallback with prepare := .markFinished }
  | .markFinished => { timer with finished := true, prepare := .dropCaller }
  | .dropCaller => { timer.decreaseRef with prepare := .destroyed }
  | .refusedErase => { timer with seqStored := false, prepare := .refusedDropQueue }
  | .refusedDropQueue => { timer.decreaseRef with prepare := .refusedDropCaller }
  | .refusedDropCaller => { timer.decreaseRef with prepare := .refused }
  | .posted | .destroyed | .refused => timer

def completionStep : TimerState :=
  match timer.completion with
  | .idle => timer
  | .runCallback => { timer.useCallback with completion := .markFinished }
  | .markFinished => { timer with finished := true, completion := .dropCaller }
  | .dropCaller => { timer.decreaseRef with completion := .idle }

def collectorStep : TimerState :=
  match timer.collector with
  | .idle => timer
  | .eraseSeqNo =>
    if timer.seqStored then { timer with seqStored := false, collector := .runCallback }
    else { timer with collector := .removeList }
  | .runCallback => { timer.runTimedOut with collector := .dropCaller }
  | .dropCaller => { timer.decreaseRef with collector := .removeList }
  | .removeList =>
    if timer.inList then { timer with inList := false, collector := .dropList }
    else { timer with collector := .dropQueue }
  | .dropList => { timer.decreaseRef with collector := .dropQueue }
  | .dropQueue => { timer.decreaseRef with collector := .idle }

def brokenStep : TimerState :=
  match timer.broken with
  | .idle => timer
  | .eraseSeqNo =>
    if timer.seqStored then { timer with seqStored := false, broken := .markFinished }
    else { timer with broken := .dropList }
  | .markFinished => { timer with finished := true, broken := .runCallback }
  | .runCallback => { timer.useCallback with broken := .dropCaller }
  | .dropCaller => { timer.decreaseRef with broken := .dropList }
  | .dropList => { timer.decreaseRef with broken := .idle }

/-- The request is on its way: the peer may answer. -/
def outstanding : Bool := timer.prepare = .post ∨ timer.prepare = .posted

def takeFromQueue : TimerState :=
  { timer with inQueue := false, collected := true, collector := .eraseSeqNo }

def step : TimerAction → TimerState
  | .prepareStep => timer.prepareStep
  | .putSeqNoFails =>
    if timer.prepare = .putSeqNo then { timer.decreaseRef with prepare := .refused } else timer
  | .postFails => if timer.prepare = .post then { timer with prepare := .eraseSeqNo } else timer
  | .complete =>
    if timer.outstanding ∧ timer.seqStored then { timer with seqStored := false, completion := .runCallback } else timer
  | .completionStep => timer.completionStep
  | .expire => { timer with expired := true }
  | .collect =>
    if timer.inQueue ∧ timer.collector = .idle ∧ ¬ timer.cleaned ∧ (timer.finished ∨ timer.expired) then
      timer.takeFromQueue
    else timer
  | .stop => { timer with needStop := true }
  | .cleanUp =>
    if timer.needStop ∧ timer.collector = .idle then
      if timer.inQueue then { timer.takeFromQueue with cleaned := true } else { timer with cleaned := true }
    else timer
  | .collectorStep => timer.collectorStep
  | .breakChannel =>
    if timer.inList ∧ timer.broken = .idle then { timer with inList := false, broken := .eraseSeqNo } else timer
  | .brokenStep => timer.brokenStep

/-- Every party has finished with the timer: the registering thread, completions, the clean-up of
a broken channel, and the timeout queue. -/
def Settled : Prop :=
  (timer.prepare = .posted ∨ timer.prepare = .destroyed) ∧ timer.completion = .idle ∧ timer.broken = .idle ∧
    timer.collector = .idle ∧ (timer.collected ∨ timer.cleaned)

instance : Decidable timer.Settled := inferInstanceAs (Decidable (_ ∧ _))

/-- The callback is run or destroyed at most once, the count reaches zero at most once, and once
all parties have finished both have happened. -/
structure Right : Prop where
  consumed : timer.consumed ≤ 1
  zeros : timer.zeros ≤ 1
  settled : timer.Settled → timer.consumed = 1 ∧ timer.zeros = 1 ∧ timer.refCount = 0

/-- The clean-up of a broken channel does not find the timer in the list before it is counted
there, and the manager does not empty the queue between the check of its flag and the push. -/
def Orderly : TimerAction → Prop
  | .breakChannel => timer.prepare ≠ .countList
  | .cleanUp => timer.prepare ≠ .insertList ∧ timer.prepare ≠ .countList ∧ timer.prepare ≠ .pushQueue
  | .prepareStep | .putSeqNoFails | .postFails | .complete | .completionStep | .expire | .collect | .stop
  | .collectorStep | .brokenStep => True

instance (action) : Decidable (timer.Orderly action) := by
  cases action <;> dsimp only [Orderly] <;> infer_instance

/-! ## Who holds which reference -/

end TimerState

/-- The thread is past `AddTimer`. -/
def Prepare.registered : Prepare → Bool
  | .post | .posted | .eraseSeqNo | .deleteCallback | .markFinished | .dropCaller | .destroyed => true
  | _ => false

/-- No other thread has seen the sequence number or the list yet. -/
def Prepare.alone : Prepare → Bool
  | .countQueue | .checkStop | .insertList | .countList | .refusedErase => true
  | _ => false

def Prepare.unlisted : Prepare → Bool
  | .putSeqNo | .countQueue | .checkStop | .insertList | .refusedErase
  | .refusedDropQueue | .refusedDropCaller | .refused => true
  | _ => false

/-- The callback is in the thread's hands. -/
def Prepare.hasCallback : Prepare → Bool
  | .putSeqNo | .deleteCallback | .refusedDropQueue | .refusedDropCaller | .refused => true
  | _ => false

def Prepare.callerRef : Prepare → Bool
  | .putSeqNo | .deleteCallback | .markFinished | .dropCaller | .refusedDropQueue | .refusedDropCaller => true
  | _ => false

def Prepare.queueRef : Prepare → Bool
  | .checkStop | .insertList | .countList | .pushQueue | .refusedErase | .refusedDropQueue => true
  | _ => false

def Completion.callerRef : Completion → Bool
  | .idle => false
  | .runCallback | .markFinished | .dropCaller => true

def Collector.callerRef : Collector → Bool
  | .runCallback | .dropCaller => true
  | .idle | .eraseSeqNo | .removeList | .dropList | .dropQueue => false

def Collector.unlisted : Collector → Bool
  | .idle | .dropList | .dropQueue => true
  | .eraseSeqNo | .runCallback | .dropCaller | .removeList => false

def BrokenIo.callerRef : BrokenIo → Bool
  | .markFinished | .runCallback | .dropCaller => true
  | .idle | .eraseSeqNo | .dropList => false

def BrokenIo.hasCallback : BrokenIo → Bool
  | .markFinished | .runCallback => true
  | .idle | .eraseSeqNo | .dropCaller | .dropList => false

namespace TimerState

variable (timer : TimerState)

/-- The references that are held, one for each place that will give one back. -/
def refs : Nat :=
  timer.seqStored.toNat + timer.prepare.callerRef.toNat + timer.completion.callerRef.toNat +
    timer.collector.callerRef.toNat + timer.broken.callerRef.toNat +
    (timer.inList && timer.prepare ≠ .countList).toNat + (decide (timer.collector = .dropList)).toNat +
    (decide (timer.broken ≠ .idle)).toNat +
    timer.prepare.queueRef.toNat + timer.inQueue.toNat + (decide (timer.collector ≠ .idle)).toNat

/-- How many parties have the callback before them. -/
def callbacks : Nat :=
  timer.seqStored.toNat + timer.prepare.hasCallback.toNat + (decide (timer.completion = .runCallback)).toNat +
    (decide (timer.collector = .runCallback)).toNat + timer.broken.hasCallback.toNat

structure Counted : Prop where
  refCount : timer.refCount = timer.refs
  zeros : timer.zeros = if timer.refs = 0 then 1 else 0
  consumed : timer.consumed + timer.callbacks = 1
  callback : timer.consumed = 0 → timer.callback = true

/-- Where the timer can be at each step of the thread that registers it and of the collector. -/
structure Placed : Prop where
  alone : timer.prepare.alone → timer.seqStored
  unlisted : timer.prepare.unlisted → timer.inList = false ∧ timer.broken = .idle
  counting : timer.prepare = .countList → timer.inList = true ∧ timer.broken = .idle
  unregistered : timer.prepare.registered = false →
    timer.inQueue = false ∧ timer.collected = false ∧ timer.collector = .idle ∧ timer.completion = .idle
  registered : timer.prepare.registered → timer.inQueue = !timer.collected
  uncollected : timer.collected = false → timer.collector = .idle
  cleaned : timer.cleaned → timer.needStop ∧ timer.inQueue = false ∧ timer.prepare ≠ .insertList ∧
    timer.prepare ≠ .countList ∧ timer.prepare ≠ .pushQueue
  taken : timer.seqStored → timer.completion = .idle
  erased : timer.collected → timer.collector ≠ .eraseSeqNo → timer.seqStored = false
  removed : timer.collected → timer.collector.unlisted → timer.inList = false

variable {timer next : TimerState}

section

variable (counted : Counted timer)
include counted

section

variable (callbacks : next.callbacks = timer.callbacks) (consumed : next.consumed = timer.consumed)
  (callback : next.callback = timer.callback)
include callbacks consumed callback

/-- A step that passes references and the callback on. -/
theorem Counted.pass (refs : next.refs = timer.refs)
    (refCount : next.refCount = timer.refCount) (zeros : next.zeros = timer.zeros) : Counted next := by
  constructor
  · rw [refCount, refs, counted.refCount]
  · rw [zeros, refs, counted.zeros]
  · rw [consumed, callbacks, counted.consumed]
  · rw [consumed, callback]
    exact counted.callback

/-- A step that counts one more reference, of a timer that is held. -/
theorem Counted.count (refs : next.refs = timer.refs + 1) (held : 0 < timer.refs)
    (refCount : next.refCount = timer.refCount + 1)
    (zeros : next.zeros = timer.zeros) : Counted next := by
  constructor
  · rw [refCount, refs, counted.refCount]
    rfl
  · rw [zeros, counted.zeros, if_neg (by omega), if_neg (by omega)]
  · rw [consumed, callbacks, counted.consumed]
  · rw [consumed, callback]
    exact counted.callback

theorem Counted.drop (refs : timer.refs = next.refs + 1)
    (refCount : next.refCount = timer.decreaseRef.refCount) (zeros : next.zeros = timer.decreaseRef.zeros) :
    Counted next := by
  have left : timer.refCount - 1 = next.refs := by
    rw [counted.refCount]
    omega
  constructor
  · rw [refCount, decreaseRef, left]
  · rw [zeros, decreaseRef, left, counted.zeros, refs]
    simp
  · rw [consumed, callbacks, counted.consumed]
  · rw [consumed, callback]
    exact counted.callback

end

theorem Counted.use (refs : next.refs = timer.refs) (callbacks : timer.callbacks = next.callbacks + 1)
    (refCount : next.refCount = timer.refCount) (zeros : next.zeros = timer.zeros)
    (consumed : timer.callback → next.consumed = timer.consumed + 1) : Counted next := by
  have before := counted.consumed
  have unused := consumed (counted.callback (by omega))
  constructor
  · rw [refCount, refs, counted.refCount]
  · rw [zeros, refs, counted.zeros]
  · omega
  · intro none
    omega

end

theorem counted_initial : Counted initial := by
  constructor <;> decide

section

variable (counted : Counted timer)
include counted

theorem Counted.right (placed : Placed timer) : Right timer := by
  have refCount := counted.refCount
  have consumed := counted.consumed
  refine ⟨by omega, by rw [counted.zeros]; split <;> omega, ?_⟩
  rintro ⟨done, completion, broken, collector, queue⟩
  have registered : timer.prepare.registered := by rcases done with done | done <;> rw [done] <;> rfl
  have inQueue := placed.registered registered
  have collected : timer.collected := by
    rcases queue with collected | cleaned
    · exact collected
    · have := (placed.cleaned cleaned).2.1
      cases isCollected : timer.collected <;> simp_all
  rw [collected] at inQueue
  have erased := placed.erased collected (by rw [collector]; decide)
  have removed := placed.removed collected (by rw [collector]; rfl)
  have none : timer.refs = 0 := by
    rw [TimerState.refs, erased, removed, inQueue, completion, broken, collector]
    rcases done with done | done <;> rw [done] <;> rfl
  have one : timer.callbacks = 0 := by
    rw [TimerState.callbacks, erased, completion, broken, collector]
    rcases done with done | done <;> rw [done] <;> rfl
  exact ⟨by omega, by rw [counted.zeros, if_pos none], by rw [refCount, none]; rfl⟩

/-! ## The steps -/

attribute [simp] Prepare.callerRef Prepare.queueRef Prepare.hasCallback Completion.callerRef Collector.callerRef
  BrokenIo.callerRef BrokenIo.hasCallback decreaseRef useCallback runTimedOut

theorem Counted.prepareStep (placed : Placed timer) : Counted timer.prepareStep := by
  unfold TimerState.prepareStep
  cases call : timer.prepare with
  | posted | destroyed | refused => exact counted
  | putSeqNo =>
    have before := counted.consumed
    simp only [callbacks, call, Prepare.hasCallback, Bool.toNat_true] at before
    have notStored : timer.seqStored.toNat = 0 := by omega
    apply counted.pass <;> simp [refs, callbacks, call, notStored]
  | countQueue =>
    have stored := placed.alone (by rw [call]; rfl)
    apply counted.count <;> simp [refs, callbacks, call, stored]
    all_goals omega
  | countList =>
    have mem := (placed.counting call).1
    apply counted.count <;> simp [refs, callbacks, call, mem]
    all_goals omega
  | checkStop =>
    dsimp only
    split <;> apply counted.pass <;> simp [refs, callbacks, call]
  | insertList =>
    have absent := (placed.unlisted (by rw [call]; rfl)).1
    apply counted.pass <;> simp [refs, callbacks, call, absent]
  | pushQueue =>
    have absent := (placed.unregistered (by rw [call]; rfl)).1
    apply counted.pass <;> simp [refs, callbacks, call, absent]
  | refusedErase =>
    have stored := placed.alone (by rw [call]; rfl)
    apply counted.pass <;> simp [refs, callbacks, call, stored]
  | post | markFinished => apply counted.pass <;> simp [refs, callbacks, call]
  | eraseSeqNo =>
    dsimp only
    split
    next stored => apply counted.pass <;> simp [refs, callbacks, call, stored]
    next => apply counted.pass <;> simp [refs, callbacks, call]
  | deleteCallback => apply counted.use <;> simp +contextual [refs, callbacks, call]; omega
  | dropCaller | refusedDropQueue | refusedDropCaller =>
    apply counted.drop <;> simp [refs, callbacks, call]; omega

theorem Counted.completionStep : Counted timer.completionStep := by
  unfold TimerState.completionStep
  cases call : timer.completion with
  | idle => exact counted
  | runCallback => apply counted.use <;> simp +contextual [refs, callbacks, call]; omega
  | markFinished => apply counted.pass <;> simp [refs, callbacks, call]
  | dropCaller => apply counted.drop <;> simp [refs, callbacks, call]; omega

theorem Counted.collectorStep (placed : Placed timer) : Counted timer.collectorStep := by
  unfold TimerState.collectorStep
  cases call : timer.collector with
  | idle => exact counted
  | eraseSeqNo =>
    dsimp only
    split
    next stored => apply counted.pass <;> simp [refs, callbacks, call, stored] <;> omega
    next => apply counted.pass <;> simp [refs, callbacks, call]
  | runCallback => apply counted.use <;> simp +contextual [refs, callbacks, call]; omega
  | removeList =>
    dsimp only
    split
    next mem =>
      -- a timer that was collected has long been counted in the list
      have counted' : timer.prepare ≠ .countList := fun counting => by
        have := (placed.unregistered (by rw [counting]; rfl)).2.2.1
        rw [call] at this
        exact nomatch this
      apply counted.pass <;> simp [refs, callbacks, call, mem, counted']
    next => apply counted.pass <;> simp [refs, callbacks, call]
  | dropCaller | dropList | dropQueue => apply counted.drop <;> simp [refs, callbacks, call] <;> omega

theorem Counted.brokenStep : Counted timer.brokenStep := by
  unfold TimerState.brokenStep
  cases call : timer.broken with
  | idle => exact counted
  | eraseSeqNo =>
    dsimp only
    split
    next stored => apply counted.pass <;> simp [refs, callbacks, call, stored] <;> omega
    next => apply counted.pass <;> simp [refs, callbacks, call]
  | markFinished => apply counted.pass <;> simp [refs, callbacks, call]
  | runCallback => apply counted.use <;> simp +contextual [refs, callbacks, call]
  | dropCaller | dropList => apply counted.drop <;> simp [refs, callbacks, call]; omega

end

/-- A step of the registering thread alone. -/
theorem Placed.setPrepare (placed : Placed timer) {prepare : Prepare} {now : Prepare} (call : timer.prepare = now)
    (later : (prepare.alone → now.alone) ∧ (prepare.unlisted → now.unlisted) ∧
      prepare.registered = now.registered ∧ prepare ≠ .countList)
    (cleaned : (prepare ≠ .insertList ∧ prepare ≠ .pushQueue) ∨ ¬ timer.cleaned) : Placed { timer with prepare } := by
  subst call
  obtain ⟨alone, unlisted, registered, counting⟩ := later
  exact
    { placed with
      alone := fun isAlone => placed.alone (alone isAlone)
      unlisted := fun early => placed.unlisted (unlisted early)
      counting := fun isCounting => absurd isCounting counting
      unregistered := fun early => placed.unregistered (registered ▸ early)
      registered := fun late => placed.registered (registered ▸ late)
      cleaned := fun isCleaned =>
        have old := placed.cleaned isCleaned
        have new := cleaned.resolve_right (not_not.mpr isCleaned)
        ⟨old.1, old.2.1, new.1, counting, new.2⟩ }

theorem Placed.prepareStep (placed : Placed timer) : Placed timer.prepareStep := by
  unfold TimerState.prepareStep
  cases call : timer.prepare with
  | posted | destroyed | refused => exact placed
  | putSeqNo =>
    have unlisted := placed.unlisted (by rw [call]; rfl)
    have unregistered := placed.unregistered (by rw [call]; rfl)
    exact
      { placed with
        alone := fun _ => rfl
        unlisted := fun _ => unlisted
        counting := nofun
        unregistered := fun _ => unregistered
        registered := nofun
        cleaned := fun cleaned => ⟨(placed.cleaned cleaned).1, unregistered.1, nofun, nofun, nofun⟩
        taken := fun _ => unregistered.2.2.2
        erased := fun collected => by rw [unregistered.2.1] at collected; exact nomatch collected }
  | checkStop =>
    dsimp only
    split
    · exact placed.setPrepare call (by decide) (.inl (by decide))
    next running =>
      exact placed.setPrepare call (by decide) (.inr fun cleaned => running (placed.cleaned cleaned).1)
  | insertList =>
    have stored := placed.alone (by rw [call]; rfl)
    have unlisted := placed.unlisted (by rw [call]; rfl)
    have unregistered := placed.unregistered (by rw [call]; rfl)
    exact
      { placed with
        alone := fun _ => stored
        unlisted := nofun
        counting := fun _ => ⟨rfl, unlisted.2⟩
        unregistered := fun _ => unregistered
        registered := nofun
        cleaned := fun cleaned => absurd call (placed.cleaned cleaned).2.2.1
        removed := fun collected => by rw [unregistered.2.1] at collected; exact nomatch collected }
  | countList =>
    exact { placed.setPrepare call (by decide) (.inr fun cleaned => (placed.cleaned cleaned).2.2.2.1 call) with }
  | pushQueue =>
    have unregistered := placed.unregistered (by rw [call]; rfl)
    exact
      { placed with
        alone := nofun
        unlisted := nofun
        counting := nofun
        unregistered := nofun
        registered := fun _ => by rw [unregistered.2.1]; rfl
        cleaned := fun cleaned => absurd call (placed.cleaned cleaned).2.2.2.2 }
  | eraseSeqNo =>
    dsimp only
    split
    · exact { placed.setPrepare call (by decide) (.inl (by decide)) with
        alone := nofun
        taken := nofun
        erased := fun _ _ => rfl }
    · exact placed.setPrepare call (by decide) (.inl (by decide))
  | refusedErase =>
    exact { placed.setPrepare call (by decide) (.inl (by decide)) with
      alone := nofun
      taken := nofun
      erased := fun _ _ => rfl }
  | countQueue | post | deleteCallback | markFinished | dropCaller | refusedDropQueue | refusedDropCaller =>
    exact { placed.setPrepare call (by decide) (.inl (by decide)) with }

theorem Placed.isRegistered (placed : Placed timer)
    (busy : timer.completion ≠ .idle ∨ timer.collector ≠ .idle ∨ timer.inQueue) :
    timer.prepare.registered = true := by
  cases registered : timer.prepare.registered with
  | true => rfl
  | false =>
    obtain ⟨notQueued, _, collector, completion⟩ := placed.unregistered registered
    rw [notQueued, collector, completion] at busy
    simp at busy

/-- A registered timer can be finished with: the thread that registers it claims nothing more. -/
theorem Prepare.shared_of_registered {prepare : Prepare} (registered : prepare.registered = true) :
    prepare.alone = false ∧ prepare.unlisted = false ∧ prepare ≠ .countList := by
  cases prepare <;> first | exact ⟨rfl, rfl, nofun⟩ | exact nomatch registered

section

variable (placed : Placed timer)
include placed

theorem Placed.completionStep : Placed timer.completionStep := by
  unfold TimerState.completionStep
  cases call : timer.completion with
  | idle => exact placed
  | runCallback | markFinished | dropCaller =>
    have registered := placed.isRegistered (.inl (by rw [call]; decide))
    have taken : ¬ timer.seqStored := fun stored => by
      rw [placed.taken stored] at call
      exact nomatch call
    exact
      { placed with
        unregistered := fun early => nomatch registered.symm.trans early
        taken := fun stored => absurd stored taken }

theorem Placed.isCollected (busy : timer.collector ≠ .idle) : timer.collected = true := by
  cases collected : timer.collected with
  | true => rfl
  | false => exact absurd (placed.uncollected collected) busy

theorem Placed.setCollector (busy : timer.collector ≠ .idle) {collector : Collector}
    (erased : collector ≠ .eraseSeqNo → timer.seqStored = false)
    (removed : collector.unlisted → timer.inList = false) : Placed { timer with collector } :=
  { placed with
    unregistered := fun early => nomatch (placed.isRegistered (.inr (.inl busy))).symm.trans early
    uncollected := fun notCollected => nomatch (placed.isCollected busy).symm.trans notCollected
    erased := fun _ => erased
    removed := fun _ => removed }

theorem Placed.collectorStep : Placed timer.collectorStep := by
  unfold TimerState.collectorStep
  by_cases idle : timer.collector = .idle
  · rw [idle]
    exact placed
  have registered := placed.isRegistered (.inr (.inl idle))
  have collected := placed.isCollected idle
  obtain ⟨notAlone, notUnlisted, notCounting⟩ := Prepare.shared_of_registered registered
  cases busy : timer.collector with
  | idle => exact absurd busy idle
  | eraseSeqNo =>
    dsimp only
    split
    · exact
        { placed with
          alone := fun alone => nomatch notAlone.symm.trans alone
          unregistered := fun early => nomatch registered.symm.trans early
          uncollected := fun notCollected => nomatch collected.symm.trans notCollected
          taken := nofun
          erased := fun _ _ => rfl
          removed := nofun }
    next missing => exact placed.setCollector idle (fun _ => Bool.eq_false_iff.mpr missing) nofun
  | runCallback | dropCaller =>
    have erased := placed.erased collected (by rw [busy]; decide)
    exact { placed.setCollector idle (fun _ => erased) (by nofun) with }
  | removeList =>
    have erased := placed.erased collected (by rw [busy]; decide)
    dsimp only
    split
    · exact
        { placed with
          unlisted := fun unlisted => nomatch notUnlisted.symm.trans unlisted
          counting := fun counting => absurd counting notCounting
          unregistered := fun early => nomatch registered.symm.trans early
          uncollected := fun notCollected => nomatch collected.symm.trans notCollected
          erased := fun _ _ => erased
          removed := fun _ _ => rfl }
    next missing => exact placed.setCollector idle (fun _ => erased) fun _ => Bool.eq_false_iff.mpr missing
  | dropList | dropQueue =>
    have erased := placed.erased collected (by rw [busy]; decide)
    have removed := placed.removed collected (by rw [busy]; rfl)
    exact { placed.setCollector idle (fun _ => erased) (fun _ => removed) with }

/-- Once the clean-up of a broken channel holds the timer, it is past the steps that need the
list. -/
theorem Placed.notCounting (busy : timer.broken ≠ .idle) :
    timer.prepare.unlisted = false ∧ timer.prepare ≠ .countList ∧ timer.prepare.alone = false := by
  have mem : timer.prepare.unlisted = false := by
    cases unlisted : timer.prepare.unlisted with
    | true => exact absurd (placed.unlisted unlisted).2 busy
    | false => rfl
  have counted : timer.prepare ≠ .countList := fun counting => busy (placed.counting counting).2
  refine ⟨mem, counted, ?_⟩
  cases call : timer.prepare <;> rw [call] at mem counted <;>
    first | rfl | exact absurd mem (by decide) | exact absurd rfl counted

theorem Placed.setBroken (busy : timer.broken ≠ .idle) {broken : BrokenIo} : Placed { timer with broken } :=
  have ⟨notUnlisted, notCounting, _⟩ := placed.notCounting busy
  { placed with
    unlisted := fun unlisted => nomatch notUnlisted.symm.trans unlisted
    counting := fun counting => absurd counting notCounting }

theorem Placed.brokenStep : Placed timer.brokenStep := by
  unfold TimerState.brokenStep
  by_cases idle : timer.broken = .idle
  · rw [idle]
    exact placed
  cases busy : timer.broken with
  | idle => exact absurd busy idle
  | eraseSeqNo =>
    dsimp only
    split
    · exact
        { placed.setBroken idle with
          alone := fun alone => nomatch (placed.notCounting idle).2.2.symm.trans alone
          taken := nofun
          erased := fun _ _ => rfl }
    · exact placed.setBroken idle
  | markFinished | runCallback | dropCaller | dropList => exact { placed.setBroken idle with }

/-! ## Runs -/

theorem Placed.takeFromQueue (queued : timer.inQueue = true) : Placed timer.takeFromQueue :=
  have registered := placed.isRegistered (.inr (.inr queued))
  { placed with
    unregistered := fun early => nomatch registered.symm.trans early
    registered := fun _ => rfl
    uncollected := nofun
    cleaned := fun cleaned => ⟨(placed.cleaned cleaned).1, rfl, (placed.cleaned cleaned).2.2⟩
    erased := fun _ ne => absurd rfl ne
    removed := fun _ => nofun }

end

theorem Counted.takeFromQueue (counted : Counted timer) (queued : timer.inQueue = true)
    (idle : timer.collector = .idle) :
    Counted timer.takeFromQueue := by
  apply counted.pass <;> dsimp only [refs, callbacks, TimerState.takeFromQueue] <;> rw [idle] <;> simp [queued]

structure Inv (timer : TimerState) : Prop where
  placed : Placed timer
  counted : Counted timer

theorem Inv.step (inv : Inv timer) {action : TimerAction} (orderly : timer.Orderly action) :
    Inv (timer.step action) := by
  have ⟨placed, counted⟩ := inv
  cases action with
  | prepareStep => exact ⟨placed.prepareStep, counted.prepareStep placed⟩
  | putSeqNoFails =>
    refine guarded inv fun call => ⟨{ placed.setPrepare call (by decide) (.inl (by decide)) with }, ?_⟩
    apply counted.drop <;> simp [refs, callbacks, call]; omega
  | postFails =>
    refine guarded inv fun call => ⟨placed.setPrepare call (by decide) (.inl (by decide)), ?_⟩
    apply counted.pass <;> simp [refs, callbacks, call]
  | complete =>
    refine guarded inv fun arrives => ?_
    have registered : timer.prepare.registered = true := by
      rcases of_decide_eq_true arrives.1 with call | call <;> rw [call] <;> rfl
    have notAlone := (Prepare.shared_of_registered registered).1
    have idle := placed.taken arrives.2
    constructor
    · exact
        { placed with
          alone := fun alone => nomatch notAlone.symm.trans alone
          unregistered := fun early => nomatch registered.symm.trans early
          taken := nofun
          erased := fun _ _ => rfl }
    · apply counted.pass <;> simp [refs, callbacks, arrives.2, idle] <;> omega
  | completionStep => exact ⟨placed.completionStep, counted.completionStep⟩
  | expire => exact ⟨{ placed with }, { counted with }⟩
  | collect =>
    exact guarded inv fun due => ⟨placed.takeFromQueue due.1, counted.takeFromQueue due.1 due.2.1⟩
  | stop => exact ⟨{ placed with cleaned := fun cleaned => ⟨rfl, (placed.cleaned cleaned).2⟩ }, { counted with }⟩
  | cleanUp =>
    refine guarded inv fun stopped => ?_
    split
    next queued =>
      exact ⟨{ placed.takeFromQueue queued with cleaned := fun _ => ⟨stopped.1, rfl, orderly⟩ },
        { counted.takeFromQueue queued stopped.2 with }⟩
    next missing =>
      exact ⟨{ placed with cleaned := fun _ => ⟨stopped.1, Bool.eq_false_iff.mpr missing, orderly⟩ }, { counted with }⟩
  | collectorStep => exact ⟨placed.collectorStep, counted.collectorStep placed⟩
  | breakChannel =>
    refine guarded inv fun mem => ?_
    have notCounting : timer.prepare ≠ .countList := orderly
    constructor
    · exact
        { placed with
          unlisted := fun unlisted => absurd mem.1 (by rw [(placed.unlisted unlisted).1]; decide)
          counting := fun counting => absurd counting notCounting
          removed := fun _ _ => rfl }
    · apply counted.pass <;> simp [refs, callbacks, mem.1, mem.2, notCounting]; omega
  | brokenStep => exact ⟨placed.brokenStep, counted.brokenStep⟩

/-- The request is registered and answered, and the timer collected. -/
def answered : List TimerAction :=
  replicate 7 .prepareStep ++ [.complete] ++ replicate 3 .completionStep ++ [.collect] ++
    replicate 4 .collectorStep

end TimerState

end UbsComm.Service
