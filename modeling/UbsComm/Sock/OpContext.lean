import UbsComm.Library.Run

/-! # Operation contexts of a socket worker

A posted operation has a slot of the send queue and an operation context.  The context is passed
between the posting call, the send queue, the map of operations that wait for an acknowledgement,
and the handler of a broken socket.  An operation in the map has a number of its own: the 32 bits of
`OneSideNextSeq` have not come round to it again. -/

namespace UbsComm.Sock

open Library List

/-- Sends are done when they are sent, reads and writes when they are acknowledged. -/
inductive OpKind where
  | twoSide
  | oneSide
  deriving DecidableEq

/-- The posting call, before its next step. -/
inductive PostCall where
  | start
  | slotTaken
  | ctxTaken
  /-- The context is filled, and in the map if the operation is one-sided. -/
  | posting
  | sent
  | queued
  | failed
  | returned (ok : Bool)
  deriving DecidableEq

/-- `DealCbWithFailure`: the socket leaves epoll, the queue is emptied, the map is gone through and
then cleared. -/
inductive FailPhase where
  | working
  | popping
  | visiting
  | clearing
  | done
  deriving DecidableEq

/-- An operation: where its context is, and what was taken, given back and reported. -/
structure Op where
  kind : OpKind
  call : PostCall
  inQueue : Bool
  inMap : Bool
  visited : Bool
  slotTaken : Bool
  ctxTaken : Bool
  slotReturns : Nat
  ctxReturns : Nat
  callbacks : Nat

inductive OpEvent where
  | noQueueSpace
  | getQueueSpace
  | noCtx
  | getCtx
  | noSglCtx
  | copyFails
  | addOpCtx
  | postSent
  | postQueued
  | postFails
  | finishSent
  | modifyInEpoll (ok : Bool)
  | cleanUp
  /-- `ProcessQueueReq` has sent all of it. -/
  | drain
  | ack (wellFormed : Bool)
  /-- `DealCbWithFailure` pops it from the queue. -/
  | failPop
  /-- `DealCbWithFailure` comes to it in the map. -/
  | failVisit

namespace Op

def new (kind : OpKind) : Op where
  kind := kind
  call := .start
  inQueue := false
  inMap := false
  visited := false
  slotTaken := false
  ctxTaken := false
  slotReturns := 0
  ctxReturns := 0
  callbacks := 0

variable (op : Op)

def returnQueueSpace : Op := { op with slotReturns := op.slotReturns + 1 }

def returnCtx : Op := { op with ctxReturns := op.ctxReturns + 1 }

def callback : Op := { op with callbacks := op.callbacks + 1 }

/-- `POST_PROCESS`: a send is reported and its context returned, any other waits in the map. -/
def postProcess : Op :=
  let popped := { op with inQueue := false }.returnQueueSpace
  match op.kind with
  | .twoSide => popped.callback.returnCtx
  | .oneSide => popped

/-- The end of a call whose message is out. -/
def finishSent : Op :=
  match op.kind with
  | .twoSide => { op.returnQueueSpace.callback.returnCtx with call := .returned true }
  | .oneSide => { op.returnQueueSpace with call := .returned true }

def oneSideDone : Op := op.returnCtx.callback

def step (phase : FailPhase) (op : Op) : OpEvent → Op
  | .noQueueSpace => if op.call = .start then { op with call := .returned false } else op
  | .getQueueSpace => if op.call = .start then { op with call := .slotTaken, slotTaken := true } else op
  | .noCtx => if op.call = .slotTaken then { op.returnQueueSpace with call := .returned false } else op
  | .getCtx => if op.call = .slotTaken then { op with call := .ctxTaken, ctxTaken := true } else op
  | .noSglCtx | .copyFails =>
    if op.call = .ctxTaken then { op.returnQueueSpace.returnCtx with call := .returned false } else op
  | .addOpCtx => if op.call = .ctxTaken then { op with call := .posting, inMap := op.kind = .oneSide } else op
  | .postSent => if op.call = .posting then { op with call := .sent } else op
  | .postQueued => if op.call = .posting then { op with call := .queued, inQueue := true } else op
  | .postFails => if op.call = .posting then { op with call := .failed } else op
  | .finishSent => if op.call = .sent then op.finishSent else op
  | .modifyInEpoll ok =>
    -- a socket that has left epoll cannot be changed in it
    if op.call = .queued then { op with call := .returned (ok && phase = .working) } else op
  | .cleanUp =>
    -- the context is returned whether or not it was still in the map
    if op.call = .failed then { { op with inMap := false }.returnQueueSpace.returnCtx with call := .returned false }
    else op
  | .drain => if op.inQueue then op.postProcess else op
  | .ack wellFormed =>
    -- the context is taken from the map before the acknowledgement is checked
    if op.inMap then
      if wellFormed then { op with inMap := false }.oneSideDone else { op with inMap := false }
    else op
  | .failPop => if op.inQueue ∧ phase = .popping then op.postProcess else op
  | .failVisit => if op.inMap ∧ ¬ op.visited ∧ phase = .visiting then { op with visited := true }.oneSideDone else op

end Op

structure SockOps where
  ops : List Op
  phase : FailPhase

inductive SockOpsAction where
  | post (kind : OpKind)
  | op (index : Nat) (event : OpEvent)
  | removeFromEpoll
  | queueEmpty
  | allVisited
  | clearMap

namespace SockOps

def initial : SockOps := ⟨[], .working⟩

def step (sock : SockOps) : SockOpsAction → SockOps
  | .post kind => { sock with ops := sock.ops ++ [.new kind] }
  | .op index event => { sock with ops := sock.ops.modify index (·.step sock.phase event) }
  | .removeFromEpoll => if sock.phase = .working then { sock with phase := .popping } else sock
  | .queueEmpty =>
    if sock.phase = .popping ∧ ∀ op ∈ sock.ops, op.inQueue = false then { sock with phase := .visiting } else sock
  | .allVisited =>
    if sock.phase = .visiting ∧ ∀ op ∈ sock.ops, op.inMap → op.visited then { sock with phase := .clearing } else sock
  | .clearMap =>
    if sock.phase = .clearing then ⟨sock.ops.map fun op => { op with inMap := false, visited := false }, .done⟩
    else sock

end SockOps

/-! ## What is to hold -/

namespace Op

variable (op : Op)

/-- The call has returned and nothing holds the context any more. -/
def Settled : Prop := (∃ ok, op.call = .returned ok) ∧ op.inQueue = false ∧ op.inMap = false

structure Right : Prop where
  slot : op.slotReturns ≤ 1
  ctx : op.ctxReturns ≤ 1
  callback : op.callbacks ≤ 1
  /-- A failed post is not reported by a callback as well. -/
  failed : op.call = .returned false → op.callbacks = 0
  /-- A context that was returned is not in the queue, and not in the map but for clearing it. -/
  free : op.ctxReturns = 1 → op.inQueue = false ∧ (op.inMap → op.visited)
  settled : op.Settled → op.slotReturns = op.slotTaken.toNat ∧ op.ctxReturns = op.ctxTaken.toNat ∧
    (op.call = .returned true → op.callbacks = 1)

/-- The request of a one-sided operation has been sent. -/
def RequestSent : Prop :=
  (op.call = .sent ∨ op.call = .queued ∨ op.call = .returned true) ∧ op.inQueue = false

instance : Decidable op.RequestSent := inferInstanceAs (Decidable (_ ∧ _))

/-- The call has not filled its context yet, or has returned. -/
def NotPosting : Prop :=
  op.call = .start ∨ op.call = .slotTaken ∨ op.call = .ctxTaken ∨ op.call = .returned true ∨ op.call = .returned false

instance : Decidable op.NotPosting := inferInstanceAs (Decidable (_ ∨ _))

/-- The change in epoll works; acknowledgements are well formed, for requests that have been sent,
and not while the map is gone through; nothing enters the map of a broken socket. -/
def Smooth (phase : FailPhase) (op : Op) : OpEvent → Prop
  | .modifyInEpoll ok => op.call = .queued → ok = true ∧ phase = .working
  | .ack wellFormed => op.inMap = true → wellFormed = true ∧ op.RequestSent ∧ (phase = .working ∨ phase = .popping)
  | .addOpCtx => op.call = .ctxTaken → phase = .working
  | .noQueueSpace | .getQueueSpace | .noCtx | .getCtx | .noSglCtx | .copyFails | .postSent | .postQueued | .postFails
  | .finishSent | .cleanUp | .drain | .failPop | .failVisit => True

instance (phase : FailPhase) (op : Op) (event) : Decidable (op.Smooth phase event) := by
  cases event <;> dsimp only [Smooth] <;> infer_instance

end Op

namespace SockOps

/-- Every operation is right, and when the handler of a broken socket is through, every operation
whose call has returned is settled. -/
structure Right (sock : SockOps) : Prop where
  each : ∀ op ∈ sock.ops, op.Right
  settled : sock.phase = .done → ∀ op ∈ sock.ops, ∀ ok, op.call = .returned ok → op.Settled

/-- No call is posting when the handler of a broken socket begins. -/
def Smooth (sock : SockOps) : SockOpsAction → Prop
  | .op index event => ∀ op ∈ sock.ops[index]?, op.Smooth sock.phase event
  | .removeFromEpoll => ∀ op ∈ sock.ops, op.NotPosting
  | .post _ | .queueEmpty | .allVisited | .clearMap => True

instance (sock : SockOps) (action) : Decidable (sock.Smooth action) := by
  cases action <;> dsimp only [Smooth] <;> infer_instance

end SockOps

/-! ## One operation -/

namespace Op

/-- Nothing was given back yet, and nobody but the call has the context. -/
structure Fresh (slot ctx : Bool) (op : Op) : Prop where
  inQueue : op.inQueue = false
  inMap : op.inMap = false
  visited : op.visited = false
  slotTaken : op.slotTaken = slot
  ctxTaken : op.ctxTaken = ctx
  slotReturns : op.slotReturns = 0
  ctxReturns : op.ctxReturns = 0
  callbacks : op.callbacks = 0

/-- The context is in the map if the operation is one-sided. -/
structure Registered (op : Op) : Prop where
  inQueue : op.inQueue = false
  inMap : op.inMap = decide (op.kind = .oneSide)
  visited : op.visited = false
  slotTaken : op.slotTaken = true
  ctxTaken : op.ctxTaken = true
  slotReturns : op.slotReturns = 0
  ctxReturns : op.ctxReturns = 0
  callbacks : op.callbacks = 0

/-- The message is out or queued; `slot` and `ctx` say whether the call has them to give back. A
one-sided operation is in the map until it is reported. -/
structure Posted (slot ctx : Bool) (op : Op) : Prop where
  slotTaken : op.slotTaken = true
  ctxTaken : op.ctxTaken = true
  slotReturns : op.slotReturns + op.inQueue.toNat + slot.toNat = 1
  callbacks : op.callbacks = op.ctxReturns
  twoSide : op.kind = .twoSide → op.inMap = false ∧ op.visited = false ∧
    op.ctxReturns + op.inQueue.toNat + ctx.toNat = 1
  oneSide : op.kind = .oneSide → (op.inMap = true ∧ op.visited = false ∧ op.ctxReturns = 0) ∨
    (op.inMap = op.visited ∧ op.inQueue = false ∧ op.ctxReturns = 1)

/-- The call has given back what it took. -/
structure GaveUp (op : Op) : Prop where
  inQueue : op.inQueue = false
  inMap : op.inMap = false
  visited : op.visited = false
  slotReturns : op.slotReturns = op.slotTaken.toNat
  ctxReturns : op.ctxReturns = op.ctxTaken.toNat
  callbacks : op.callbacks = 0

def CallOk (op : Op) : Prop :=
  match op.call with
  | .start => op.Fresh false false
  | .slotTaken => op.Fresh true false
  | .ctxTaken => op.Fresh true true
  | .posting | .failed => op.Registered
  | .sent => op.Posted true true ∧ op.inQueue = false
  | .queued | .returned true => op.Posted false false
  | .returned false => op.GaveUp

/-- What the handler of a broken socket has done so far. -/
structure PhaseOk (phase : FailPhase) (op : Op) : Prop where
  visited : op.visited = true → phase = .visiting ∨ phase = .clearing
  broken : phase ≠ .working → op.NotPosting
  popped : phase = .visiting ∨ phase = .clearing ∨ phase = .done → op.inQueue = false
  cleared : phase = .clearing → op.inMap = true → op.visited = true
  done : phase = .done → op.inMap = false

variable {phase : FailPhase} {op : Op} {slot ctx : Bool}

/-! ### What each shape gives -/

/-- Nothing was given back, by a call that has not returned. -/
theorem right_of_held (slotReturns : op.slotReturns = 0) (ctxReturns : op.ctxReturns = 0) (callbacks : op.callbacks = 0)
    (notOver : ∀ result, op.call ≠ .returned result) : op.Right where
  slot := by rw [slotReturns]; omega
  ctx := by rw [ctxReturns]; omega
  callback := by rw [callbacks]; omega
  failed _ := callbacks
  free one := absurd (ctxReturns.symm.trans one) (by decide)
  settled := fun ⟨⟨result, returned⟩, _⟩ => absurd returned (notOver result)

theorem GaveUp.right (gaveUp : op.GaveUp) (call : op.call = .returned false) : op.Right where
  slot := by rw [gaveUp.slotReturns]; exact Bool.toNat_le _
  ctx := by rw [gaveUp.ctxReturns]; exact Bool.toNat_le _
  callback := by rw [gaveUp.callbacks]; omega
  failed _ := gaveUp.callbacks
  free _ := ⟨gaveUp.inQueue, fun inMap => nomatch gaveUp.inMap.symm.trans inMap⟩
  settled _ := ⟨gaveUp.slotReturns, gaveUp.ctxReturns, fun other => nomatch call.symm.trans other⟩

theorem Posted.ctxReturns_cases (posted : op.Posted slot ctx) :
    (op.ctxReturns = 0 ∧ (op.inQueue = true ∨ ctx = true ∨ op.inMap = true)) ∨
      (op.ctxReturns = 1 ∧ op.inQueue = false ∧ op.inMap = op.visited) := by
  cases kind : op.kind with
  | twoSide =>
    obtain ⟨inMap, visited, count⟩ := posted.twoSide kind
    cases queue : op.inQueue with
    | true =>
      rw [queue, Bool.toNat_true] at count
      exact .inl ⟨by omega, .inl rfl⟩
    | false =>
      cases ctx with
      | true =>
        rw [Bool.toNat_true] at count
        exact .inl ⟨by omega, .inr (.inl rfl)⟩
      | false =>
        rw [queue] at count
        exact .inr ⟨count, rfl, inMap.trans visited.symm⟩
  | oneSide =>
    rcases posted.oneSide kind with ⟨inMap, -, zero⟩ | ⟨inMap, inQueue, one⟩
    · exact .inl ⟨zero, .inr (.inr inMap)⟩
    · exact .inr ⟨one, inQueue, inMap⟩

theorem Posted.right (posted : op.Posted slot ctx) (notFailed : op.call ≠ .returned false)
    (ended : ∀ result, op.call = .returned result → slot = false ∧ ctx = false) : op.Right := by
  have slotReturns := posted.slotReturns
  have ctxReturns := posted.ctxReturns_cases
  refine ⟨by omega, by omega, by rw [posted.callbacks]; omega, fun failed => absurd failed notFailed, ?_, ?_⟩
  · intro one
    rcases ctxReturns with ⟨zero, -⟩ | ⟨-, inQueue, inMap⟩
    · omega
    · exact ⟨inQueue, fun mapped => inMap ▸ mapped⟩
  · rintro ⟨⟨result, returned⟩, inQueue, inMap⟩
    obtain ⟨rfl, rfl⟩ := ended result returned
    rw [inQueue] at slotReturns
    have one : op.ctxReturns = 1 := by
      rcases ctxReturns with ⟨-, queue | isCall | mapped⟩ | ⟨one, -⟩
      · exact nomatch inQueue.symm.trans queue
      · cases isCall
      · exact nomatch inMap.symm.trans mapped
      · exact one
    rw [posted.slotTaken, posted.ctxTaken]
    exact ⟨slotReturns, one, fun _ => posted.callbacks.trans one⟩

theorem CallOk.right (ok : op.CallOk) : op.Right := by
  unfold CallOk at ok
  cases call : op.call with
  | start | slotTaken | ctxTaken | posting | failed =>
    rw [call] at ok
    exact right_of_held ok.slotReturns ok.ctxReturns ok.callbacks fun result => by simp [call]
  | sent =>
    rw [call] at ok
    exact ok.1.right (by simp [call]) fun result returned => nomatch call.symm.trans returned
  | queued =>
    rw [call] at ok
    exact ok.right (by simp [call]) fun _ _ => ⟨rfl, rfl⟩
  | returned result =>
    cases result with
    | true =>
      rw [call] at ok
      exact ok.right (by simp [call]) fun _ _ => ⟨rfl, rfl⟩
    | false =>
      rw [call] at ok
      exact ok.right call

/-! ### Steps -/

/-- A message that is popped from the queue was posted, by a call that is over or about to be. -/
theorem CallOk.of_inQueue (ok : op.CallOk) (inQueue : op.inQueue = true) :
    (op.call = .queued ∨ op.call = .returned true) ∧ op.Posted false false := by
  unfold CallOk at ok
  cases call : op.call with
  | start | slotTaken | ctxTaken | posting | failed =>
    rw [call] at ok
    exact nomatch ok.inQueue.symm.trans inQueue
  | sent =>
    rw [call] at ok
    exact nomatch ok.2.symm.trans inQueue
  | queued =>
    rw [call] at ok
    exact ⟨.inl rfl, ok⟩
  | returned result =>
    rw [call] at ok
    cases result with
    | true => exact ⟨.inr rfl, ok⟩
    | false => exact nomatch ok.inQueue.symm.trans inQueue

theorem callOk_posted (call : op.call = .queued ∨ op.call = .returned true) (posted : op.Posted false false) :
    op.CallOk := by
  unfold CallOk
  rcases call with call | call
  · rwa [call]
  · rwa [call]

theorem Posted.postProcess (posted : op.Posted slot ctx) (inQueue : op.inQueue = true) :
    op.postProcess.Posted slot ctx := by
  have slotReturns := posted.slotReturns
  rw [inQueue, Bool.toNat_true] at slotReturns
  unfold Op.postProcess
  cases kind : op.kind with
  | twoSide =>
    obtain ⟨inMap, visited, count⟩ := posted.twoSide kind
    rw [inQueue, Bool.toNat_true] at count
    exact
      { posted with
        slotReturns := by show op.slotReturns + 1 + 0 + slot.toNat = 1; omega
        callbacks := congrArg (· + 1) posted.callbacks
        twoSide := fun _ => ⟨inMap, visited, by show op.ctxReturns + 1 + 0 + ctx.toNat = 1; omega⟩
        oneSide := nofun }
  | oneSide =>
    exact
      { posted with
        slotReturns := by show op.slotReturns + 1 + 0 + slot.toNat = 1; omega
        twoSide := nofun
        oneSide := fun _ => by
          rcases posted.oneSide kind with waiting | ⟨-, notQueued, -⟩
          · exact .inl waiting
          · exact nomatch inQueue.symm.trans notQueued }

theorem CallOk.postProcess (ok : op.CallOk) (inQueue : op.inQueue = true) : op.postProcess.CallOk := by
  obtain ⟨call, posted⟩ := ok.of_inQueue inQueue
  refine callOk_posted ?_ (posted.postProcess inQueue)
  unfold Op.postProcess
  cases op.kind <;> exact call

/-- The context of an operation in the map is returned, out of the map or marked there. -/
theorem Posted.oneSideDone (posted : op.Posted slot ctx) (inMap : op.inMap = true) (visited : op.visited = false)
    (inQueue : op.inQueue = false) {mark : Bool} :
    ({ op with inMap := mark, visited := mark }.oneSideDone).Posted slot ctx := by
  have kind : op.kind = .oneSide := by
    cases kind : op.kind with
    | twoSide => exact nomatch (posted.twoSide kind).1.symm.trans inMap
    | oneSide => rfl
  have zero : op.ctxReturns = 0 := by
    rcases posted.oneSide kind with ⟨-, -, zero⟩ | ⟨same, -, -⟩
    · exact zero
    · rw [inMap, visited] at same
      cases same
  exact
    { posted with
      callbacks := congrArg (· + 1) posted.callbacks
      twoSide := fun other => nomatch kind.symm.trans other
      oneSide := fun _ => .inr ⟨rfl, inQueue, congrArg (· + 1) zero⟩ }

theorem callOk_sent (call : op.call = .sent) : op.CallOk ↔ op.Posted true true ∧ op.inQueue = false := by
  rw [CallOk, call]

/-- An operation in the map whose request has been sent. -/
theorem CallOk.oneSideDone (ok : op.CallOk) (inMap : op.inMap = true) (visited : op.visited = false)
    (sent : op.RequestSent)
    {mark : Bool} : ({ op with inMap := mark, visited := mark }.oneSideDone).CallOk := by
  obtain ⟨call, inQueue⟩ := sent
  rcases call with call | call | call
  · have still : ({ op with inMap := mark, visited := mark }.oneSideDone).call = .sent := call
    exact (callOk_sent still).mpr ⟨((callOk_sent call).mp ok).1.oneSideDone inMap visited inQueue, inQueue⟩
  · rw [CallOk, call] at ok
    exact callOk_posted (.inl call) (ok.oneSideDone inMap visited inQueue)
  · rw [CallOk, call] at ok
    exact callOk_posted (.inr call) (ok.oneSideDone inMap visited inQueue)

/-- The message has been written, or is put in the queue. -/
theorem Registered.posted (registered : op.Registered) {call : PostCall} (queue : Bool) :
    Posted (!queue) (!queue) { op with call, inQueue := queue } where
  slotTaken := registered.slotTaken
  ctxTaken := registered.ctxTaken
  slotReturns := by
    rw [registered.slotReturns]
    cases queue <;> rfl
  callbacks := registered.callbacks.trans registered.ctxReturns.symm
  twoSide kind := by
    refine ⟨?_, registered.visited, ?_⟩
    · exact registered.inMap.trans (decide_eq_false fun other => nomatch kind.symm.trans other)
    · rw [registered.ctxReturns]
      cases queue <;> rfl
  oneSide kind := .inl ⟨registered.inMap.trans (decide_eq_true kind), registered.visited, registered.ctxReturns⟩

/-- The call gives back its slot, and its context if that is not in the map. -/
theorem Posted.finishSent (posted : op.Posted true true) : op.finishSent.CallOk := by
  have slotReturns : op.slotReturns + 1 + op.inQueue.toNat = 1 := by
    have held := posted.slotReturns
    rw [Bool.toNat_true] at held
    omega
  unfold Op.finishSent
  cases kind : op.kind with
  | twoSide =>
    obtain ⟨inMap, visited, count⟩ := posted.twoSide kind
    have ctxReturns : op.ctxReturns + 1 + op.inQueue.toNat = 1 := by
      rw [Bool.toNat_true] at count
      omega
    exact
      { posted with
        slotReturns := slotReturns
        callbacks := congrArg (· + 1) posted.callbacks
        twoSide := fun _ => ⟨inMap, visited, ctxReturns⟩
        oneSide := fun other => nomatch kind.symm.trans other }
  | oneSide =>
    exact
      { posted with
        slotReturns := slotReturns
        twoSide := fun other => nomatch kind.symm.trans other }

/-- An operation in the map whose call is over has been sent. -/
theorem CallOk.requestSent (ok : op.CallOk) (inMap : op.inMap = true) (idle : op.NotPosting)
    (inQueue : op.inQueue = false) :
    op.RequestSent := by
  unfold CallOk at ok
  rcases idle with call | call | call | call | call
  case inr.inr.inr.inl => exact ⟨.inr (.inr call), inQueue⟩
  -- the map does not have the operation before it is posted, nor after its call gave up
  all_goals
    rw [call] at ok
    exact nomatch ok.inMap.symm.trans inMap

/-- A call that gives up returns what it has taken. -/
theorem Fresh.gaveUp (fresh : op.Fresh slot ctx) {call : PostCall} :
    GaveUp { op with
      call
      slotReturns := op.slotReturns + slot.toNat
      ctxReturns := op.ctxReturns + ctx.toNat } where
  inQueue := fresh.inQueue
  inMap := fresh.inMap
  visited := fresh.visited
  slotReturns := by simp [fresh.slotReturns, fresh.slotTaken]
  ctxReturns := by simp [fresh.ctxReturns, fresh.ctxTaken]
  callbacks := fresh.callbacks

theorem CallOk.step (ok : op.CallOk) (phaseOk : op.PhaseOk phase) {event : OpEvent} (smooth : op.Smooth phase event) :
    (op.step phase event).CallOk := by
  have unchanged := ok
  unfold CallOk at ok
  cases event with
  | noQueueSpace | noCtx | noSglCtx | copyFails =>
    refine guarded unchanged fun call => ?_
    rw [call] at ok
    exact ok.gaveUp
  | getQueueSpace =>
    refine guarded unchanged fun call => ?_
    rw [call] at ok
    exact { ok with slotTaken := rfl }
  | getCtx =>
    refine guarded unchanged fun call => ?_
    rw [call] at ok
    exact { ok with ctxTaken := rfl }
  | addOpCtx =>
    refine guarded unchanged fun call => ?_
    rw [call] at ok
    exact { ok with inMap := rfl }
  | postFails =>
    refine guarded unchanged fun call => ?_
    rw [call] at ok
    exact { ok with }
  | postSent =>
    refine guarded unchanged fun call => ?_
    rw [call] at ok
    have same : ({ op with call := .sent } : Op) = { op with call := .sent, inQueue := false } := by rw [ok.inQueue]
    exact ⟨same ▸ ok.posted false, ok.inQueue⟩
  | postQueued =>
    refine guarded unchanged fun call => ?_
    rw [call] at ok
    exact ok.posted true
  | finishSent =>
    refine guarded unchanged fun call => ?_
    rw [call] at ok
    exact ok.1.finishSent
  | modifyInEpoll result =>
    refine guarded unchanged fun call => ?_
    rw [call] at ok
    obtain ⟨rfl, rfl⟩ := smooth call
    exact { ok with }
  | cleanUp =>
    refine guarded unchanged fun call => ?_
    rw [call] at ok
    refine ⟨ok.inQueue, rfl, ok.visited, ?_, ?_, ok.callbacks⟩
    · exact (congrArg (· + 1) ok.slotReturns).trans (congrArg Bool.toNat ok.slotTaken).symm
    · exact (congrArg (· + 1) ok.ctxReturns).trans (congrArg Bool.toNat ok.ctxTaken).symm
  | drain => exact guarded unchanged fun inQueue => unchanged.postProcess inQueue
  | ack wellFormed =>
    refine guarded unchanged fun inMap => ?_
    obtain ⟨rfl, sent, quiet⟩ := smooth inMap
    have visited : op.visited = false := by
      cases visited : op.visited with
      | false => rfl
      | true => rcases phaseOk.visited visited with rfl | rfl <;> simp at quiet
    have same : ({ op with inMap := false } : Op) = { op with inMap := false, visited := false } := by rw [visited]
    rw [same]
    exact unchanged.oneSideDone inMap visited sent
  | failPop => exact guarded unchanged fun popping => unchanged.postProcess popping.1
  | failVisit =>
    refine guarded unchanged fun visiting => ?_
    obtain ⟨inMap, visited, rfl⟩ := visiting
    have same : ({ op with visited := true } : Op) = { op with inMap := true, visited := true } := by rw [inMap]
    have sent := unchanged.requestSent inMap (phaseOk.broken (by decide)) (phaseOk.popped (.inl rfl))
    rw [same]
    exact unchanged.oneSideDone inMap (Bool.eq_false_iff.mpr visited) sent

theorem CallOk.clear (ok : op.CallOk) (notPosting : op.NotPosting) (visited : op.inMap = true → op.visited = true) :
    CallOk { op with inMap := false, visited := false } := by
  unfold CallOk at ok ⊢
  rcases notPosting with call | call | call | call | call <;> rw [call] at ok <;> simp only [call]
  case inr.inr.inr.inl =>
    exact
      { ok with
        twoSide := fun kind => ⟨rfl, rfl, (ok.twoSide kind).2.2⟩
        oneSide := fun kind => by
          rcases ok.oneSide kind with ⟨inMap, notVisited, -⟩ | ⟨-, inQueue, one⟩
          · exact nomatch notVisited.symm.trans (visited inMap)
          · exact .inr ⟨rfl, inQueue, one⟩ }
  all_goals exact { ok with inMap := rfl, visited := rfl }

section

variable (ok : op.PhaseOk phase)
include ok

/-- A step that marks nothing, and adds nothing to queue or map. -/
theorem PhaseOk.keep {next : Op} (visited : next.visited = op.visited)
    (inQueue : next.inQueue = true → op.inQueue = true) (inMap : next.inMap = true → op.inMap = true)
    (notPosting : phase ≠ .working → next.NotPosting) : next.PhaseOk phase where
  visited mark := ok.visited (visited ▸ mark)
  broken := notPosting
  popped later := Bool.eq_false_iff.mpr fun queued => nomatch (ok.popped later).symm.trans (inQueue queued)
  cleared clearing mapped := visited ▸ ok.cleared clearing (inMap mapped)
  done isDone := Bool.eq_false_iff.mpr fun mapped => nomatch (ok.done isDone).symm.trans (inMap mapped)

/-- A call is posting only while the socket works. -/
theorem PhaseOk.working (posting : ¬ op.NotPosting) : phase = .working := by
  cases phase with
  | working => rfl
  | popping | visiting | clearing | done => exact absurd (ok.broken (by decide)) posting

theorem PhaseOk.of_working {next : Op} (working : phase = .working)
    (visited : next.visited = op.visited) : next.PhaseOk phase where
  visited mark := ok.visited (visited ▸ mark)
  broken broken := absurd working broken
  popped later := by simp [working] at later
  cleared clearing := nomatch working.symm.trans clearing
  done isDone := nomatch working.symm.trans isDone

theorem PhaseOk.postProcess : op.postProcess.PhaseOk phase := by
  unfold Op.postProcess
  cases op.kind with
  | twoSide | oneSide => exact ok.keep rfl nofun id ok.broken

theorem PhaseOk.step {event : OpEvent} (smooth : op.Smooth phase event) : (op.step phase event).PhaseOk phase := by
  cases event with
  | noQueueSpace | noCtx | noSglCtx | copyFails =>
    exact guarded ok fun _ => ok.keep rfl id id fun _ => .inr (.inr (.inr (.inr rfl)))
  | getQueueSpace => exact guarded ok fun _ => ok.keep rfl id id fun _ => .inr (.inl rfl)
  | getCtx => exact guarded ok fun _ => ok.keep rfl id id fun _ => .inr (.inr (.inl rfl))
  | addOpCtx => exact guarded ok fun call => ok.of_working (smooth call) rfl
  | postSent | postQueued | postFails | modifyInEpoll =>
    exact guarded ok fun call => ok.of_working (ok.working (by simp [NotPosting, call])) rfl
  | finishSent =>
    refine guarded ok fun call => ok.of_working (ok.working (by simp [NotPosting, call])) ?_
    unfold Op.finishSent
    cases op.kind <;> rfl
  | cleanUp => exact guarded ok fun _ => ok.keep rfl id nofun fun _ => .inr (.inr (.inr (.inr rfl)))
  | drain | failPop => exact guarded ok fun _ => ok.postProcess
  | ack wellFormed =>
    refine guarded ok fun _ => ?_
    split
    · exact ok.keep rfl id nofun ok.broken
    · exact ok.keep rfl id nofun ok.broken
  | failVisit =>
    refine guarded ok fun visiting => ?_
    obtain ⟨-, -, rfl⟩ := visiting
    exact ⟨fun _ => .inl rfl, ok.broken, ok.popped, nofun, nofun⟩

end

end Op

/-! ## All operations of a socket -/

namespace SockOps

variable {sock : SockOps}

def Sound (sock : SockOps) : Prop := ∀ op ∈ sock.ops, op.CallOk ∧ op.PhaseOk sock.phase

theorem Sound.op (sound : sock.Sound) {index : Nat} {event : OpEvent}
    (smooth : ∀ op ∈ sock.ops[index]?, op.Smooth sock.phase event) :
    ∀ op ∈ sock.ops.modify index (·.step sock.phase event), op.CallOk ∧ op.PhaseOk sock.phase := by
  intro op mem
  obtain ⟨place, found⟩ := mem_iff_getElem?.mp mem
  rw [getElem?_modify] at found
  obtain ⟨before, there, isOp⟩ := Option.map_eq_some_iff.mp found
  obtain ⟨callOk, phaseOk⟩ := sound before (mem_of_getElem? there)
  split at isOp
  next same =>
    subst same isOp
    exact ⟨callOk.step phaseOk (smooth before there), phaseOk.step (smooth before there)⟩
  next => exact isOp ▸ ⟨callOk, phaseOk⟩

theorem Sound.step (sound : sock.Sound) {action : SockOpsAction} (smooth : sock.Smooth action) :
    (sock.step action).Sound := by
  cases action with
  | post kind =>
    refine forall_mem_append.mpr ⟨sound, forall_mem_singleton.mpr ?_⟩
    exact ⟨⟨rfl, rfl, rfl, rfl, rfl, rfl, rfl, rfl⟩, ⟨nofun, fun _ => .inl rfl, fun _ => rfl, nofun, fun _ => rfl⟩⟩
  | op index event => exact sound.op smooth
  | removeFromEpoll =>
    refine guarded sound fun working op mem => ?_
    obtain ⟨callOk, phaseOk⟩ := sound op mem
    rw [working] at phaseOk
    refine ⟨callOk, ⟨fun mark => ?_, fun _ => smooth op mem, by simp, nofun, nofun⟩⟩
    rcases phaseOk.visited mark with wrong | wrong <;> cases wrong
  | queueEmpty =>
    refine guarded sound fun empty op mem => ?_
    obtain ⟨callOk, phaseOk⟩ := sound op mem
    rw [empty.1] at phaseOk
    exact ⟨callOk, ⟨fun _ => .inl rfl, fun _ => phaseOk.broken (by decide), fun _ => empty.2 op mem, nofun, nofun⟩⟩
  | allVisited =>
    refine guarded sound fun visited op mem => ?_
    obtain ⟨callOk, phaseOk⟩ := sound op mem
    rw [visited.1] at phaseOk
    exact ⟨callOk, ⟨fun _ => .inr rfl, fun _ => phaseOk.broken (by decide), fun _ => phaseOk.popped (.inl rfl),
      fun _ => visited.2 op mem, nofun⟩⟩
  | clearMap =>
    refine guarded sound fun clearing op mem => ?_
    obtain ⟨before, beforeListed, rfl⟩ := mem_map.mp mem
    obtain ⟨callOk, phaseOk⟩ := sound before beforeListed
    rw [clearing] at phaseOk
    have inQueue := phaseOk.popped (.inr (.inl rfl))
    have notPosting := phaseOk.broken (by decide)
    exact ⟨callOk.clear notPosting (phaseOk.cleared rfl),
      ⟨nofun, fun _ => notPosting, fun _ => inQueue, nofun, fun _ => rfl⟩⟩

theorem Sound.right (sound : sock.Sound) : sock.Right where
  each op mem := (sound op mem).1.right
  settled isDone op mem ok returned :=
    ⟨⟨ok, returned⟩, (sound op mem).2.popped (.inr (.inr isDone)), (sound op mem).2.done isDone⟩

/-- In every smooth run slot and context of every operation are given back exactly once, and its
outcome is reported exactly once. -/
theorem right_of_smooth_ops (sock : SockOps) (run : Run step Smooth initial sock) : sock.Right :=
  Sound.right (run.invariant (motive := Sound) nofun fun _ _ sound smooth => sound.step smooth)

def stepsOf (index : Nat) (events : List OpEvent) : List SockOpsAction := events.map (.op index)

/-- A send that is queued and drained, a read that is acknowledged, and a write that is queued when
the socket breaks. -/
def threeOps : List SockOpsAction :=
  [.post .twoSide] ++ stepsOf 0 [.getQueueSpace, .getCtx, .addOpCtx, .postQueued, .drain, .modifyInEpoll true] ++
  [.post .oneSide] ++ stepsOf 1 [.getQueueSpace, .getCtx, .addOpCtx, .postSent, .ack true, .finishSent] ++
  [.post .oneSide] ++ stepsOf 2 [.getQueueSpace, .getCtx, .addOpCtx, .postQueued, .modifyInEpoll true] ++
  [.removeFromEpoll, .op 2 .failPop, .queueEmpty, .op 2 .failVisit, .allVisited, .clearMap]

theorem right_threeOps :
    ∃ sock, Run step Smooth initial sock ∧ sock.phase = .done ∧ sock.ops.map (·.ctxReturns) = [1, 1, 1] ∧
      sock.ops.map (·.callbacks) = [1, 1, 1] ∧ sock.Right :=
  have run : Run step Smooth initial (threeOps.foldl step initial) := .ofList (by decide)
  ⟨_, run, by decide, by decide, by decide, right_of_smooth_ops _ run⟩

/-- The send is in the queue when the change in epoll fails. -/
def epollFails : List SockOpsAction :=
  [.post .twoSide] ++ stepsOf 0 [.getQueueSpace, .getCtx, .addOpCtx, .postQueued, .modifyInEpoll false, .drain]

/-- The acknowledgement of a read does not have the length that was asked for. -/
def ackMalformed : List SockOpsAction :=
  [.post .oneSide] ++ stepsOf 0 [.getQueueSpace, .getCtx, .addOpCtx, .postSent, .finishSent, .ack false]

theorem smooth_needed :
    (∃ sock, Run step (fun _ _ => True) initial sock ∧
      sock.ops.map (fun op => (op.call, op.callbacks)) = [(.returned false, 1)] ∧ ¬ sock.Right) ∧
    (∃ sock, Run step (fun _ _ => True) initial sock ∧
      sock.ops.map (fun op => (op.call, op.inMap, op.ctxReturns, op.callbacks)) = [(.returned true, false, 0, 0)] ∧
      ¬ sock.Right) := by
  constructor
  · have run : Run step (fun _ _ => True) initial (epollFails.foldl step initial) := .ofList (by decide)
    refine ⟨_, run, by decide, fun right => ?_⟩
    exact absurd ((right.each _ mem_cons_self).failed rfl) (by decide)
  · have run : Run step (fun _ _ => True) initial (ackMalformed.foldl step initial) := .ofList (by decide)
    refine ⟨_, run, by decide, fun right => ?_⟩
    exact absurd ((right.each _ mem_cons_self).settled ⟨⟨true, rfl⟩, rfl, rfl⟩).2.1 (by decide)

end SockOps

end UbsComm.Sock
