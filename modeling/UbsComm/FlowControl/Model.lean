import UbsComm.Ub.Bind
import UbsComm.Ub.PostTx

/-! # Shared-credit flow control

A bound pair of queues carries two independent *links*, one per direction.  A link
collects the state the two ends keep for that direction: the sender's part of
`ub_flow_control_t` (window, permission, request sequence), the receiver's part
(allocated total, expected sequence, parked retries) and the messages under way.
The receiving ends of any number of links share a credit pool (`ub_credit_pool_t`).

Whether a posted message is delivered or completes with an error is decided by the
fabric; a message carries that decision as its `fate`.  The `stamp` of a message and
the fields at the end of `Link` are ghosts: they name the requests posted so far, and
no function below branches on them.  Counters of 64 bits are `Nat`: each increment is a
`uint16_t`, so none of them wraps before 2^48 increments. -/

namespace UbsComm.FlowControl

open Ub Function

/-- The two requests of the protocol; a reply is named after the request it answers. -/
inductive ReqKind where
  | creditReq | returnReq
  deriving DecidableEq

inductive Fate where
  | delivered | failed
  deriving DecidableEq

/-- `IMM_TYPE_FC_CREDIT_REQ` or `IMM_TYPE_FC_CREDIT_RETURN_REQ`.  `window` is the 10-bit
field on the wire, `notify` the copy in the completion context. -/
structure FcReq where
  kind : ReqKind
  window : Fin 1024
  notify : Nat
  seq : Nat
  stamp : Nat
  fate : Fate

/-- `IMM_TYPE_FC_CREDIT_REP` or `IMM_TYPE_FC_CREDIT_RETURN_ACK`. -/
structure FcRep where
  kind : ReqKind
  window : Fin 1024
  notify : Nat
  ratio : Nat
  seq : Nat
  stamp : Nat
  fate : Fate

/-- A posted work request: the opcode of its buffer, the opcode URMA was given, and the
queue id its immediate carries. -/
structure DataMsg where
  bufOpcode : UmqOpcode
  opcode : UrmaOpcode
  umqId : Nat

/-- A request in the history of a link: how many replies had been applied when it was
posted, and what became of it. -/
structure Posted where
  turn : Nat
  fate : Fate

structure Link where
  remoteRxWindow : Nat
  creditsPerRequest : Nat
  peerRatio : Nat
  isCreditApplying : Bool
  localReqSeq : Nat
  remoteExpectSeq : Nat
  allocatedSuccess : Nat
  retry : List FcReq
  reqs : List FcReq
  reps : List FcRep
  data : List DataMsg
  -- ghosts; a stamp is a position in the history
  history : List Posted
  accepted : Nat
  openReqs : List Nat
  appliedReqs : List Nat
  appliedReps : List Nat

structure PendingReq (L : Type) where
  link : L
  requested : Nat
  seq : Nat
  stamp : Nat
  deriving DecidableEq

structure UbCreditPool (L : Type) where
  isLimited : Bool
  idle : Nat
  allocated : Nat
  allocatedUnlimited : Nat
  pendingList : List (PendingReq L)
  pendingCount : Nat
  maxPending : Nat

/-- The settings of `umq_ub_flow_control_init` a link reads; the credit multiple is a
float, and only its two roundings matter. -/
structure LinkCfg where
  localRxDepth : Nat
  minReservedCredit : Nat
  maxCreditsRequest : Nat
  returnRatio : Nat
  divMultiple : Nat → Nat
  mulMultiple : Nat → Nat
  senderLimited : Bool
  mainUmq : Bool

/-- Which pool and device the receiving end of each link belongs to.  `umqId` is the receiving queue's own id, which
it got from an id generator; ids are unique on a device. -/
structure Topology (L P D : Type) where
  poolOf : L → P
  dev : L → D
  umqId : L → Nat
  cfg : L → LinkCfg
  given : ∀ link, IdGenerator.Gives umqIdAllocSize (umqId link)
  umqId_inj : ∀ link other, dev link = dev other → umqId link = umqId other → link = other

theorem Topology.umqId_lt {L P D : Type} (topo : Topology L P D) (link : L) : topo.umqId link < 2 ^ 17 :=
  IdGenerator.gives_iff.mp (topo.given link)

structure Net (L P D : Type) where
  link : L → Link
  pool : P → UbCreditPool L
  retryFree : P → Nat
  rxConsumedJettyTable : D → Nat → Nat

variable {L P D : Type} [DecidableEq L] [DecidableEq P] [DecidableEq D]

def Net.modify (net : Net L P D) (link : L) (f : Link → Link) : Net L P D :=
  { net with link := update net.link link (f (net.link link)) }

def Net.modifyPool (net : Net L P D) (pool : P) (f : UbCreditPool L → UbCreditPool L) : Net L P D :=
  { net with pool := update net.pool pool (f (net.pool pool)) }

/-! ## Counters -/

def umqUbFcMaxImmData : Nat := 1023

/-- `counter_inc_*_u16`: an overflowing increment is refused. -/
def counterIncU16 (before count : Nat) : Nat :=
  if before + count > uint16Max then before else before + count

variable (pool : UbCreditPool L)

def availableCreditInc (count : Nat) : UbCreditPool L :=
  { pool with idle := counterIncU16 pool.idle count }

def availableCreditDec (count : Nat) : UbCreditPool L × Nat :=
  if pool.isLimited then
    let actual := min pool.idle count
    ({ pool with idle := pool.idle - actual, allocated := counterIncU16 pool.allocated actual }, actual)
  else ({ pool with allocatedUnlimited := pool.allocatedUnlimited + count }, count)

def availableCreditReturn (count : Nat) : UbCreditPool L :=
  if pool.isLimited then
    { pool with allocated := pool.allocated - count, idle := counterIncU16 pool.idle count }
  else { pool with allocatedUnlimited := pool.allocatedUnlimited - count }

def allocatedCreditDec (count : Nat) : UbCreditPool L :=
  if pool.isLimited then { pool with allocated := pool.allocated - count }
  else { pool with allocatedUnlimited := pool.allocatedUnlimited - count }

def umqUbFcSeqInc (seq : Nat) : Nat :=
  if (seq + 1) % 256 = 0 then 1 else (seq + 1) % 256

/-- `g_umq_ub_credit_ratio`. -/
def creditRatio : List Nat := [1, 3, 5, 7]

def umqUbFcRaitoToImm (available total : Nat) : Nat :=
  if available ≥ total ∨ total = 0 then 0
  else
    let ratio := (total - available) * 10 / total
    (creditRatio.findIdx? (ratio ≤ ·)).getD (creditRatio.length - 1)

def umqUbFcImmToRatio (ratio : Nat) : Nat := creditRatio.getD ratio 1

def umqUbFlowControlThreasholdModify (threashold ratio : Nat) : Nat :=
  let modified := threashold * umqUbFcImmToRatio ratio / 10
  if modified = 0 then 2 else modified

/-- The allocated credit a reply's ratio is computed from. -/
def UbCreditPool.poolAllocated : Nat :=
  if pool.isLimited then pool.allocated else pool.allocatedUnlimited

/-! ## Completions and posting -/

/-- A flow-control send completion: one that needs no handling (success, or a flush or
suspend marker), or the failure of a message still on the books of a link. -/
inductive FcCr (L : Type) where
  | done
  | failedReq (link : L) (index : Nat) (fatal : Bool)
  | failedRep (link : L) (index : Nat) (fatal : Bool)

def FcCr.ret (before : UmqRet) : FcCr L → UmqRet
  | .done => before
  | .failedReq _ _ fatal | .failedRep _ _ fatal => .error (if fatal then .eflowctlFatal else .eflowctl)

/-- How a poll of the flow-control completion queue goes: not made (exiting, or the
jetty node belongs to another queue), refused by URMA, or a batch of completions. -/
inductive FcPoll (L : Type) where
  | skipped
  | broken
  | polled (crs : List (FcCr L))

/-- One `urma_post_jetty_send_wr`, and the poll that follows it if it has to be retried. -/
structure PostAttempt (L : Type) where
  status : Except UrmaError Unit
  poll : FcPoll L

/-- What one send of a flow-control message meets.  `retries` are the attempts the time
budget allows after the first one. -/
structure SendEnv (L : Type) where
  bound : Bool
  poll : FcPoll L
  jettyNode : UmqRet
  attempt : PostAttempt L
  retries : List (PostAttempt L)
  eagainFatal : Bool
  fate : Fate

def umqUbFlowControlJettyDepth : Nat := 2

def umqUbFlowControlPollMaxRetry : Nat := 128

/-- The sender's side of a failed request: give back a return, release the permission. -/
def Link.failReq (link : Link) (index : Nat) (req : FcReq) : Link :=
  { link with
    reqs := link.reqs.eraseIdx index
    isCreditApplying := false
    remoteRxWindow := match req.kind with
      | .creditReq => link.remoteRxWindow
      | .returnReq => remoteRxWindowInc link.remoteRxWindow req.notify
    openReqs := link.openReqs.erase req.stamp }

/-- The receiver's side of a failed reply; a lost acknowledgement changes nothing. -/
def Link.failRep (link : Link) (index : Nat) (rep : FcRep) : Link :=
  { link with
    reps := link.reps.eraseIdx index
    allocatedSuccess := match rep.kind with
      | .creditReq => link.allocatedSuccess - rep.notify
      | .returnReq => link.allocatedSuccess }

def FcRep.failPool (rep : FcRep) (pool : UbCreditPool L) : UbCreditPool L :=
  match rep.kind with
  | .creditReq => availableCreditReturn pool rep.notify
  | .returnReq => pool

variable (topo : Topology L P D) (net : Net L P D)

/-- A completion refers to a message by its place on the link; one that does not exist
or did not fail has no such completion. -/
def umqUbFcProcessTxError : FcCr L → Net L P D
  | .done => net
  | .failedReq link index _ =>
    match (net.link link).reqs[index]? with
    | some req => if req.fate = .failed then net.modify link (·.failReq index req) else net
    | none => net
  | .failedRep link index _ =>
    match (net.link link).reps[index]? with
    | some rep =>
      if rep.fate = .failed then
        (net.modifyPool (topo.poolOf link) rep.failPool).modify link (·.failRep index rep)
      else net
    | none => net

def umqUbPollFcTx : FcPoll L → Net L P D × UmqRet
  | .skipped => (net, .ok ())
  | .broken => (net, .error .fail)
  | .polled crs =>
    (crs.take umqUbFlowControlJettyDepth).foldl
      (fun state cr => (umqUbFcProcessTxError topo state.1 cr, cr.ret state.2)) (net, .ok ())

/-- Statuses after which a post is tried again. -/
def retriable : Except UrmaError Unit → Bool
  | .error .eagain | .error .enomem => true
  | _ => false

/-- One round of `umq_ub_flow_control_try_post_send`; the flag asks for another one. -/
def umqUbTryPostOnce (attempt : PostAttempt L) : Net L P D × Except UrmaError Unit × Bool :=
  if !retriable attempt.status then (net, attempt.status, false)
  else match umqUbPollFcTx topo net attempt.poll with
    | (polled, .error _) => (polled, .error .fail, false)
    | (polled, .ok ()) => (polled, attempt.status, true)

def umqUbFlowControlTryPostSend (net : Net L P D) (attempt : PostAttempt L) :
    List (PostAttempt L) → Net L P D × Except UrmaError Unit
  | [] => ((umqUbTryPostOnce topo net attempt).1, (umqUbTryPostOnce topo net attempt).2.1)
  | next :: rest =>
    match umqUbTryPostOnce topo net attempt with
    | (tried, status, false) => (tried, status)
    | (tried, _, true) => umqUbFlowControlTryPostSend tried next rest

/-- Poll, then borrow a jetty: the opening of every send. -/
def umqUbFcPrepare (env : SendEnv L) : Net L P D × UmqRet :=
  match umqUbPollFcTx topo net env.poll with
  | (polled, .error err) => (polled, .error err)
  | (polled, .ok ()) => (polled, env.jettyNode)

/-- The post itself, with the error codes all four messages share. -/
def umqUbFcPost (env : SendEnv L) : Net L P D × UmqRet :=
  match umqUbFlowControlTryPostSend topo net env.attempt (env.retries.take umqUbFlowControlPollMaxRetry) with
  | (posted, .ok ()) => (posted, .ok ())
  | (posted, .error status) =>
    (posted, .error (if retriable (.error status) then .eflowctlEagain else .eflowctl))

/-! ## Requests -/

def umqUbPermissionRelease (link : L) : Net L P D :=
  net.modify link ({ · with isCreditApplying := false })

/-- A request that URMA took. -/
def Link.postReq (link : Link) (kind : ReqKind) (window : Nat) (fate : Fate) : Link :=
  { link with
    reqs := link.reqs ++ [⟨kind, Fin.ofNat 1024 window, window, link.localReqSeq, link.history.length, fate⟩]
    history := link.history ++ [⟨link.appliedReps.length, fate⟩]
    openReqs := link.openReqs ++ [link.history.length] }

def umqUbSharedCreditReqSend (link : L) (env : SendEnv L) : Net L P D × UmqRet :=
  if !env.bound ∨ (net.link link).isCreditApplying then (net, .ok ())
  else
    let acquired := net.modify link ({ · with isCreditApplying := true })
    match umqUbFcPrepare topo acquired env with
    | (prepared, .error err) => (umqUbPermissionRelease prepared link, .error err)
    | (prepared, .ok ()) =>
      let creditsPerRequest := min (prepared.link link).creditsPerRequest umqUbFcMaxImmData
      match umqUbFcPost topo prepared env with
      | (posted, .ok ()) => (posted.modify link (·.postReq .creditReq creditsPerRequest env.fate), .ok ())
      | (posted, .error err) =>
        (umqUbPermissionRelease posted link,
          .error (if err = .eflowctlEagain ∧ env.eagainFatal then .eflowctlFatal else err))

/-- The window below which nothing is returned. -/
def Link.returnThreshold (link : Link) (cfg : LinkCfg) : Nat :=
  if link.peerRatio = 0 then 0 else umqUbFlowControlThreasholdModify cfg.minReservedCredit link.peerRatio

/-- How much of `remoteCredit` to return, at most what the ten-bit field holds. -/
def returnCredit (cfg : LinkCfg) (remoteCredit threshold : Nat) : Nat :=
  let share := max 1 (remoteCredit / cfg.returnRatio)
  let kept := if remoteCredit - share ≤ threshold then remoteCredit - threshold else share
  min kept umqUbFcMaxImmData

/-- `due` is the timer's part: the queue has a checker and has not sent for a while. -/
def umqUbSharedCreditReturnReqSend (link : L) (due : Bool) (env : SendEnv L) : Net L P D × UmqRet :=
  let remoteCredit := (net.link link).remoteRxWindow
  let threshold := (net.link link).returnThreshold (topo.cfg link)
  if !env.bound ∨ !due ∨ remoteCredit ≤ threshold ∨ (net.link link).isCreditApplying then (net, .ok ())
  else
    let acquired := net.modify link ({ · with isCreditApplying := true })
    match umqUbPollFcTx topo acquired env.poll with
    | (polled, .error err) => (umqUbPermissionRelease polled link, .error err)
    | (polled, .ok ()) =>
      let tuned := polled.modify link fun l =>
        { l with creditsPerRequest := max 1 ((topo.cfg link).divMultiple l.creditsPerRequest % 2 ^ 16) }
      match env.jettyNode with
      | .error err => (umqUbPermissionRelease tuned link, .error err)
      | .ok () =>
        let taken := remoteRxWindowDec (tuned.link link).remoteRxWindow
          (returnCredit (topo.cfg link) remoteCredit threshold)
        let debited := tuned.modify link ({ · with remoteRxWindow := taken.1 })
        match umqUbFcPost topo debited env with
        | (posted, .ok ()) => (posted.modify link (·.postReq .returnReq taken.2 env.fate), .ok ())
        | (posted, .error err) =>
          ((umqUbPermissionRelease posted link).modify link fun l =>
            { l with remoteRxWindow := remoteRxWindowInc l.remoteRxWindow taken.2 }, .error err)

/-! ## Replies and the pending queue -/

/-- A reply that URMA took; it settles the request with the given stamp. -/
def Link.postRep (link : Link) (kind : ReqKind) (notify ratio seq stamp : Nat) (fate : Fate) : Link :=
  { link with
    reps := link.reps ++ [⟨kind, Fin.ofNat 1024 notify, notify, ratio, seq, stamp, fate⟩]
    appliedReqs := link.appliedReqs ++ [stamp] }

/-- The body both replies share: `build` puts the message on the link. -/
def umqUbFcSend (link : L) (env : SendEnv L) (build : Net L P D → Link → Link) : Net L P D × UmqRet :=
  if !env.bound then (net, .error .emlink)
  else match umqUbFcPrepare topo net env with
    | (prepared, .error err) => (prepared, .error err)
    | (prepared, .ok ()) =>
      match umqUbFcPost topo prepared env with
      | (posted, .error err) => (posted, .error err)
      | (posted, .ok ()) => (posted.modify link (build prepared), .ok ())

def umqUbSharedCreditRespSend (link : L) (notify ratio seq stamp : Nat) (env : SendEnv L) : Net L P D × UmqRet :=
  umqUbFcSend topo net link env fun _ l => l.postRep .creditReq notify ratio seq stamp env.fate

/-- The part of the receive depth that is still free, as the reply reports it. -/
def Net.ratio (link : L) : Nat :=
  umqUbFcRaitoToImm (net.pool (topo.poolOf link)).poolAllocated (topo.cfg link).localRxDepth

/-- The ratio is read after the jetty was borrowed. -/
def umqUbSharedCreditReturnAck (link : L) (credit seq stamp : Nat) (env : SendEnv L) : Net L P D × UmqRet :=
  umqUbFcSend topo net link env fun prepared l =>
    l.postRep .returnReq credit (prepared.ratio topo link) seq stamp env.fate

/-- Take credits from a pool for a link, or put them back. -/
def Net.grant (pool : P) (link : L) (requested : Nat) : Net L P D :=
  (net.modifyPool pool fun p => (availableCreditDec p requested).1).modify link fun l =>
    { l with allocatedSuccess := l.allocatedSuccess + (availableCreditDec (net.pool pool) requested).2 }

def Net.giveBack (pool : P) (link : L) (credit : Nat) : Net L P D :=
  (net.modifyPool pool fun p => availableCreditReturn p credit).modify link fun l =>
    { l with allocatedSuccess := l.allocatedSuccess - credit }

def umqUbSharedCreditReqHandle (link : L) (requested seq stamp : Nat) (env : SendEnv L) : Net L P D × UmqRet :=
  let pool := topo.poolOf link
  let allocated := (availableCreditDec (net.pool pool) requested).2
  match umqUbSharedCreditRespSend topo (net.grant pool link requested) link allocated
      (net.ratio topo link) seq stamp env with
  | (sent, .ok ()) => (sent, .ok ())
  | (sent, .error err) => (sent.giveBack pool link allocated, .error err)

def UbCreditPool.pushBack (req : PendingReq L) : UbCreditPool L :=
  { pool with pendingList := pool.pendingList ++ [req] }

/-- One round of `umq_ub_credit_pending_queue_process`; the flag is false after a
`break`. -/
def umqUbPendingRound (pool : P) (env : SendEnv L) : Net L P D × Bool :=
  if (net.pool pool).idle = 0 then (net, false)
  else match (net.pool pool).pendingList with
    | [] => (net, false)
    | head :: rest =>
      let popped := net.modifyPool pool ({ · with pendingList := rest })
      let allocated := (availableCreditDec (popped.pool pool) head.requested).2
      if allocated = 0 then
        (popped.modifyPool pool fun p => (availableCreditDec p head.requested).1.pushBack head, false)
      else
        let granted := popped.grant pool head.link head.requested
        let ratio := umqUbFcRaitoToImm (granted.pool pool).allocated (topo.cfg head.link).localRxDepth
        match umqUbSharedCreditRespSend topo granted head.link allocated ratio head.seq head.stamp env with
        | (sent, .ok ()) => (sent.modifyPool pool fun p => { p with pendingCount := p.pendingCount - 1 }, true)
        | (sent, .error _) => ((sent.giveBack pool head.link allocated).modifyPool pool (·.pushBack head), true)

/-- At most as many rounds as there were requests, each with its own send. -/
def umqUbPendingLoop (pool : P) (envs : Nat → SendEnv L) : Nat → Net L P D → Net L P D
  | 0, net => net
  | rounds + 1, net =>
    match umqUbPendingRound topo net pool (envs rounds) with
    | (served, true) => umqUbPendingLoop pool envs rounds served
    | (served, false) => served

def umqUbCreditPendingQueueProcess (pool : P) (envs : Nat → SendEnv L) : Net L P D :=
  if !(net.pool pool).isLimited then net
  else umqUbPendingLoop topo pool envs (net.pool pool).pendingCount net

/-- What the receiver has recorded as consumed by the sender of a link. -/
def Net.consumed (link : L) : Nat :=
  net.rxConsumedJettyTable (topo.dev link) (topo.umqId link)

def umqUbSharedCreditReturnReqHandle (link : L) (req : FcReq) (env : SendEnv L)
    (pending : Nat → SendEnv L) : Net L P D × UmqRet :=
  let allocated := (net.link link).allocatedSuccess
  let consumed := net.consumed topo link
  if allocated < consumed then umqUbSharedCreditReturnAck topo net link 0 req.seq req.stamp env
  else
    let credit := min req.window.val (allocated - consumed)
    match umqUbSharedCreditReturnAck topo net link credit req.seq req.stamp env with
    | (acked, .error err) => (acked, .error err)
    | (acked, .ok ()) =>
      (umqUbCreditPendingQueueProcess topo (acked.giveBack (topo.poolOf link) link credit) (topo.poolOf link) pending,
        .ok ())

/-! ## Received messages -/

/-- `umq_ub_process_fc_msg` for a request. -/
def umqUbProcessFcReq (link : L) (req : FcReq) (env : SendEnv L) (pending : Nat → SendEnv L) :
    Net L P D × UmqRet :=
  match req.kind with
  | .creditReq => umqUbSharedCreditReqHandle topo net link req.window.val req.seq req.stamp env
  | .returnReq => umqUbSharedCreditReturnReqHandle topo net link req env pending

/-- The errors after which a request is kept for another try. -/
def keptForRetry : UmqErr → Bool
  | .emlink | .eflowctlEagain => true
  | _ => false

/-- `umq_ub_fc_msg_retry_enqueue`: dropped when no node of the owner's list is free. -/
def umqUbFcMsgRetryEnqueue (link : L) (req : FcReq) : Net L P D :=
  let owner := topo.poolOf link
  if net.retryFree owner = 0 then net
  else
    { net with retryFree := update net.retryFree owner (net.retryFree owner - 1) }.modify link fun l =>
      { l with retry := l.retry ++ [req] }

/-- What becomes of a request after one try: answered, kept for another try, or given up. -/
def umqUbAfterTry (link : L) (req : FcReq) (timedOut : Bool) : Net L P D × UmqRet → Net L P D
  | (processed, .ok ()) => processed
  | (processed, .error err) =>
    if timedOut || !keptForRetry err then processed else umqUbFcMsgRetryEnqueue topo processed link req

def umqUbProcessFcMsgWithRetry (link : L) (req : FcReq) (env : SendEnv L)
    (pending : Nat → SendEnv L) : Net L P D :=
  umqUbAfterTry topo link req false (umqUbProcessFcReq topo net link req env pending)

/-- Whether `is_umq_ub_req_enqueue` parks a request.  Only the main queue's receive loop
asks. -/
def umqUbReqWaits (link : L) (req : FcReq) : Bool :=
  let pool := net.pool (topo.poolOf link)
  (topo.cfg link).mainUmq && req.kind == .creditReq && pool.isLimited && min pool.idle req.window.val == 0 &&
    decide (pool.pendingCount < pool.maxPending)

def umqUbCreditPendingReqEnqueue (link : L) (req : FcReq) : Net L P D :=
  net.modifyPool (topo.poolOf link) fun pool =>
    { pool.pushBack ⟨link, req.window.val, req.seq, req.stamp⟩ with pendingCount := pool.pendingCount + 1 }

/-- Accept a request that carries the expected sequence number. -/
def Link.accept (link : Link) : Link :=
  { link with remoteExpectSeq := umqUbFcSeqInc link.remoteExpectSeq, accepted := link.accepted + 1 }

/-- The receive loop on a request that arrived. -/
def umqUbPollFcRxReq (link : L) (index : Nat) (env : SendEnv L) (pending : Nat → SendEnv L) : Net L P D :=
  match (net.link link).reqs[index]? with
  | none => net
  | some req =>
    if req.fate = .failed then net
    else
      let arrived := net.modify link fun l => { l with reqs := l.reqs.eraseIdx index }
      if req.seq ≠ (net.link link).remoteExpectSeq then arrived
      else
        let accepted := arrived.modify link Link.accept
        if umqUbReqWaits topo accepted link req then umqUbCreditPendingReqEnqueue topo accepted link req
        else umqUbProcessFcMsgWithRetry topo accepted link req env pending

/-- The next request size after a reply (`umq_ub_shared_credit_resp_handle`). -/
def nextCreditsPerRequest (cfg : LinkCfg) (current reply ratio : Nat) : Nat :=
  let request :=
    if reply < current ∨ (!cfg.senderLimited ∧ ratio = 0) then cfg.divMultiple current
    else min (cfg.mulMultiple current) cfg.maxCreditsRequest
  umqUbFlowControlThreasholdModify (request % 2 ^ 16) ratio + 1

/-- A reply with the sequence number of the open request: the credit handling, the next
sequence number and the release of the permission. -/
def Link.applyRep (link : Link) (cfg : LinkCfg) (rep : FcRep) : Link :=
  let answered := { link with
    peerRatio := rep.ratio
    localReqSeq := umqUbFcSeqInc link.localReqSeq
    isCreditApplying := false
    openReqs := link.openReqs.erase rep.stamp
    appliedReps := link.appliedReps ++ [rep.stamp] }
  match rep.kind with
  | .creditReq =>
    { answered with
      creditsPerRequest := nextCreditsPerRequest cfg link.creditsPerRequest rep.window.val rep.ratio
      remoteRxWindow := remoteRxWindowInc link.remoteRxWindow rep.window.val }
  | .returnReq => answered

def umqUbPollFcRxRep (link : L) (index : Nat) : Net L P D :=
  match (net.link link).reps[index]? with
  | none => net
  | some rep =>
    if rep.fate = .failed then net
    else
      let arrived := net.modify link fun l => { l with reps := l.reps.eraseIdx index }
      if rep.seq ≠ (net.link link).localReqSeq then arrived
      else arrived.modify link (·.applyRep (topo.cfg link) rep)

/-- `umq_ub_fc_msg_retry_dequeue`.  An entry that has to wait on goes to the end of the
list; a drain may start at any entry, so the place does not matter. -/
def umqUbFcMsgRetryDequeue (link : L) (index : Nat) (timedOut : Bool) (env : SendEnv L)
    (pending : Nat → SendEnv L) : Net L P D :=
  match (net.link link).retry[index]? with
  | none => net
  | some req =>
    let owner := topo.poolOf link
    let taken := { net with retryFree := update net.retryFree owner (net.retryFree owner + 1) }.modify link
      fun l => { l with retry := l.retry.eraseIdx index }
    umqUbAfterTry topo link req timedOut (umqUbProcessFcReq topo taken link req env pending)

/-! ## Data and refills -/

/-- The opcode `umq_ub_on_tx_done` finds in the buffer a completion names. -/
def completedOpcode (call : TxCall) (userCtx : Nat) : UmqOpcode :=
  (call.chain.find? (·.addr = userCtx)).elim .nop (·.opcode)

def postedMessages (call : TxCall) : List DataMsg :=
  (umqUbPostTx call).posted.map fun wr => ⟨completedOpcode call wr.userCtx, wr.opcode, wr.imm.umqId.val⟩

/-- The call is made on the sending end of this link.  The credit requests nested in a
post are steps of their own, so that the call itself gains no credit. -/
def Net.Posts (link : L) (call : TxCall) : Prop :=
  call.window = some (net.link link).remoteRxWindow ∧ call.queue.remoteUmqId = topo.umqId link ∧
    call.env.creditCheck.returned = 0 ∧ call.env.creditReq.returned = 0

instance (link : L) (call : TxCall) : Decidable (net.Posts topo link call) :=
  inferInstanceAs (Decidable (_ ∧ _ ∧ _ ∧ _))

def Net.postTx (link : L) (call : TxCall) : Net L P D :=
  if net.Posts topo link call then
    net.modify link fun l =>
      { l with
        remoteRxWindow := (umqUbPostTx call).window.getD l.remoteRxWindow
        data := l.data ++ postedMessages call }
  else net

/-- The accounting of `umq_ub_poll_rx` for one completion, whatever its status. -/
def umqUbPollRxAccount (pool : P) (dev : D) (umqId : Nat) : Net L P D :=
  let table := net.rxConsumedJettyTable
  { net.modifyPool pool (allocatedCreditDec · 1) with
    rxConsumedJettyTable :=
      if umqId < umqIdAllocSize then update table dev (update (table dev) umqId (table dev umqId + 1))
      else table }

/-- A message arrives: it completes a receive buffer if its operation consumes one. -/
def Net.recvData (link : L) (index : Nat) : Net L P D :=
  match (net.link link).data[index]? with
  | none => net
  | some msg =>
    let arrived := net.modify link fun l => { l with data := l.data.eraseIdx index }
    if msg.opcode.consumesRqe then
      umqUbPollRxAccount arrived (topo.poolOf link) (topo.dev link) msg.umqId
    else arrived

/-- A send completes with an error.  `umq_ub_poll_tx_single` refunds the window through
`umq_ub_on_tx_done`; `umq_ub_flush_sqe` only reports the buffer. -/
def Net.dataFailed (link : L) (index : Nat) (flushed : Bool) : Net L P D :=
  match (net.link link).data[index]? with
  | none => net
  | some msg =>
    net.modify link fun l =>
      { l with
        data := l.data.eraseIdx index
        remoteRxWindow :=
          if !flushed && msg.bufOpcode.consumeRqe then remoteRxWindowInc l.remoteRxWindow 1 else l.remoteRxWindow }

def umqUbSharedCreditRecharge (pool : P) (count : Nat) (pending : Nat → SendEnv L) : Net L P D :=
  if count = 0 ∨ !(net.pool pool).isLimited then net
  else umqUbCreditPendingQueueProcess topo (net.modifyPool pool (availableCreditInc · count)) pool pending

/-! ## Binding and teardown -/

def umqInitialCredit : Nat := 16

/-- The credit `umq_ub_bind_info_serialize` puts into the bind info of a queue that has
not been given any. -/
def umqUbInitialCredit (link : L) : Net L P D :=
  if (net.link link).allocatedSuccess = 0 then net.grant (topo.poolOf link) link umqInitialCredit else net

/-- `local_rx_posted` is never set, so only the unconsumed credit is returned.  The
difference is an unsigned one: nothing is returned when more was consumed than allocated. -/
def umqUbCreditCleanUp (link : L) (pending : Nat → SendEnv L) : Net L P D :=
  let allocated := (net.link link).allocatedSuccess
  let consumed := net.consumed topo link
  if allocated < consumed ∨ allocated - consumed > uint16Max then net
  else
    umqUbCreditPendingQueueProcess topo (net.giveBack (topo.poolOf link) link (allocated - consumed))
      (topo.poolOf link) pending

/-- The count is passed on as a sixteen-bit number. -/
def umqUbIdleCreditFlush (pool : P) (count : Nat) : Net L P D :=
  net.modifyPool pool fun p => { p with idle := p.idle - count % 2 ^ 16 }

def umqUbCreditPendingReqRemoveByQueue (link : L) : Net L P D :=
  net.modifyPool (topo.poolOf link) fun pool =>
    if pool.pendingList.any (·.link = link) then
      { pool with
        pendingList := pool.pendingList.eraseP (·.link = link)
        pendingCount := pool.pendingCount - 1 }
    else pool

/-! ## Steps -/

/-- One call into the library, or one completion it handles. -/
inductive Step (L P D : Type) where
  | creditReq (link : L) (env : SendEnv L)
  | creditReturn (link : L) (due : Bool) (env : SendEnv L)
  | recvReq (link : L) (index : Nat) (env : SendEnv L) (pending : Nat → SendEnv L)
  | recvRep (link : L) (index : Nat)
  | retry (link : L) (index : Nat) (timedOut : Bool) (env : SendEnv L) (pending : Nat → SendEnv L)
  | pollFcTx (poll : FcPoll L)
  | postTx (link : L) (call : TxCall)
  | recvData (link : L) (index : Nat)
  | recvFailed (pool : P) (dev : D) (umqId : Nat)
  | dataFailed (link : L) (index : Nat) (flushed : Bool)
  | recharge (pool : P) (count : Nat) (pending : Nat → SendEnv L)

def Net.step : Step L P D → Net L P D
  | .creditReq link env => (umqUbSharedCreditReqSend topo net link env).1
  | .creditReturn link due env => (umqUbSharedCreditReturnReqSend topo net link due env).1
  | .recvReq link index env pending => umqUbPollFcRxReq topo net link index env pending
  | .recvRep link index => umqUbPollFcRxRep topo net link index
  | .retry link index timedOut env pending => umqUbFcMsgRetryDequeue topo net link index timedOut env pending
  | .pollFcTx poll => (umqUbPollFcTx topo net poll).1
  | .postTx link call => net.postTx topo link call
  | .recvData link index => net.recvData topo link index
  | .recvFailed pool dev umqId => umqUbPollRxAccount net pool dev umqId
  | .dataFailed link index flushed => net.dataFailed link index flushed
  | .recharge pool count pending => umqUbSharedCreditRecharge topo net pool count pending

/-! ## Two queues

One sender and one receiver with a pool of ten idle buffers; the receiver's queue has id 5. -/

def pairTopology : Topology Unit Unit Unit where
  poolOf := id
  dev := id
  umqId := fun _ => 5
  cfg := fun _ => ⟨64, 2, 16, 2, (· / 2), (· * 2), true, true⟩
  given := fun _ => IdGenerator.gives_iff.mpr (by decide)
  umqId_inj := fun _ _ _ _ => rfl

def pairStart : Net Unit Unit Unit where
  link := fun _ => ⟨4, 4, 0, false, 1, 1, 4, [], [], [], [], [], 0, [], [], []⟩
  pool := fun _ => ⟨true, 10, 4, 0, [], 0, 512⟩
  retryFree := fun _ => 8
  rxConsumedJettyTable := fun _ _ => 0

/-- A send that meets no obstacle and whose message arrives. -/
def smooth {L : Type} : SendEnv L := ⟨true, .polled [], .ok (), ⟨.ok (), .skipped⟩, [], false, .delivered⟩

end UbsComm.FlowControl
