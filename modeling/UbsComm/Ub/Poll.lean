import UbsComm.Ub.Basic
import UbsComm.Library.Cursor

/-! # `umq_ub_poll_tx_single` and `umq_ub_poll_rx`

Both functions put flow-control notices and completed buffers into the caller's array
`buf` at the running index `qbuf_cnt`; the pair of them is a `Cursor`.  What other
subsystems answer during a poll (URMA, the allocator, the credit handlers) is part of
the call. -/

namespace UbsComm.Ub

open Library

/-- `urma_cr_status_t`, and the status the bonding driver adds to it. -/
inductive UrmaCrStatus where
  | success | unsupportedOpcodeErr | locLenErr | locOperationErr | locAccessErr | remRespLenErr
  | remUnsupportedReqErr | remOperationErr | remAccessAbortErr | ackTimeoutErr | rnrRetryCntExcErr
  | wrFlushErr | wrSuspendDone | wrFlushErrDone | wrUnhandled | locDataPoison | remDataPoison
  | flowControlNotify
  deriving DecidableEq

/-- `umq_buf_status_t`: the status of a completion, or one of its own. -/
inductive UmqBufStatus where
  | cr (status : UrmaCrStatus)
  | mempoolUpdateSuccess | mempoolUpdateFailed | importTsegSuccess | importTsegFailed
  | fakeBufFcUpdate | fakeBufFcErr | fakeBufFcErrFatal
  deriving DecidableEq

structure PolledBuf where
  buffer : Nat
  status : UmqBufStatus
  deriving DecidableEq

/-- What `urma_poll_jfc` finds: it reports a negative number, or as many of the waiting
completions as it is asked for. -/
inductive UrmaPoll (Cr : Type) where
  | failed (code : Nat)
  | waiting (crs : List Cr)

/-- The value returned, and the entries of the array that were written. -/
structure PollResult where
  ret : Int
  writes : List (Nat × PolledBuf)
  deriving DecidableEq

def pollResult (cursor : Cursor PolledBuf) : PollResult := ⟨cursor.position, cursor.writes⟩

def umqUbFlowControlJettyDepth : Nat := 2

def umqUbFcPollCountMax : Nat := 1

/-- The result of `umq_buf_alloc` is `alloc`. -/
def umqUbFillFcBuf (alloc : Option Nat) (status : UmqBufStatus) (cursor : Cursor PolledBuf) : Cursor PolledBuf :=
  match alloc with
  | none => cursor
  | some buffer => cursor.put ⟨⟨buffer, status⟩, true⟩

/-! ## Send completions -/

/-- A completion of the flow-control jetty, with the buffer its notice would get. -/
structure FcTxCr where
  status : UrmaCrStatus
  alloc : Option Nat

def umqUbFcTxCr (cursor : Cursor PolledBuf) (cr : FcTxCr) : Cursor PolledBuf :=
  match cr.status with
  | .success => cursor
  | .wrFlushErrDone | .wrSuspendDone | .flowControlNotify => cursor
  | .ackTimeoutErr | .rnrRetryCntExcErr => umqUbFillFcBuf cr.alloc .fakeBufFcErrFatal cursor
  | _ => umqUbFillFcBuf cr.alloc .fakeBufFcErr cursor

/-- `returnReq` is the error of a credit return that was due, if it failed. -/
structure FcTxPoll where
  returnReq : Option Nat
  jettyNode : Bool
  jfc : UrmaPoll FcTxCr

/-- `umq_ub_poll_fc_tx` with an array; `none` is `UMQ_FAIL`. -/
def umqUbPollFcTx (fc : FcTxPoll) (bufCount : Nat) : Option (Cursor PolledBuf) :=
  if !fc.jettyNode then some .start
  else match fc.jfc with
    | .failed _ => none
    | .waiting crs =>
      let pollCount := if bufCount ≥ umqUbFlowControlJettyDepth then umqUbFlowControlJettyDepth else bufCount
      some ((crs.take pollCount).foldl umqUbFcTxCr .start)

inductive ImmExtendType where
  | memImport | memImportDone | other

/-- A completion of the IO jetty; opcode and immediate are those of the buffer at
`userCtx`. -/
structure TxCr where
  status : UrmaCrStatus
  userCtx : Nat
  opcode : UmqOpcode
  immType : ImmType
  extendType : ImmExtendType

/-- Whether `process_tx_msg` returns `UMQ_SUCCESS`. -/
def processTxMsg (cr : TxCr) : Bool :=
  if cr.immType ≠ .controlMsg then true
  else match cr.opcode, cr.extendType with
    | .sendImm, .memImport | .sendImm, .memImportDone => false
    | _, _ => true

structure PollingNode where
  isJettyErr : Bool
  txFlushDone : Bool

/-- What decides whether residual send entries are flushed. -/
structure TxFlush where
  queueErr : Bool
  txFlushDone : Bool
  pollingNode : Option PollingNode

def umqUbProcessFlushDone (tpHandle : Bool) (flush : TxFlush) : TxFlush :=
  match flush.pollingNode with
  | some ⟨true, _⟩ => { flush with pollingNode := some ⟨true, true⟩ }
  | _ => if flush.queueErr && !tpHandle then { flush with txFlushDone := true } else flush

/-- `umq_ub_process_cr_err_for_jetty_pool`; `marksNode` says that the node it marks is
the one being polled. -/
def umqUbProcessCrErrForJettyPool (marksNode : Bool) (status : UrmaCrStatus) (flush : TxFlush) : TxFlush :=
  if status = .ackTimeoutErr ∧ marksNode then
    { flush with pollingNode := flush.pollingNode.map fun node => { node with isJettyErr := true } }
  else flush

def TxFlush.ready (flush : TxFlush) : Bool :=
  flush.queueErr && flush.txFlushDone || flush.pollingNode.any fun node => node.isJettyErr && node.txFlushDone

structure TxPoll where
  bufCount : Nat
  exiting : Bool
  sharedMain : Bool
  tpHandle : Bool
  flowControl : Option FcTxPoll
  jettyNode : Bool
  jfc : UrmaPoll TxCr
  flush : TxFlush
  marksNode : Bool
  flushJetty : Option (List TxCr)
  countLt : bufCount < 2 ^ 32

def TxPoll.maxBatch (call : TxPoll) : Nat := if call.bufCount > umqBatchSize then umqBatchSize else call.bufCount

structure TxPolled where
  cursor : Cursor PolledBuf
  flush : TxFlush

def umqUbTxCr (call : TxPoll) (polled : TxPolled) (cr : TxCr) : TxPolled :=
  match cr.status with
  | .wrFlushErrDone => { polled with flush := umqUbProcessFlushDone call.tpHandle polled.flush }
  | .wrSuspendDone => polled
  | status =>
    let flush :=
      if status = .success ∨ status = .flowControlNotify then polled.flush
      else umqUbProcessCrErrForJettyPool call.marksNode status polled.flush
    -- the buffer of a message that is not reported stays in the array
    if cr.userCtx = 0 then ⟨polled.cursor, flush⟩
    else ⟨polled.cursor.put ⟨⟨cr.userCtx, .cr status⟩, processTxMsg cr⟩, flush⟩

def TxCr.flushed (cr : TxCr) : Bool :=
  cr.status ≠ .wrSuspendDone && cr.status ≠ .wrFlushErrDone && decide (uint16Max < cr.userCtx)

/-- No jetty, or a negative count from URMA, is `none`. -/
def umqUbFlushSqe (jetty : Option (List TxCr)) (bufCount : Nat) (cursor : Cursor PolledBuf) : Cursor PolledBuf :=
  match jetty with
  | none => cursor
  | some crs =>
    let maxBatch := if bufCount > umqBatchSize then umqBatchSize else bufCount
    (crs.take maxBatch).foldl
      (fun cursor cr => if cr.flushed then cursor.put ⟨⟨cr.userCtx, .cr cr.status⟩, true⟩ else cursor) cursor

/-- From the second call of `umq_ub_poll_get_jetty_node` on. -/
def umqUbPollTxIo (call : TxPoll) (cursor : Cursor PolledBuf) : PollResult :=
  if !call.jettyNode then ⟨0, cursor.writes⟩
  else match call.jfc with
    | .failed code => ⟨Int.negSucc code, cursor.writes⟩
    | .waiting crs =>
      let polled := (crs.take call.maxBatch).foldl (umqUbTxCr call) ⟨cursor, call.flush⟩
      -- the second comparison is between signed numbers
      if polled.flush.ready ∧ call.bufCount < 2 ^ 31 ∧ polled.cursor.position < call.bufCount then
        pollResult (umqUbFlushSqe call.flushJetty (call.bufCount - polled.cursor.position) polled.cursor)
      else pollResult polled.cursor

def umqUbPollTxSingle (call : TxPoll) : PollResult :=
  if call.exiting ∨ call.bufCount = 0 then ⟨0, []⟩
  else if call.sharedMain ∧ !call.tpHandle then ⟨0, []⟩
  else match call.flowControl with
    | none => umqUbPollTxIo call .start
    | some fc =>
      match fc.returnReq with
      | some code => ⟨Int.negSucc code, []⟩
      | none =>
        match umqUbPollFcTx fc call.bufCount with
        | none => ⟨-1, []⟩
        | some cursor => umqUbPollTxIo call cursor

/-! ## Receive completions -/

inductive FcMsgType where
  | creditReq | creditRep | creditReturnReq | creditReturnAck | other

/-- A flow-control message: what its handler returns, and the buffer a notice about it
would get. -/
structure FcMsg where
  type : FcMsgType
  handled : UmqRet
  alloc : Option Nat

def umqUbProcessFcMsg (msg : FcMsg) (cursor : Cursor PolledBuf) : Except UmqErr (Cursor PolledBuf) :=
  match msg.type with
  | .creditReq | .creditReturnReq => msg.handled.map fun _ => cursor
  | .creditRep => .ok (umqUbFillFcBuf msg.alloc .fakeBufFcUpdate cursor)
  | .creditReturnAck | .other => .ok cursor

/-- The answer to a handler's error: the message is kept for a retry, or a notice goes
to the user. -/
def umqUbFcMsgError (msg : FcMsg) (err : UmqErr) (cursor : Cursor PolledBuf) : Cursor PolledBuf :=
  match err with
  | .emlink | .eflowctlEagain => cursor
  | .eflowctlFatal => umqUbFillFcBuf msg.alloc .fakeBufFcErrFatal cursor
  | _ => umqUbFillFcBuf msg.alloc .fakeBufFcErr cursor

def umqUbProcessFcMsgWithRetry (msg : FcMsg) (cursor : Cursor PolledBuf) : Cursor PolledBuf :=
  match umqUbProcessFcMsg msg cursor with
  | .ok cursor => cursor
  | .error err => umqUbFcMsgError msg err cursor

inductive UmqUbRetryType where
  | noJetty | eagain | other
  deriving DecidableEq

structure RetryEntry where
  realQueue : Bool
  msg : FcMsg
  retryType : UmqUbRetryType
  timedOut : Bool

def umqUbFcMsgRetryDequeue (cursor : Cursor PolledBuf) (entry : RetryEntry) : Cursor PolledBuf :=
  if !entry.realQueue then cursor
  else match umqUbProcessFcMsg entry.msg cursor with
    | .ok cursor => cursor
    | .error err =>
      if entry.retryType ≠ .noJetty ∧ entry.timedOut then umqUbFillFcBuf entry.msg.alloc .fakeBufFcErr cursor
      else umqUbFcMsgError entry.msg err cursor

/-- One of the loops of `umq_ub_fc_msg_retry_drain`, over the entries it comes to. -/
def umqUbFcMsgRetryWalk (bufCount : Nat) : List RetryEntry → Cursor PolledBuf → Cursor PolledBuf
  | [], cursor => cursor
  | entry :: entries, cursor =>
    if cursor.position ≥ bufCount then cursor
    else umqUbFcMsgRetryWalk bufCount entries (umqUbFcMsgRetryDequeue cursor entry)

/-- `noJetty` ends where the jetty pool has nothing left. -/
structure RetryList where
  noJetty : List RetryEntry
  retry : List RetryEntry

def umqUbFcMsgRetryDrain (retryList : Option RetryList) (bufCount : Nat) : Cursor PolledBuf :=
  match retryList with
  | none => .start
  | some lists => umqUbFcMsgRetryWalk bufCount lists.retry (umqUbFcMsgRetryWalk bufCount lists.noJetty .start)

/-- A completion of the flow-control receive queue.  `refilled` says that a new receive
request was posted for it, `refillAlloc` is the buffer for the notice if not. -/
structure FcRxCr where
  status : UrmaCrStatus
  refilled : Bool
  refillAlloc : Option Nat
  realQueue : Bool
  duplicate : Bool
  enqueued : Bool
  msg : FcMsg

structure FcRxPoll where
  retryList : Option RetryList
  jfc : UrmaPoll FcRxCr

/-- The loop body of `main_umq_ub_poll_fc_rx`, and with `main` false that of
`umq_ub_poll_fc_rx`, where the message is always for the polled queue and requests are
not put off. -/
def umqUbFcRxCr (main : Bool) (cursor : Cursor PolledBuf) (cr : FcRxCr) : Cursor PolledBuf :=
  let cursor := if cr.refilled then cursor else umqUbFillFcBuf cr.refillAlloc .fakeBufFcErr cursor
  if main ∧ !cr.realQueue then cursor
  else if cr.status ≠ .success then umqUbFillFcBuf cr.msg.alloc .fakeBufFcErr cursor
  else if cr.duplicate then cursor
  else if main ∧ cr.enqueued then cursor
  else umqUbProcessFcMsgWithRetry cr.msg cursor

/-- Both flow-control polls; the second component is `false` for `UMQ_FAIL`. -/
def umqUbPollFc (main : Bool) (pollCountMax : Nat) (fc : FcRxPoll) (bufCount : Nat) : Cursor PolledBuf × Bool :=
  let drained := umqUbFcMsgRetryDrain fc.retryList bufCount
  let remaining := bufCount - drained.position
  if remaining = 0 then (drained, true)
  else match fc.jfc with
    | .failed _ => (drained, false)
    | .waiting crs =>
      let pollCount := if remaining ≥ pollCountMax then pollCountMax else remaining
      ((crs.take pollCount).foldl (umqUbFcRxCr main) drained, true)

def mainUmqUbPollFcRx (fc : FcRxPoll) (bufCount : Nat) : Cursor PolledBuf × Bool :=
  umqUbPollFc true umqUbFcPollCountMax fc bufCount

def umqUbPollFcRx (fc : FcRxPoll) (bufCount : Nat) : Cursor PolledBuf × Bool :=
  umqUbPollFc false umqUbFlowControlJettyDepth fc bufCount

/-- A completion of the IO receive queue: `writeWithImm` is the opcode
`URMA_CR_OPC_WRITE_WITH_IMM`, `buffer` that of its context, `imported` the status a
memory import message leaves. -/
structure RxCr where
  status : UrmaCrStatus
  writeWithImm : Bool
  buffer : Nat
  imported : Option UmqBufStatus

/-- `used` are the buffers behind the used receive contexts. -/
structure RxPoll where
  bufCount : Nat
  mainUmq : Bool
  subUmq : Bool
  shareRq : Bool
  flowControl : Option FcRxPoll
  stateErr : Bool
  txFlushDone : Bool
  rxFlushDone : Bool
  used : List Nat
  apiPro : Bool
  jfc : UrmaPoll RxCr
  countLt : bufCount < 2 ^ 32

variable (call : RxPoll)

def RxPoll.maxBatch : Nat := if call.bufCount > umqBatchSize then umqBatchSize else call.bufCount

def umqReportIncompleteRx (maxRxCtx : Nat) (cursor : Cursor PolledBuf) : Cursor PolledBuf :=
  if !call.txFlushDone || call.rxFlushDone || !call.stateErr then cursor
  else cursor.putAll ((call.used.take maxRxCtx).map fun buffer => ⟨⟨buffer, .cr .wrFlushErr⟩, true⟩)

/-- The entry is written before `process_rx_msg` decides whether it counts: without the
pro API a write with immediate only consumes a receive entry. -/
def umqUbRxCr (cursor : Cursor PolledBuf) (cr : RxCr) : Cursor PolledBuf :=
  cursor.put ⟨⟨cr.buffer, cr.imported.getD (.cr cr.status)⟩, !(cr.writeWithImm && !call.apiPro)⟩

/-- From the computation of the remaining batch on, which is one of `uint32_t`. -/
def umqUbPollRxIo (cursor : Cursor PolledBuf) : PollResult :=
  let maxBatch := (call.maxBatch + 2 ^ 32 - cursor.position) % 2 ^ 32
  if maxBatch = 0 ∨ call.shareRq then pollResult cursor
  else if call.stateErr then
    pollResult (if call.subUmq then cursor else umqReportIncompleteRx call maxBatch cursor)
  else match call.jfc with
    | .failed _ => pollResult cursor
    | .waiting crs => pollResult ((crs.take maxBatch).foldl (umqUbRxCr call) cursor)

/-- The flow-control part.  `UMQ_UB_ENABLE_SHARE_FC_JFR` is true, so a sub queue leaves it
to the main queue. -/
def umqUbPollRxFc : Cursor PolledBuf × Bool :=
  match call.flowControl with
  | none => (.start, true)
  | some fc =>
    if call.mainUmq then mainUmqUbPollFcRx fc call.maxBatch
    else if !call.shareRq then umqUbPollFcRx fc call.maxBatch
    else (.start, true)

def umqUbPollRx : PollResult :=
  if call.bufCount = 0 then ⟨0, []⟩
  else
    let polled := umqUbPollRxFc call
    if !polled.2 then ⟨-1, polled.1.writes⟩ else umqUbPollRxIo call polled.1

end UbsComm.Ub
