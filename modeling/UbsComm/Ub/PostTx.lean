import UbsComm.Ub.Basic

/-! # `umq_ub_post_tx`

The forward pass cuts the chain into work requests (`umqUbTxBuild`), the window
is debited once for all of them, the list is shortened to what the window and
the borrowed jetty allow, and the rest is handed to URMA (`umqUbTxSubmit`).

The nested calls that may ask the peer for credit are outcomes of the
environment: each has a return code and the credit of a failed return request
that its completion poll gave back to the window. -/

namespace UbsComm.Ub

/-- What one call of `umq_ub_post_tx` reads from the queue and its device. -/
structure TxQueue where
  umqId : Nat
  remoteUmqId : Nat
  bound : Bool
  /-- `queue->bind_ctx` as `umq_ub_fill_wr` reads it again for the given work request. -/
  boundAt : Nat → Bool
  logicQueue : Bool
  maxTxSge : Nat
  remoteRxBufSize : Nat
  txBufSize : Nat
  remoteMemAccess : Bool
  /-- `umq_data_to_head`, with the pool of the buffer it finds. -/
  dataToHead : Nat → Option Nat
  tsegList : Nat → Bool
  importedTseg : Nat → Bool

/-- An early exit of the build loop; `badSet` tells whether `*bad_qbuf` was assigned. -/
structure TxStop where
  err : UmqErr
  badSet : Bool

/-- The work request under construction. -/
structure PartialWr where
  head : UmqBuf
  restSize : Nat
  sges : List UrmaSge

variable (queue : TxQueue)

def TxQueue.maxSendSize : Nat :=
  if queue.remoteRxBufSize > queue.txBufSize then queue.txBufSize else queue.remoteRxBufSize

/-- The checks on the first buffer of a work request. -/
def umqUbTxStart (buffer : UmqBuf) : Except TxStop PartialWr :=
  if buffer.totalDataSize = 0 then .error ⟨.einval, true⟩
  else if buffer.totalDataSize > queue.maxSendSize ∧
      (buffer.opcode = .send ∨ buffer.opcode = .sendImm) then .error ⟨.einval, true⟩
  else .ok ⟨buffer, buffer.totalDataSize, []⟩

/-- The pool that owns the buffer's data. -/
def TxQueue.realMempool (buffer : UmqBuf) : Option Nat :=
  if buffer.mempoolWithoutData then queue.dataToHead buffer.bufData else some buffer.mempoolId

/-- One round of the inner loop: append a buffer to the current work request. -/
def umqUbTxAddSge (current : PartialWr) (buffer : UmqBuf) : Except TxStop PartialWr :=
  if current.sges.length ≥ queue.maxTxSge then .error ⟨.einval, true⟩
  else match queue.realMempool buffer with
    -- the three exits below leave `*bad_qbuf` at NULL
    | none => .error ⟨.einval, false⟩
    | some mempoolId =>
      if mempoolId = qbufPoolMempoolIdMax then .error ⟨.efault, false⟩
      else if !queue.tsegList mempoolId then .error ⟨.einval, false⟩
      else if current.restSize < buffer.dataSize then .error ⟨.einval, true⟩
      else .ok { current with
        restSize := current.restSize - buffer.dataSize
        sges := current.sges ++ [⟨buffer.bufData, buffer.dataSize, mempoolId⟩] }

/-- The checks reads and writes share; only the length comparison differs. -/
def umqUbRemoteCheck (wrIndex : Nat) (lengthOk : Bool) (remote : RefSge) : UmqRet :=
  if !queue.remoteMemAccess then .error .eperm
  else if !lengthOk then .error .einval
  else if remote.mempoolId ≥ umqMaxTsegNum then .error .etsegNonImported
  else if !queue.boundAt wrIndex then .error .enodev
  else if !queue.importedTseg remote.mempoolId then .error .etsegNonImported
  else .ok ()

def umqUbFillWr (wrIndex : Nat) (current : PartialWr) : Except UmqErr UrmaJfsWr :=
  let buffer := current.head
  let base : UrmaJfsWr :=
    { userCtx := buffer.addr, opcode := transformOpCode buffer.opcode, sges := current.sges
      imm := IoImm.zero, remote := none }
  let withoutImm : IoImm := ⟨.userWithoutImm, Fin.ofNat _ queue.remoteUmqId, 0, 0⟩
  match buffer.opcode with
  | .read => do
    umqUbRemoteCheck queue wrIndex (buffer.remoteSge.length ≤ buffer.totalDataSize) buffer.remoteSge
    return { base with remote := some buffer.remoteSge }
  | .writeImm => do
    umqUbRemoteCheck queue wrIndex (buffer.totalDataSize ≤ buffer.remoteSge.length) buffer.remoteSge
    -- the notify data is the user's immediate with its 40 low bits cleared
    return { base with imm := buffer.immData.clearRsvd0, remote := some buffer.remoteSge }
  | .write => do
    umqUbRemoteCheck queue wrIndex (buffer.totalDataSize ≤ buffer.remoteSge.length) buffer.remoteSge
    return { base with remote := some buffer.remoteSge }
  | .sendImm =>
    .ok { base with
      opcode := .sendImm
      imm := { withoutImm with
        type := .user, rsvd1 := buffer.immData.rsvd1, userData := buffer.immData.userData } }
  | .send => .ok { base with opcode := .sendImm, imm := withoutImm }
  | .nop => .ok base

/-- The work request a buffer goes into: the one being filled, or a new one. -/
def umqUbTxOpen : Option PartialWr → UmqBuf → Except TxStop PartialWr
  | some current, _ => .ok current
  | none, buffer => umqUbTxStart queue buffer

/-- The two nested loops of `umq_ub_post_tx`.  `current` is the work request the
inner loop is filling, `none` when the outer loop starts a new one; the flag is
`opcode_consume_rqe`, which every finished request overwrites. -/
def umqUbTxBuild (queue : TxQueue) : Nat → Bool → Option PartialWr → List UmqBuf →
    Except TxStop (Bool × List UrmaJfsWr)
  | _, opcodeConsumeRqe, none, [] => .ok (opcodeConsumeRqe, [])
  | _, _, some _, [] => .error ⟨.enomem, true⟩
  | wrIndex, opcodeConsumeRqe, current, buffer :: rest => do
    let started ← umqUbTxOpen queue current buffer
    let filled ← umqUbTxAddSge queue started buffer
    if filled.restSize ≠ 0 then umqUbTxBuild queue wrIndex opcodeConsumeRqe (some filled) rest
    else
      let wr ← (umqUbFillWr queue wrIndex filled).mapError (TxStop.mk · true)
      if wrIndex + 1 = umqBatchSize ∧ rest ≠ [] then .error ⟨.einval, true⟩
      else
        let built ← umqUbTxBuild queue (wrIndex + 1) filled.head.opcode.consumeRqe none rest
        return (built.1, wr :: built.2)

/-- `umq_ub_tx_failed_num`: the requests among the first `count` from `bad` on. -/
def umqUbTxFailedNum (wrs : List UrmaJfsWr) (count : Nat) (bad : Option Nat) : Nat :=
  match (wrs.take count).findIdx? (fun wr => some wr.userCtx = bad) with
  | some index => count - index
  | none => 0

/-- `remote_rx_window_inc`: an increment past `UINT16_MAX` is refused as a whole. -/
def remoteRxWindowInc (window count : Nat) : Nat :=
  if window + count > uint16Max then window else window + count

/-- `remote_rx_window_dec`: takes what there is, up to `required`. -/
def remoteRxWindowDec (window required : Nat) : Nat × Nat :=
  (window - required, min window required)

/-- `umq_ub_window_inc`; a queue without flow control has no window. -/
def umqUbWindowInc (window : Option Nat) (count : Nat) : Option Nat :=
  window.map (remoteRxWindowInc · count)

/-- `umq_ub_window_dec`: the window afterwards and the number of requests allowed. -/
def umqUbWindowDec (window : Option Nat) (required : Nat) : Option Nat × Nat :=
  match window with
  | none => (none, required)
  | some window => ((remoteRxWindowDec window required).1, (remoteRxWindowDec window required).2)

/-- The credit request nested in a post: its return code, and the credit that the
completion poll inside it gave back (a return request carries at most 1023). -/
structure CreditCall where
  ret : UmqRet
  returned : Fin 1024

structure JettyNode where
  txOutstanding : Fin (2 ^ 32)
  borrowLimit : Fin (2 ^ 32)
  isJettyErr : Bool

/-- What `urma_post_jetty_send_wr` reports; `badWr` indexes the list it was given,
and `none` (or an index outside the list) means that nothing was taken. -/
inductive UrmaPost where
  | success
  | failed (status : UrmaError) (badWr : Option Nat)

structure TxEnv where
  exiting : Bool
  creditCheck : CreditCall
  creditReq : CreditCall
  jettyNode : Except UmqErr JettyNode
  urmaPost : UrmaPost

/-- The result of one call: the return code, `*bad_qbuf`, the requests URMA took,
the window afterwards and the credit the nested calls put into it. -/
structure TxResult where
  ret : UmqRet
  badQbuf : Option Nat
  posted : List UrmaJfsWr
  window : Option Nat
  gained : Nat

/-- The requests URMA takes out of the list handed to it. -/
def UrmaPost.taken {Wr : Type} (post : UrmaPost) (wrs : List Wr) : List Wr :=
  match post with
  | .success => wrs
  | .failed _ (some index) => if index < wrs.length then wrs.take index else []
  | .failed _ none => []

/-- The window after a nested credit call, and how much the call put into it. -/
def CreditCall.apply (call : CreditCall) (window : Option Nat) : Option Nat × Nat :=
  match window with
  | none => (none, 0)
  | some window => (some (remoteRxWindowInc window call.returned), remoteRxWindowInc window call.returned - window)

/-- The return code after asking for more credit: its own error, or `EAGAIN`. -/
def CreditCall.shortRet (call : CreditCall) : UmqRet :=
  match call.ret with
  | .ok () => .error .eagain
  | .error err => .error err

/-- `wr_cnt_limit`, in 32-bit arithmetic. -/
def umqUbWrCntLimit (node : JettyNode) (maxTx : Nat) : Nat :=
  let total := (node.txOutstanding.val + maxTx) % 2 ^ 32
  if total > node.borrowLimit.val then (maxTx + 2 ^ 32 - (total - node.borrowLimit.val)) % 2 ^ 32 else maxTx

/-- The exits through `RECOVER_WINDOW`: give back what was debited for the requests
from `bad` on. -/
def umqUbTxRecover (opcodeConsumeRqe : Bool) (wrs : List UrmaJfsWr) (maxTx : Nat) (window : Option Nat) (gained : Nat)
    (err : UmqErr) (bad : Option Nat) (posted : List UrmaJfsWr) : TxResult :=
  { ret := .error err, badQbuf := bad, posted := posted, gained := gained
    window := if opcodeConsumeRqe then umqUbWindowInc window (umqUbTxFailedNum wrs maxTx bad) else window }

/-- The call of `urma_post_jetty_send_wr` and what follows it. -/
def umqUbTxHandOver (env : TxEnv) (qbuf : Nat) (opcodeConsumeRqe : Bool) (wrs : List UrmaJfsWr) (maxTx : Nat)
    (window : Option Nat) (gained wrCntLimit : Nat) : TxResult :=
  -- a limit that wrapped is not below `maxTx`, and then the list is not cut
  let handed := wrs.take (min wrCntLimit maxTx)
  match env.urmaPost with
  | .failed status badWr =>
    let bad := (badWr.bind (fun index => handed[index]?)).elim qbuf (·.userCtx)
    umqUbTxRecover opcodeConsumeRqe wrs maxTx window gained (umqStatusConvert status) (some bad)
      (env.urmaPost.taken handed)
  | .success =>
    let nested := if maxTx < wrs.length then env.creditReq.apply window else (window, 0)
    if wrCntLimit < maxTx then
      { ret := .error .enobufs, badQbuf := (wrs[wrCntLimit]?).map (·.userCtx), posted := handed
        window := if opcodeConsumeRqe then umqUbWindowInc nested.1 (maxTx - wrCntLimit) else nested.1
        gained := gained + nested.2 }
    else if maxTx < wrs.length then
      ⟨env.creditReq.shortRet, (wrs[maxTx]?).map (·.userCtx), handed, nested.1, gained + nested.2⟩
    else ⟨.ok (), none, handed, window, gained⟩

/-- Everything after the window was debited and found non-empty. -/
def umqUbTxPost (env : TxEnv) (qbuf : Nat) (opcodeConsumeRqe : Bool) (wrs : List UrmaJfsWr)
    (maxTx : Nat) (window : Option Nat) (gained : Nat) : TxResult :=
  let recover := umqUbTxRecover opcodeConsumeRqe wrs maxTx window gained
  let handOver := umqUbTxHandOver env qbuf opcodeConsumeRqe wrs maxTx window gained
  if queue.logicQueue then
    match env.jettyNode with
    | .error err => recover err (some qbuf) []
    | .ok node =>
      let wrCntLimit := umqUbWrCntLimit node maxTx
      if wrCntLimit = 0 then recover .enobufs (some qbuf) []
      -- `*bad_qbuf` is still NULL here, so nothing is given back either
      else if node.isJettyErr then recover .einval none []
      else handOver wrCntLimit
  else handOver maxTx

/-- From the debit of the window on, for the work requests the loops have built. -/
def umqUbTxSubmit (env : TxEnv) (qbuf : Nat) (opcodeConsumeRqe : Bool) (wrs : List UrmaJfsWr)
    (window : Option Nat) (gained : Nat) : TxResult :=
  let debit := if opcodeConsumeRqe then umqUbWindowDec window wrs.length else (window, wrs.length)
  if debit.2 = 0 then
    let nested := env.creditReq.apply debit.1
    ⟨env.creditReq.shortRet, some qbuf, [], nested.1, gained + nested.2⟩
  else umqUbTxPost queue env qbuf opcodeConsumeRqe wrs debit.2 debit.1 gained

/-- The arguments of one call.  A chain is linked through distinct buffers, and the
window is a 16-bit counter (`none` without flow control). -/
structure TxCall where
  queue : TxQueue
  env : TxEnv
  window : Option Nat
  first : UmqBuf
  rest : List UmqBuf
  windowLe : ∀ count, window = some count → count ≤ uint16Max
  distinct : ((first :: rest).map (·.addr)).Nodup

def TxCall.chain (call : TxCall) : List UmqBuf := call.first :: call.rest

/-- The credit check at the entry: its return code, the window after it and the
credit it gained.  A chain that starts with a read skips it. -/
def TxCall.entryCheck (call : TxCall) : UmqRet × Option Nat × Nat :=
  if call.first.opcode = .read ∨ call.window = none then (.ok (), call.window, 0)
  else (call.env.creditCheck.ret, call.env.creditCheck.apply call.window)

def umqUbPostTx (call : TxCall) : TxResult :=
  if call.env.exiting || !call.queue.bound then ⟨.error .enodev, some call.first.addr, [], call.window, 0⟩
  else match call.entryCheck with
    | (.error err, window, gained) => ⟨.error err, some call.first.addr, [], window, gained⟩
    | (.ok (), window, gained) =>
      match umqUbTxBuild call.queue 0 false none call.chain with
      | .error stop =>
        ⟨.error stop.err, if stop.badSet then some call.first.addr else none, [], window, gained⟩
      | .ok (opcodeConsumeRqe, wrs) =>
        umqUbTxSubmit call.queue call.env call.first.addr opcodeConsumeRqe wrs window gained

end UbsComm.Ub
