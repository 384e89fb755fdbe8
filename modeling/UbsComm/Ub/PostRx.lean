import UbsComm.Ub.PostTx
import UbsComm.Library.Links

/-! # `umq_ub_post_rx_inner_impl`

The forward pass takes a receive context for every work request and cuts the buffer
chain behind it, so the state it works on has the lists of contexts and the link field
of every buffer.  The loops walk the chain as it was linked on entry: a link is cut only
after the loop has moved past it. -/

namespace UbsComm.Ub

open Library

structure UrmaJfrWr where
  sges : List UrmaSge
  userCtx : Nat

/-- Receive contexts are named by their addresses; `ctxBuffer` is `rx_buf_ctx->buffer`,
`qbufNext` is the link field of the buffer at an address. -/
structure RxState where
  idle : List Nat
  used : List Nat
  ctxBuffer : Nat → Nat
  qbufNext : Nat → Option Nat

variable (state : RxState)

/-- `queue_rx_buf_ctx_get`, together with the assignment of the context's buffer. -/
def queueRxBufCtxGet (buffer : Nat) : Option (Nat × RxState) :=
  match state.idle with
  | [] => none
  | ctx :: idle =>
    some (ctx, { state with
      idle := idle
      used := state.used ++ [ctx]
      ctxBuffer := Function.update state.ctxBuffer ctx buffer })

/-- The context leaves whatever list it is in. -/
def queueRxBufCtxPut (ctx : Nat) : RxState :=
  { state with idle := state.idle.erase ctx ++ [ctx], used := state.used.erase ctx }

def RxState.setNext (buffer : Nat) (next : Option Nat) : RxState :=
  { state with qbufNext := Function.update state.qbufNext buffer next }

structure RxQueue where
  maxRxSge : Nat
  tsegList : Nat → Bool

/-- What the inner loop leaves behind: the entries of the request, the buffers it took
and the rest of the chain. -/
structure RxFilled where
  sges : List UrmaSge
  taken : List UmqBuf
  rest : List UmqBuf

/-- The inner loop, and the check after it that the request is complete. -/
def umqUbRxFill (queue : RxQueue) : Nat → List UrmaSge → List UmqBuf → Except UmqErr RxFilled
  | restSize, sges, [] => if restSize ≠ 0 then .error .fail else .ok ⟨sges, [], []⟩
  | restSize, sges, buffer :: rest =>
    if restSize = 0 then .ok ⟨sges, [], buffer :: rest⟩
    else if sges.length ≥ queue.maxRxSge then .error .fail
    else if buffer.mempoolId = qbufPoolMempoolIdMax then .error .efault
    else if !queue.tsegList buffer.mempoolId then .error .fail
    else if restSize < buffer.dataSize then .error .fail
    else do
      let filled ← umqUbRxFill queue (restSize - buffer.dataSize)
        (sges ++ [⟨buffer.bufData, buffer.dataSize, buffer.mempoolId⟩]) rest
      return { filled with taken := buffer :: filled.taken }

/-- How the forward pass ends.  A pass that is stopped has put back the context of the
request under construction; `buffer` is where the rest of the chain starts. -/
inductive RxBuild where
  | built (wrs : List UrmaJfrWr) (state : RxState)
  | stopped (err : UmqErr) (wrs : List UrmaJfrWr) (state : RxState) (buffer : Nat)

/-- `wr_last_buf->qbuf_next = NULL`. -/
def cutAfter (taken : List UmqBuf) : RxState :=
  match taken.getLast? with
  | some last => state.setNext last.addr none
  | none => state

/-- The outer loop; `slots` is how many requests still fit into the batch. -/
def umqUbRxBuild (queue : RxQueue) : Nat → List UrmaJfrWr → List UmqBuf → RxState → RxBuild
  | _, wrs, [], state => .built wrs state
  | 0, wrs, buffer :: _, state => .stopped .fail wrs state buffer.addr
  | slots + 1, wrs, buffer :: rest, state =>
    if buffer.totalDataSize = 0 then .stopped .fail wrs state buffer.addr
    else match queueRxBufCtxGet state buffer.addr with
      | none => .stopped .fail wrs state buffer.addr
      | some (ctx, started) =>
        match umqUbRxFill queue buffer.totalDataSize [] (buffer :: rest) with
        | .error err => .stopped err wrs (queueRxBufCtxPut started ctx) (started.ctxBuffer ctx)
        | .ok filled =>
          umqUbRxBuild queue slots (wrs ++ [⟨filled.sges, ctx⟩]) filled.rest (cutAfter started filled.taken)

/-- `process_bad_wr`: link the buffers of the given requests again and put their contexts
back.  No chain is longer than `fuel`. -/
def processBadWr (fuel : Nat) (endBuf : Option Nat) : Option Nat → List UrmaJfrWr → RxState → RxState
  | none, [], state => state
  | some lastFailEnd, [], state => state.setNext lastFailEnd endBuf
  | lastFailEnd, wr :: wrs, state =>
    let fail := state.ctxBuffer wr.userCtx
    let linked := lastFailEnd.elim state fun cell => state.setNext cell (some fail)
    processBadWr fuel endBuf (some (follow linked.qbufNext fuel fail)) wrs (queueRxBufCtxPut linked wr.userCtx)

/-- `umq_ub_post_rx_failed_num`; the second argument is a pointer to a buffer. -/
def umqUbPostRxFailedNum (wrs : List UrmaJfrWr) (bad : Nat) : Nat :=
  match wrs.findIdx? (fun wr => wr.userCtx = bad) with
  | some index => wrs.length - index
  | none => 0

/-- The refill accounting of a receive queue: `recharged` is all the credit handed to
`umq_ub_shared_credit_recharge`.  Until the queue is prefilled, requests are only
counted. -/
structure RqeFlow where
  rqePostFactor : Nat
  rxDepth : Nat
  prefillDone : Bool
  prefillRqeCnt : Nat
  recharged : Nat
  prefilling : prefillDone = false → prefillRqeCnt < rqePostFactor * rxDepth % 2 ^ 32

def umqUbRqePostedCntInc (flow : RqeFlow) (count : Nat) : RqeFlow :=
  if done : flow.prefillDone then { flow with recharged := flow.recharged + count }
  else
    let totalPrefill := (flow.prefillRqeCnt + count) % 2 ^ 32
    if complete : totalPrefill ≥ flow.rqePostFactor * flow.rxDepth % 2 ^ 32 then
      { flow with
        prefillRqeCnt := totalPrefill
        recharged := flow.recharged + flow.rxDepth % 2 ^ 16
        prefillDone := true
        prefilling := fun prefilling => by cases prefilling }
    else { flow with prefillRqeCnt := totalPrefill, prefilling := fun _ => Nat.lt_of_not_le complete }

/-- The arguments of one call: the chain is linked through distinct buffers, and contexts
are distinct objects that are no buffers. -/
structure RxCall where
  queue : RxQueue
  urmaPost : UrmaPost
  flow : RqeFlow
  state : RxState
  first : UmqBuf
  rest : List UmqBuf
  distinct : ((first :: rest).map (·.addr)).Nodup
  linked : Linked state.qbufNext ((first :: rest).map (·.addr)) none
  contexts : (state.idle ++ state.used).Nodup
  separate : ∀ ctx ∈ state.idle, ctx ∉ (first :: rest).map (·.addr)

def RxCall.chain (call : RxCall) : List UmqBuf := call.first :: call.rest

structure RxResult where
  ret : UmqRet
  badQbuf : Option Nat
  accepted : List UrmaJfrWr
  flow : RqeFlow
  state : RxState

/-- From the call of URMA on. -/
def umqUbRxSubmit (call : RxCall) (wrs : List UrmaJfrWr) (state : RxState) : RxResult :=
  match call.urmaPost with
  | .success => ⟨.ok (), none, wrs, umqUbRqePostedCntInc call.flow wrs.length, state⟩
  | .failed status badWr =>
    match badWr.bind (fun index => (wrs[index]?).map (index, ·)) with
    | some (index, bad) =>
      -- the user context of the request is assigned to a buffer pointer
      ⟨.error (umqStatusConvert status), some bad.userCtx, call.urmaPost.taken wrs,
        umqUbRqePostedCntInc call.flow (wrs.length - umqUbPostRxFailedNum wrs bad.userCtx),
        processBadWr call.chain.length none none (wrs.drop index) state⟩
    | none =>
      ⟨.error (umqStatusConvert status), some call.first.addr, call.urmaPost.taken wrs,
        umqUbRqePostedCntInc call.flow (wrs.length - umqUbPostRxFailedNum wrs call.first.addr),
        processBadWr call.chain.length none none wrs state⟩

def umqUbPostRxInnerImpl (call : RxCall) : RxResult :=
  match umqUbRxBuild call.queue umqBatchSize [] call.chain call.state with
  | .built wrs state => umqUbRxSubmit call wrs state
  | .stopped err wrs state buffer =>
    match wrs with
    | [] => ⟨.error err, some call.first.addr, [], call.flow, state⟩
    | wr :: _ =>
      ⟨.error err, some (state.ctxBuffer wr.userCtx), [], call.flow,
        processBadWr call.chain.length (some buffer) none wrs state⟩

end UbsComm.Ub
