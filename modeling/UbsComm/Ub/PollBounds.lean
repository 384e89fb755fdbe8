import UbsComm.Ub.Poll

/-! # How far the polls write

Every loop of the polls puts values through the cursor, so each of them is described by
the list of what it puts.  The loops have their own limits: a send poll takes up to
`buf_count` completions behind the flow-control notices, and a receive poll subtracts
the notices only after they were written. -/

namespace UbsComm.Ub

open Library List

structure PollResult.Bounded (bufCount : Nat) (result : PollResult) : Prop where
  count : result.ret ≤ bufCount
  inside : ∀ entry ∈ result.writes, entry.1 < bufCount

variable {cursor : Cursor PolledBuf} {bufCount : Nat}

theorem pollResult_bounded_iff : (pollResult cursor).Bounded bufCount ↔ cursor.Within bufCount :=
  ⟨fun ⟨count, inside⟩ => ⟨Int.ofNat_le.mp count, inside⟩, fun ⟨count, inside⟩ => ⟨Int.ofNat_le.mpr count, inside⟩⟩

theorem PollResult.bounded_of_nonpos {result : PollResult} (nonpos : result.ret ≤ 0)
    (inside : ∀ entry ∈ result.writes, entry.1 < bufCount) : result.Bounded bufCount :=
  ⟨nonpos.trans (Int.natCast_nonneg _), inside⟩

/-- A flow-control notice, if a buffer can be allocated for it. -/
def fcNotice (alloc : Option Nat) (status : UmqBufStatus) : List (Put PolledBuf) :=
  alloc.toList.map fun buffer => ⟨⟨buffer, status⟩, true⟩

theorem umqUbFillFcBuf_eq {alloc : Option Nat} {status : UmqBufStatus} {cursor : Cursor PolledBuf} :
    umqUbFillFcBuf alloc status cursor = cursor.putAll (fcNotice alloc status) := by
  cases alloc <;> rfl

/-! ## Send completions -/

/-- The notice a completion of the flow-control jetty asks for. -/
def UrmaCrStatus.fcTxNotice : UrmaCrStatus → Option UmqBufStatus
  | .success | .wrFlushErrDone | .wrSuspendDone | .flowControlNotify => none
  | .ackTimeoutErr | .rnrRetryCntExcErr => some .fakeBufFcErrFatal
  | _ => some .fakeBufFcErr

def FcTxCr.notices (cr : FcTxCr) : List (Put PolledBuf) :=
  cr.status.fcTxNotice.toList.flatMap (fcNotice cr.alloc)

theorem umqUbFcTxCr_eq (cursor : Cursor PolledBuf) (cr : FcTxCr) :
    umqUbFcTxCr cursor cr = cursor.putAll cr.notices := by
  obtain ⟨status, alloc⟩ := cr
  cases status <;> simp [umqUbFcTxCr, FcTxCr.notices, UrmaCrStatus.fcTxNotice, umqUbFillFcBuf_eq]

def FcTxCr.noticed (cr : FcTxCr) : Bool := cr.status.fcTxNotice.isSome && cr.alloc.isSome

def TxCr.reported (cr : TxCr) : Bool :=
  cr.status ≠ .wrFlushErrDone && cr.status ≠ .wrSuspendDone && cr.userCtx ≠ 0

def TxCr.delivered (cr : TxCr) : Bool := cr.reported && processTxMsg cr

def TxCr.put? (cr : TxCr) : Option (Put PolledBuf) :=
  if cr.reported then some ⟨⟨cr.userCtx, .cr cr.status⟩, processTxMsg cr⟩ else none

theorem umqUbTxCr_cursor {call : TxPoll} {polled : TxPolled} {cr : TxCr} :
    (umqUbTxCr call polled cr).cursor = polled.cursor.putAll cr.put?.toList := by
  obtain ⟨status, userCtx, opcode, immType, extendType⟩ := cr
  by_cases zero : userCtx = 0 <;> cases status <;> simp [umqUbTxCr, TxCr.put?, TxCr.reported, zero]

theorem foldl_umqUbTxCr_cursor {call : TxPoll} {crs : List TxCr} {polled : TxPolled} :
    (crs.foldl (umqUbTxCr call) polled).cursor = polled.cursor.putAll (crs.filterMap TxCr.put?) := by
  induction crs generalizing polled with
  | nil => rfl
  | cons cr crs ih =>
    rw [foldl_cons, ih, umqUbTxCr_cursor]
    cases reported : cr.put? <;> simp [reported]

/-- Flushing asks for no more completions than there are free entries. -/
theorem umqUbFlushSqe_eq (jetty : Option (List TxCr)) (free : Nat) (cursor : Cursor PolledBuf) :
    ∃ puts : List (Put PolledBuf), puts.length ≤ free ∧ umqUbFlushSqe jetty free cursor = cursor.putAll puts := by
  cases jetty with
  | none => exact ⟨[], Nat.zero_le _, rfl⟩
  | some crs =>
    let put? : TxCr → Option (Put PolledBuf) := fun cr =>
      if cr.flushed then some ⟨⟨cr.userCtx, .cr cr.status⟩, true⟩ else none
    have each : ∀ (cursor : Cursor PolledBuf) (cr : TxCr),
        (if cr.flushed then cursor.put ⟨⟨cr.userCtx, .cr cr.status⟩, true⟩ else cursor) =
          cursor.putAll (put? cr).toList := by
      intro cursor cr
      cases flushed : cr.flushed <;> simp [put?, flushed]
    refine ⟨_, ?_, Cursor.foldl_eq_putAll each⟩
    rw [← filterMap_eq_flatMap_toList]
    refine (length_filterMap_le _ _).trans ((length_take_le _ _).trans ?_)
    split <;> omega

def UrmaPoll.succeeds {Cr : Type} : UrmaPoll Cr → Bool
  | .failed _ => false
  | .waiting _ => true

/-- Whether flow control lets the poll go on to the IO jetty. -/
def FcTxPoll.passes (fc : FcTxPoll) : Bool := fc.returnReq.isNone && (!fc.jettyNode || fc.jfc.succeeds)

/-- The completions of the flow-control jetty that the poll takes. -/
def FcTxPoll.polled (fc : FcTxPoll) (bufCount : Nat) : List FcTxCr :=
  if !fc.jettyNode then []
  else match fc.jfc with
    | .failed _ => []
    | .waiting crs => crs.take (min bufCount umqUbFlowControlJettyDepth)

variable (call : TxPoll)

/-- How many entries they fill. -/
def TxPoll.fcFailures : Nat :=
  match call.flowControl with
  | none => 0
  | some fc => (fc.polled call.bufCount).countP FcTxCr.noticed

/-- Whether the poll comes to the IO jetty. -/
def TxPoll.reaches : Bool :=
  !call.exiting && !(call.sharedMain && !call.tpHandle) && call.flowControl.all FcTxPoll.passes && call.jettyNode

/-- The completions of the IO jetty that the poll takes. -/
def TxPoll.polled : List TxCr :=
  if call.reaches then
    match call.jfc with
    | .failed _ => []
    | .waiting crs => crs.take call.maxBatch
  else []

/-- Every completion that is written finds an entry behind the notices and the buffers
delivered before it. -/
def TxPoll.Fits : Prop :=
  ∀ before cr after, call.polled = before ++ cr :: after → cr.reported →
    call.fcFailures + before.countP TxCr.delivered < call.bufCount

theorem FcTxCr.length_notices {cr : FcTxCr} : cr.notices.length = cr.noticed.toNat := by
  obtain ⟨status, alloc⟩ := cr
  cases alloc <;> cases status <;> rfl

theorem fcNotice_kept {alloc : Option Nat} {status : UmqBufStatus} :
    ∀ put ∈ fcNotice alloc status, put.keep = true := by
  cases alloc <;> simp [fcNotice]

theorem FcTxCr.notices_kept {cr : FcTxCr} : ∀ put ∈ cr.notices, put.keep = true := by
  intro put mem
  obtain ⟨status, _, mem⟩ := mem_flatMap.mp mem
  exact fcNotice_kept put mem

theorem length_flatMap_notices {crs : List FcTxCr} :
    (crs.flatMap FcTxCr.notices).length = crs.countP FcTxCr.noticed := by
  induction crs with
  | nil => rfl
  | cons cr crs ih =>
    rw [flatMap_cons, length_append, ih, FcTxCr.length_notices, countP_cons]
    cases cr.noticed <;> simp [Nat.add_comm]

theorem umqUbPollFcTx_eq {fc : FcTxPoll} {bufCount : Nat} :
    umqUbPollFcTx fc bufCount =
      if !fc.jettyNode || fc.jfc.succeeds then some (Cursor.start.putAll ((fc.polled bufCount).flatMap FcTxCr.notices))
      else none := by
  obtain ⟨returnReq, jettyNode, jfc⟩ := fc
  cases jettyNode with
  | false => rfl
  | true =>
    cases jfc with
    | failed code => rfl
    | waiting crs =>
      have asked : (if bufCount ≥ umqUbFlowControlJettyDepth then umqUbFlowControlJettyDepth else bufCount) =
          min bufCount umqUbFlowControlJettyDepth := by
        split <;> omega
      simp only [umqUbPollFcTx, asked]
      exact congrArg some (Cursor.foldl_eq_putAll umqUbFcTxCr_eq)

theorem FcTxPoll.polled_length_le {fc : FcTxPoll} {bufCount : Nat} : (fc.polled bufCount).length ≤ bufCount := by
  unfold FcTxPoll.polled
  split
  · exact Nat.zero_le _
  · split
    · exact Nat.zero_le _
    · exact (length_take_le _ _).trans (Nat.min_le_left ..)

/-- The notices fit: there is at most one for each completion asked for. -/
theorem umqUbPollFcTx_within {fc : FcTxPoll} (polled : umqUbPollFcTx fc bufCount = some cursor) :
    cursor.Within bufCount ∧ cursor.position = (fc.polled bufCount).countP FcTxCr.noticed := by
  rw [umqUbPollFcTx_eq] at polled
  split at polled
  · cases polled
    have kept : ∀ put ∈ (fc.polled bufCount).flatMap FcTxCr.notices, put.keep = true := by
      intro put mem
      obtain ⟨cr, _, mem⟩ := mem_flatMap.mp mem
      exact cr.notices_kept put mem
    have position : (Cursor.start.putAll ((fc.polled bufCount).flatMap FcTxCr.notices)).position =
        (fc.polled bufCount).countP FcTxCr.noticed := by
      rw [Cursor.position_putAll_kept kept, length_flatMap_notices]
      exact Nat.zero_add _
    refine ⟨(Cursor.putAll_within_iff_of_kept Cursor.start_within kept).mpr ?_, position⟩
    rw [length_flatMap_notices]
    exact (Nat.zero_add _).trans_le (countP_le_length.trans fc.polled_length_le)
  · cases polled

theorem TxCr.put?_isSome {cr : TxCr} : cr.put?.isSome = cr.reported := by
  unfold TxCr.put?
  cases cr.reported <;> rfl

theorem TxCr.put?_kept {cr : TxCr} : cr.put?.any (·.keep) = cr.delivered := by
  unfold TxCr.put? TxCr.delivered
  cases cr.reported <;> rfl

/-- The flush adds nothing to what can go wrong. -/
theorem umqUbTxFlush_bounded_iff {call : TxPoll} {polled : TxPolled} :
    PollResult.Bounded call.bufCount
      (if polled.flush.ready ∧ call.bufCount < 2 ^ 31 ∧ polled.cursor.position < call.bufCount then
        pollResult (umqUbFlushSqe call.flushJetty (call.bufCount - polled.cursor.position) polled.cursor)
      else pollResult polled.cursor) ↔ polled.cursor.Within call.bufCount := by
  split
  · rename_i room
    obtain ⟨puts, short, same⟩ :=
      umqUbFlushSqe_eq call.flushJetty (call.bufCount - polled.cursor.position) polled.cursor
    rw [same, pollResult_bounded_iff]
    exact ⟨Cursor.Within.of_putAll, fun within => within.putAll (by omega)⟩
  · exact pollResult_bounded_iff

theorem umqUbPollTxIo_bounded_iff {call : TxPoll} (within : cursor.Within call.bufCount) :
    (umqUbPollTxIo call cursor).Bounded call.bufCount ↔
      ∀ crs, call.jettyNode → call.jfc = .waiting crs → ∀ before cr after,
        crs.take call.maxBatch = before ++ cr :: after → cr.reported →
        cursor.position + before.countP TxCr.delivered < call.bufCount := by
  unfold umqUbPollTxIo
  cases node : call.jettyNode with
  | false => simpa using PollResult.bounded_of_nonpos le_rfl within.2
  | true =>
    cases jfc : call.jfc with
    | failed code => simpa using PollResult.bounded_of_nonpos (Int.negSucc_lt_zero code).le within.2
    | waiting crs =>
      simp only [Bool.not_true, Bool.false_eq_true, if_false]
      rw [umqUbTxFlush_bounded_iff, foldl_umqUbTxCr_cursor, Cursor.putAll_filterMap_within_iff]
      simp only [TxCr.put?_isSome, TxCr.put?_kept]
      constructor
      · rintro ⟨_, fits⟩ _ _ ⟨⟩
        exact fits
      · intro fits
        exact ⟨within, fits crs trivial rfl⟩

theorem TxPoll.polled_eq_nil_of_unreached {call : TxPoll} (unreached : call.reaches = false) : call.polled = [] := by
  rw [TxPoll.polled, unreached]
  rfl

/-- Before the IO jetty nothing goes wrong. -/
theorem umqUbPollTxSingle_cases :
    (call.polled = [] ∧ (umqUbPollTxSingle call).Bounded call.bufCount) ∨
    ∃ cursor, cursor.Within call.bufCount ∧ cursor.position = call.fcFailures ∧
      umqUbPollTxSingle call = umqUbPollTxIo call cursor ∧ call.reaches = call.jettyNode := by
  have nothing : ∀ ret ≤ 0, (PollResult.mk ret []).Bounded call.bufCount := fun ret nonpos =>
    PollResult.bounded_of_nonpos nonpos (forall_mem_nil _)
  unfold umqUbPollTxSingle
  split
  · rename_i early
    refine .inl ⟨?_, nothing 0 le_rfl⟩
    obtain exiting | empty := early
    · exact TxPoll.polled_eq_nil_of_unreached (by simp [TxPoll.reaches, exiting])
    · have nobatch : call.maxBatch = 0 := by simp [TxPoll.maxBatch, empty]
      unfold TxPoll.polled
      rw [nobatch]
      split
      · split <;> rfl
      · rfl
  rename_i early
  rw [not_or] at early
  split
  · rename_i shared
    refine .inl ⟨TxPoll.polled_eq_nil_of_unreached ?_, nothing 0 le_rfl⟩
    simp only [TxPoll.reaches, shared, Bool.and_self, Bool.not_true, Bool.and_false, Bool.false_and]
  rename_i unshared
  have entered : (!call.exiting && !(call.sharedMain && !call.tpHandle)) = true := by
    simpa [early.1, ← imp_iff_not_or, ← Bool.not_eq_true] using unshared
  cases flowControl : call.flowControl with
  | none =>
    refine .inr ⟨.start, Cursor.start_within, ?_, rfl, ?_⟩
    · rw [TxPoll.fcFailures, flowControl]
      rfl
    · rw [TxPoll.reaches, entered, flowControl]
      rfl
  | some fc =>
    cases returnReq : fc.returnReq with
    | some code =>
      simp only [returnReq]
      refine .inl ⟨TxPoll.polled_eq_nil_of_unreached ?_, nothing _ (Int.negSucc_lt_zero code).le⟩
      simp [TxPoll.reaches, flowControl, FcTxPoll.passes, returnReq]
    | none =>
      simp only [returnReq]
      cases polled : umqUbPollFcTx fc call.bufCount with
      | none =>
        refine .inl ⟨TxPoll.polled_eq_nil_of_unreached ?_, nothing _ (by decide)⟩
        rw [umqUbPollFcTx_eq] at polled
        simp_all [TxPoll.reaches, FcTxPoll.passes]
      | some cursor =>
        obtain ⟨within, position⟩ := umqUbPollFcTx_within polled
        refine .inr ⟨cursor, within, ?_, rfl, ?_⟩
        · rw [position, TxPoll.fcFailures, flowControl]
        · rw [umqUbPollFcTx_eq] at polled
          rw [TxPoll.reaches]
          simp_all [FcTxPoll.passes]

theorem umqUbPollTxSingle_bounded_iff {call : TxPoll} : (umqUbPollTxSingle call).Bounded call.bufCount ↔ call.Fits := by
  obtain ⟨nothing, bounded⟩ | ⟨cursor, within, position, result, reaches⟩ := umqUbPollTxSingle_cases call
  · refine iff_of_true bounded fun before cr after same => ?_
    rw [nothing] at same
    simp at same
  · rw [result, umqUbPollTxIo_bounded_iff within, position]
    unfold TxPoll.Fits TxPoll.polled
    rw [reaches]
    cases node : call.jettyNode with
    | false => simp
    | true => cases call.jfc <;> simp

/-! ## Receive completions -/

/-- The notice about a handler's error, if the message is not kept for a retry. -/
def FcMsg.errNotices (msg : FcMsg) : UmqErr → List (Put PolledBuf)
  | .emlink | .eflowctlEagain => []
  | .eflowctlFatal => fcNotice msg.alloc .fakeBufFcErrFatal
  | _ => fcNotice msg.alloc .fakeBufFcErr

variable (call : RxPoll) (msg : FcMsg)

theorem umqUbFcMsgError_eq {err : UmqErr} {cursor : Cursor PolledBuf} :
    umqUbFcMsgError msg err cursor = cursor.putAll (msg.errNotices err) := by
  cases err <;> simp [umqUbFcMsgError, FcMsg.errNotices, umqUbFillFcBuf_eq]

/-- What a handled message puts, or the error that is left. -/
def FcMsg.outcome (msg : FcMsg) : Except UmqErr (List (Put PolledBuf)) :=
  match msg.type with
  | .creditReq | .creditReturnReq => msg.handled.map fun _ => []
  | .creditRep => .ok (fcNotice msg.alloc .fakeBufFcUpdate)
  | .creditReturnAck | .other => .ok []

theorem umqUbProcessFcMsg_eq {cursor : Cursor PolledBuf} :
    umqUbProcessFcMsg msg cursor = msg.outcome.map cursor.putAll := by
  obtain ⟨type, handled, alloc⟩ := msg
  cases type <;> cases handled <;> simp [umqUbProcessFcMsg, FcMsg.outcome, umqUbFillFcBuf_eq, Except.map]

def FcMsg.notices (msg : FcMsg) : List (Put PolledBuf) :=
  match msg.outcome with
  | .ok puts => puts
  | .error err => msg.errNotices err

theorem umqUbProcessFcMsgWithRetry_eq {cursor : Cursor PolledBuf} :
    umqUbProcessFcMsgWithRetry msg cursor = cursor.putAll msg.notices := by
  unfold umqUbProcessFcMsgWithRetry FcMsg.notices
  rw [umqUbProcessFcMsg_eq]
  cases msg.outcome with
  | ok puts => rfl
  | error err => exact umqUbFcMsgError_eq msg

def RetryEntry.notices (entry : RetryEntry) : List (Put PolledBuf) :=
  if !entry.realQueue then []
  else match entry.msg.outcome with
    | .ok puts => puts
    | .error err =>
      if entry.retryType ≠ .noJetty ∧ entry.timedOut then fcNotice entry.msg.alloc .fakeBufFcErr
      else entry.msg.errNotices err

theorem umqUbFcMsgRetryDequeue_eq {cursor : Cursor PolledBuf} {entry : RetryEntry} :
    umqUbFcMsgRetryDequeue cursor entry = cursor.putAll entry.notices := by
  unfold umqUbFcMsgRetryDequeue RetryEntry.notices
  cases entry.realQueue with
  | false => rfl
  | true =>
    rw [umqUbProcessFcMsg_eq]
    cases entry.msg.outcome with
    | ok puts => rfl
    | error err =>
      simp only [Bool.not_true, Bool.false_eq_true, if_false, Except.map, umqUbFillFcBuf_eq, umqUbFcMsgError_eq]
      split <;> rfl

def FcRxCr.notices (main : Bool) (cr : FcRxCr) : List (Put PolledBuf) :=
  (if cr.refilled then [] else fcNotice cr.refillAlloc .fakeBufFcErr) ++
  (if main ∧ !cr.realQueue then []
  else if cr.status ≠ .success then fcNotice cr.msg.alloc .fakeBufFcErr
  else if cr.duplicate then []
  else if main ∧ cr.enqueued then []
  else cr.msg.notices)

theorem umqUbFcRxCr_eq {main : Bool} (cursor : Cursor PolledBuf) (cr : FcRxCr) :
    umqUbFcRxCr main cursor cr = cursor.putAll (cr.notices main) := by
  unfold umqUbFcRxCr FcRxCr.notices
  rw [Cursor.putAll_append]
  simp only [umqUbFillFcBuf_eq, umqUbProcessFcMsgWithRetry_eq]
  split_ifs <;> rfl

/-! A notice is always kept, and a message has at most one. -/

structure Notices (limit : Nat) (puts : List (Put PolledBuf)) : Prop where
  kept : ∀ put ∈ puts, put.keep = true
  length_le : puts.length ≤ limit

theorem notices_nil {limit : Nat} : Notices limit [] := ⟨forall_mem_nil _, Nat.zero_le _⟩

theorem fcNotice_notices (alloc : Option Nat) (status : UmqBufStatus) : Notices 1 (fcNotice alloc status) :=
  ⟨fcNotice_kept, by cases alloc <;> simp [fcNotice]⟩

theorem FcMsg.errNotices_notices {err : UmqErr} : Notices 1 (msg.errNotices err) := by
  unfold FcMsg.errNotices
  split
  · exact notices_nil
  · exact notices_nil
  · exact fcNotice_notices ..
  · exact fcNotice_notices ..

theorem FcMsg.outcome_notices {msg : FcMsg} {puts : List (Put PolledBuf)} (handled : msg.outcome = .ok puts) :
    Notices 1 puts := by
  obtain ⟨type, ret, alloc⟩ := msg
  cases type <;> cases ret <;> cases handled <;> first | exact notices_nil | exact fcNotice_notices ..

theorem FcMsg.notices_notices : Notices 1 msg.notices := by
  unfold FcMsg.notices
  split
  · exact FcMsg.outcome_notices ‹_›
  · exact msg.errNotices_notices

theorem RetryEntry.notices_notices (entry : RetryEntry) : Notices 1 entry.notices := by
  unfold RetryEntry.notices
  split
  · exact notices_nil
  · split
    · exact FcMsg.outcome_notices ‹_›
    · split
      · exact fcNotice_notices ..
      · exact entry.msg.errNotices_notices

theorem Notices.append {limit limit' : Nat} {puts puts' : List (Put PolledBuf)} (first : Notices limit puts)
    (second : Notices limit' puts') : Notices (limit + limit') (puts ++ puts') where
  kept := forall_mem_append.mpr ⟨first.kept, second.kept⟩
  length_le := by
    rw [length_append]
    exact Nat.add_le_add first.length_le second.length_le

theorem notices_flatMap {β : Type} {limit : Nat} {puts : β → List (Put PolledBuf)}
    (each : ∀ item, Notices limit (puts item)) (items : List β) :
    Notices (items.length * limit) (items.flatMap puts) := by
  induction items with
  | nil => exact notices_nil
  | cons item items ih =>
    rw [length_cons, Nat.succ_mul, Nat.add_comm]
    exact (each item).append ih

/-- A completion may put two: one because its receive request could not be renewed, and
one about its message. -/
theorem FcRxCr.notices_notices (main : Bool) (cr : FcRxCr) : Notices 2 (cr.notices main) := by
  have refill : Notices 1 (if cr.refilled then [] else fcNotice cr.refillAlloc .fakeBufFcErr) := by
    split_ifs
    · exact notices_nil
    · exact fcNotice_notices ..
  refine (refill.append (?_ : Notices 1 _) : Notices (1 + 1) _)
  split_ifs
  · exact notices_nil
  · exact fcNotice_notices ..
  · exact notices_nil
  · exact notices_nil
  · exact cr.msg.notices_notices

/-- A walk stops when the array is full. -/
theorem umqUbFcMsgRetryWalk_eq {entries : List RetryEntry} {cursor : Cursor PolledBuf} :
    umqUbFcMsgRetryWalk bufCount entries cursor =
      cursor.putAll ((entries.flatMap RetryEntry.notices).take (bufCount - cursor.position)) := by
  induction entries generalizing cursor with
  | nil => simp [umqUbFcMsgRetryWalk]
  | cons entry entries ih =>
    unfold umqUbFcMsgRetryWalk
    split
    · rename_i full
      simp [Nat.sub_eq_zero_of_le full]
    · rename_i room
      obtain ⟨kept, short⟩ := entry.notices_notices
      have whole : entry.notices.take (bufCount - cursor.position) = entry.notices :=
        take_of_length_le (by omega)
      rw [ih, umqUbFcMsgRetryDequeue_eq, Cursor.position_putAll_kept kept, ← Cursor.putAll_append,
        flatMap_cons, take_append, whole, Nat.sub_add_eq]

def RetryList.notices (lists : RetryList) : List (Put PolledBuf) :=
  (lists.noJetty ++ lists.retry).flatMap RetryEntry.notices

def drainNotices (retryList : Option RetryList) (bufCount : Nat) : List (Put PolledBuf) :=
  (retryList.toList.flatMap RetryList.notices).take bufCount

theorem drainNotices_notices (retryList : Option RetryList) (bufCount : Nat) :
    Notices bufCount (drainNotices retryList bufCount) where
  kept := fun put mem => by
    obtain ⟨lists, _, mem⟩ := mem_flatMap.mp (mem_of_mem_take mem)
    exact (notices_flatMap RetryEntry.notices_notices _).kept put mem
  length_le := length_take_le ..

theorem umqUbFcMsgRetryWalk_append (first second : List RetryEntry) (cursor : Cursor PolledBuf) :
    umqUbFcMsgRetryWalk bufCount (first ++ second) cursor =
      umqUbFcMsgRetryWalk bufCount second (umqUbFcMsgRetryWalk bufCount first cursor) := by
  induction first generalizing cursor with
  | nil => rfl
  | cons entry first ih =>
    rw [cons_append, umqUbFcMsgRetryWalk, umqUbFcMsgRetryWalk]
    split
    · rename_i full
      -- a full array also stops the walk over the second list
      cases second with
      | nil => rfl
      | cons other second => rw [umqUbFcMsgRetryWalk, if_pos full]
    · exact ih _

theorem umqUbFcMsgRetryDrain_eq (retryList : Option RetryList) (bufCount : Nat) :
    umqUbFcMsgRetryDrain retryList bufCount = Cursor.start.putAll (drainNotices retryList bufCount) := by
  cases retryList with
  | none => simp [umqUbFcMsgRetryDrain, drainNotices]
  | some lists =>
    rw [umqUbFcMsgRetryDrain, ← umqUbFcMsgRetryWalk_append, umqUbFcMsgRetryWalk_eq]
    simp [drainNotices, RetryList.notices, Cursor.start]

def FcRxPoll.notices (main : Bool) (pollCountMax : Nat) (fc : FcRxPoll) (bufCount : Nat) : List (Put PolledBuf) :=
  let drained := drainNotices fc.retryList bufCount
  drained ++
    match fc.jfc with
    | .failed _ => []
    | .waiting crs => (crs.take (min (bufCount - drained.length) pollCountMax)).flatMap (FcRxCr.notices main)

theorem FcRxPoll.notices_notices (main : Bool) (pollCountMax : Nat) (fc : FcRxPoll) (bufCount : Nat) :
    Notices (bufCount + pollCountMax * 2) (fc.notices main pollCountMax bufCount) := by
  refine (drainNotices_notices fc.retryList bufCount).append ?_
  split
  · exact notices_nil
  · rename_i crs _
    obtain ⟨kept, length_le⟩ := notices_flatMap (FcRxCr.notices_notices main)
      (crs.take (min (bufCount - (drainNotices fc.retryList bufCount).length) pollCountMax))
    refine ⟨kept, length_le.trans (Nat.mul_le_mul_right 2 ?_)⟩
    exact (length_take_le _ _).trans (Nat.min_le_right ..)

theorem umqUbPollFc_eq (main : Bool) (pollCountMax : Nat) (fc : FcRxPoll) (bufCount : Nat) :
    (umqUbPollFc main pollCountMax fc bufCount).1 = Cursor.start.putAll (fc.notices main pollCountMax bufCount) := by
  have drained := umqUbFcMsgRetryDrain_eq fc.retryList bufCount
  have position : (umqUbFcMsgRetryDrain fc.retryList bufCount).position =
      (drainNotices fc.retryList bufCount).length := by
    rw [drained, Cursor.position_putAll_kept (drainNotices_notices ..).kept]
    exact Nat.zero_add _
  simp only [umqUbPollFc, FcRxPoll.notices, position, Cursor.putAll_append, ← drained]
  split
  · rename_i full
    cases fc.jfc <;> simp [full]
  · cases fc.jfc with
    | failed code => rfl
    | waiting crs =>
      have asked : ∀ remaining,
          (if remaining ≥ pollCountMax then pollCountMax else remaining) = min remaining pollCountMax := by
        intro remaining
        split <;> omega
      rw [asked]
      exact Cursor.foldl_eq_putAll umqUbFcRxCr_eq

/-- A poll that fails has only drained the retry lists. -/
theorem umqUbPollFc_failed {main : Bool} {pollCountMax : Nat} {fc : FcRxPoll}
    (failed : (umqUbPollFc main pollCountMax fc bufCount).2 = false) :
    (fc.notices main pollCountMax bufCount).length ≤ bufCount := by
  cases jfc : fc.jfc with
  | failed code => simpa [FcRxPoll.notices, jfc] using (drainNotices_notices fc.retryList bufCount).length_le
  | waiting crs =>
    simp only [umqUbPollFc, jfc] at failed
    split at failed <;> cases failed

def RxPoll.fcNotices (call : RxPoll) : List (Put PolledBuf) :=
  match call.flowControl with
  | none => []
  | some fc =>
    if call.mainUmq then fc.notices true umqUbFcPollCountMax call.maxBatch
    else if !call.shareRq then fc.notices false umqUbFlowControlJettyDepth call.maxBatch
    else []

theorem RxPoll.fcNotices_notices : Notices (call.maxBatch + 4) call.fcNotices := by
  unfold RxPoll.fcNotices
  split
  · exact notices_nil
  · rename_i fc _
    split_ifs
    · obtain ⟨kept, length_le⟩ := fc.notices_notices true umqUbFcPollCountMax call.maxBatch
      exact ⟨kept, length_le.trans (Nat.add_le_add_left (by decide) _)⟩
    · exact fc.notices_notices false umqUbFlowControlJettyDepth call.maxBatch
    · exact notices_nil

def RxCr.delivered (call : RxPoll) (cr : RxCr) : Bool := !(cr.writeWithImm && !call.apiPro)

def RxCr.put (call : RxPoll) (cr : RxCr) : Put PolledBuf :=
  ⟨⟨cr.buffer, cr.imported.getD (.cr cr.status)⟩, cr.delivered call⟩

/-- What the IO part writes when it asks for `batch` entries. -/
def RxPoll.ioPuts (call : RxPoll) (batch : Nat) : List (Put PolledBuf) :=
  if call.shareRq then []
  else if call.stateErr then
    if call.subUmq || !call.txFlushDone || call.rxFlushDone then []
    else (call.used.take batch).map fun buffer => ⟨⟨buffer, .cr .wrFlushErr⟩, true⟩
  else match call.jfc with
    | .failed _ => []
    | .waiting crs => (crs.take batch).map (RxCr.put call)

theorem RxPoll.length_ioPuts_le (batch : Nat) : (call.ioPuts batch).length ≤ batch := by
  unfold RxPoll.ioPuts
  split_ifs
  · exact Nat.zero_le _
  · exact Nat.zero_le _
  · exact (length_map _).trans_le (length_take_le ..)
  · split
    · exact Nat.zero_le _
    · exact (length_map _).trans_le (length_take_le ..)

theorem umqUbPollRxIo_eq {cursor : Cursor PolledBuf} :
    umqUbPollRxIo call cursor =
      pollResult (cursor.putAll (call.ioPuts ((call.maxBatch + 2 ^ 32 - cursor.position) % 2 ^ 32))) := by
  unfold umqUbPollRxIo
  generalize (call.maxBatch + 2 ^ 32 - cursor.position) % 2 ^ 32 = batch
  have nothing : batch = 0 ∨ call.shareRq = true → call.ioPuts batch = [] := by
    rintro (rfl | shared)
    · exact length_eq_zero_iff.mp (Nat.le_zero.mp (call.length_ioPuts_le 0))
    · simp [RxPoll.ioPuts, shared]
  by_cases idle : batch = 0 ∨ call.shareRq = true
  · rw [if_pos idle, nothing idle, Cursor.putAll_nil]
  have unshared : call.shareRq = false := by simpa using (not_or.mp idle).2
  rw [if_neg idle]
  unfold RxPoll.ioPuts
  rw [unshared]
  cases stateErr : call.stateErr with
  | true =>
    simp only [umqReportIncompleteRx, stateErr]
    cases call.subUmq <;> cases call.txFlushDone <;> cases call.rxFlushDone <;> rfl
  | false =>
    cases call.jfc with
    | failed code => rfl
    | waiting crs =>
      have loop : (crs.take batch).foldl (umqUbRxCr call) cursor =
          cursor.putAll ((crs.take batch).map (RxCr.put call)) := by
        rw [Cursor.putAll, foldl_map]
        rfl
      exact congrArg pollResult loop

/-- The notices fit into the batch; or they exceed it, but not the array, and so does
what is written behind them, although the number of entries asked for has wrapped. -/
def RxPoll.Fits (call : RxPoll) : Prop :=
  call.fcNotices.length ≤ call.maxBatch ∨
    call.fcNotices.length ≤ call.bufCount ∧ ∀ before put after,
      call.ioPuts (call.maxBatch + 2 ^ 32 - call.fcNotices.length) = before ++ put :: after →
      call.fcNotices.length + before.countP (·.keep) < call.bufCount

theorem RxPoll.maxBatch_le : call.maxBatch ≤ call.bufCount := by
  unfold RxPoll.maxBatch
  split <;> omega

theorem umqUbPollRxIo_bounded_iff :
    (umqUbPollRxIo call (Cursor.start.putAll call.fcNotices)).Bounded call.bufCount ↔ call.Fits := by
  obtain ⟨kept, length_le⟩ := call.fcNotices_notices
  have batchLe := call.maxBatch_le
  have small := call.countLt
  have position : (Cursor.start.putAll call.fcNotices).position = call.fcNotices.length := by
    rw [Cursor.position_putAll_kept kept]
    exact Nat.zero_add _
  rw [umqUbPollRxIo_eq, pollResult_bounded_iff, position]
  by_cases fits : call.fcNotices.length ≤ call.maxBatch
  · -- the batch that is left is what the array has left
    have left : (call.maxBatch + 2 ^ 32 - call.fcNotices.length) % 2 ^ 32 = call.maxBatch - call.fcNotices.length := by
      omega
    rw [left]
    refine iff_of_true ?_ (.inl fits)
    have within : (Cursor.start.putAll call.fcNotices).Within call.bufCount :=
      Cursor.start_within.putAll ((Nat.zero_add _).trans_le (fits.trans batchLe))
    refine within.putAll ?_
    have short := call.length_ioPuts_le (call.maxBatch - call.fcNotices.length)
    omega
  · have wrapped : (call.maxBatch + 2 ^ 32 - call.fcNotices.length) % 2 ^ 32 =
        call.maxBatch + 2 ^ 32 - call.fcNotices.length := by
      omega
    rw [wrapped]
    rw [Cursor.putAll_within_iff, Cursor.putAll_within_iff_of_kept Cursor.start_within kept, position]
    unfold RxPoll.Fits
    rw [or_iff_right fits]
    exact and_congr_left' (iff_of_eq (congrArg (· ≤ call.bufCount) (Nat.zero_add _)))

theorem umqUbPollRxFc_eq : (umqUbPollRxFc call).1 = Cursor.start.putAll call.fcNotices := by
  unfold umqUbPollRxFc RxPoll.fcNotices
  cases call.flowControl with
  | none => rfl
  | some fc =>
    split_ifs
    · exact umqUbPollFc_eq ..
    · exact umqUbPollFc_eq ..
    · rfl

theorem umqUbPollRxFc_failed {call : RxPoll} (failed : (umqUbPollRxFc call).2 = false) :
    call.fcNotices.length ≤ call.maxBatch := by
  unfold umqUbPollRxFc at failed
  unfold RxPoll.fcNotices
  cases flowControl : call.flowControl with
  | none => exact Nat.zero_le _
  | some fc =>
    simp only [flowControl] at failed
    split_ifs at failed
    all_goals simp only [*]
    · exact umqUbPollFc_failed failed
    · exact umqUbPollFc_failed failed

theorem RxPoll.fcNotices_eq_nil (empty : call.bufCount = 0) : call.fcNotices = [] := by
  have nobatch : call.maxBatch = 0 := Nat.le_zero.mp (empty ▸ call.maxBatch_le)
  have none : ∀ (main : Bool) (pollCountMax : Nat) (fc : FcRxPoll), fc.notices main pollCountMax 0 = [] := by
    intro main pollCountMax fc
    cases jfc : fc.jfc <;> simp [FcRxPoll.notices, drainNotices, jfc]
  unfold RxPoll.fcNotices
  split
  · rfl
  · rw [nobatch]
    split_ifs
    · exact none ..
    · exact none ..
    · rfl

theorem umqUbPollRx_bounded_iff : (umqUbPollRx call).Bounded call.bufCount ↔ call.Fits := by
  have notices := umqUbPollRxFc_eq call
  unfold umqUbPollRx
  split
  · rename_i empty
    have bounded : (PollResult.mk 0 []).Bounded call.bufCount :=
      PollResult.bounded_of_nonpos le_rfl (forall_mem_nil _)
    refine iff_of_true bounded (.inl ?_)
    rw [call.fcNotices_eq_nil empty]
    exact Nat.zero_le _
  · cases passed : (umqUbPollRxFc call).2 with
    | false =>
      have fits := umqUbPollRxFc_failed passed
      have within : (umqUbPollRxFc call).1.Within call.bufCount := by
        rw [notices]
        exact Cursor.start_within.putAll ((Nat.zero_add _).trans_le (fits.trans call.maxBatch_le))
      have bounded : (PollResult.mk (-1) (umqUbPollRxFc call).1.writes).Bounded call.bufCount :=
        PollResult.bounded_of_nonpos (Int.neg_nonpos_of_nonneg Int.one_nonneg) within.2
      simp only [passed]
      exact iff_of_true bounded (.inl fits)
    | true =>
      simp only [passed, notices, Bool.not_true, Bool.false_eq_true, if_false]
      exact umqUbPollRxIo_bounded_iff call

/-! ## Both polls -/

/-- The polls stay inside the caller's array exactly if the completions they are given
leave them the room. -/
theorem umqUbPolls_bounded_iff (txCall : TxPoll) (rxCall : RxPoll) :
    ((umqUbPollTxSingle txCall).Bounded txCall.bufCount ↔ txCall.Fits) ∧
      ((umqUbPollRx rxCall).Bounded rxCall.bufCount ↔ rxCall.Fits) :=
  ⟨umqUbPollTxSingle_bounded_iff, umqUbPollRx_bounded_iff rxCall⟩

/-- An array of one entry, a flow-control message that failed and a buffer that was
sent. -/
def crowdedTx : TxPoll where
  bufCount := 1
  exiting := false
  sharedMain := false
  tpHandle := false
  flowControl := some ⟨none, true, .waiting [⟨.remOperationErr, some 70⟩]⟩
  jettyNode := true
  jfc := .waiting [⟨.success, 80, .send, .user, .other⟩]
  flush := ⟨false, false, none⟩
  marksNode := false
  flushJetty := none
  countLt := by decide

/-- An array of one entry and a credit reply whose receive request could not be posted
again. -/
def crowdedRx : RxPoll where
  bufCount := 1
  mainUmq := true
  subUmq := false
  shareRq := false
  flowControl := some ⟨none, .waiting [⟨.success, false, some 70, true, false, false, ⟨.creditRep, .ok (), some 71⟩⟩]⟩
  stateErr := false
  txFlushDone := false
  rxFlushDone := false
  used := []
  apiPro := true
  jfc := .waiting []
  countLt := by decide

/-- Both return two and write the second entry of the array that has one. -/
theorem umqUbPolls_crowded :
    umqUbPollTxSingle crowdedTx = ⟨2, [(0, ⟨70, .fakeBufFcErr⟩), (1, ⟨80, .cr .success⟩)]⟩ ∧
      ¬ (umqUbPollTxSingle crowdedTx).Bounded crowdedTx.bufCount ∧
    umqUbPollRx crowdedRx = ⟨2, [(0, ⟨70, .fakeBufFcErr⟩), (1, ⟨71, .fakeBufFcUpdate⟩)]⟩ ∧
      ¬ (umqUbPollRx crowdedRx).Bounded crowdedRx.bufCount := by
  have sent : umqUbPollTxSingle crowdedTx = ⟨2, [(0, ⟨70, .fakeBufFcErr⟩), (1, ⟨80, .cr .success⟩)]⟩ := by decide
  have received : umqUbPollRx crowdedRx = ⟨2, [(0, ⟨70, .fakeBufFcErr⟩), (1, ⟨71, .fakeBufFcUpdate⟩)]⟩ := by decide
  refine ⟨sent, fun bounded => ?_, received, fun bounded => ?_⟩
  · exact absurd bounded.count (by decide)
  · exact absurd bounded.count (by decide)

end UbsComm.Ub
