import UbsComm.FlowControl.Model
import UbsComm.Library.CompareExchange
import Mathlib.Data.UInt

/-! # The two sets of counter operations

`umq_ub_flow_control_init` and `umq_ub_credit_pool_init` fill their tables of operations either with functions
that update the counters by compare-and-exchange loops and atomic additions, or with plain ones.  Run alone,
the two tables do the same. -/

namespace UbsComm.FlowControl

open Library Ub Function

/-! ## The counters -/

/-- `ub_packet_stats_type_t`. -/
inductive PacketStatsType where
  | send | sendSuccess | recv | sendEagain | sendError | recvError | recvDuplicateReq | recvDuplicateRsp
  deriving DecidableEq

/-- The counters of `ub_flow_control_t`. -/
structure FcCounters where
  localRxPosted : UInt16
  remoteRxWindow : UInt16
  totalLocalRxPosted : UInt64
  totalRemoteRxReceived : UInt64
  totalRemoteRxConsumed : UInt64
  totalRemoteRxReceivedError : UInt64
  totalFlowControlledWr : UInt64
  packetStats : PacketStatsType → UInt64
  allocatedSuccess : UInt64
  allocatedTotal : UInt64

/-- `ub_credit_stat_u16_t`. -/
inductive CreditStatU16 where
  | idle | allocated
  deriving DecidableEq

/-- `ub_credit_stat_u64_t`. -/
inductive CreditStatU64 where
  | idleTotal | allocatedTotal | errTotal | allocatedUnlimited
  deriving DecidableEq

/-- The counters of `ub_credit_pool_t`. -/
structure PoolCounters where
  isLimited : Bool
  statsU16 : CreditStatU16 → UInt16
  statsU64 : CreditStatU64 → UInt64

variable (pool : PoolCounters)

def PoolCounters.setU16 (type : CreditStatU16) (value : UInt16) : PoolCounters :=
  { pool with statsU16 := update pool.statsU16 type value }

def PoolCounters.setU64 (type : CreditStatU64) (value : UInt64) : PoolCounters :=
  { pool with statsU64 := update pool.statsU64 type value }

def PoolCounters.addU64 (type : CreditStatU64) (count : UInt16) : PoolCounters :=
  pool.setU64 type (pool.statsU64 type + count.toUInt64)

/-- The 32-bit sum of two counters is above `UINT16_MAX`. -/
def exceedsU16 (before count : UInt16) : Bool := before.toNat + count.toNat > uint16Max

/-! ## Compare-and-exchange loops

`weak` says how often the exchange of each loop of a call fails without a reason. -/

/-- The body of `counter_inc_atomic_u16`: the value returned and `*success`. -/
def counterIncBody (count : UInt16) (before : UInt16) : Attempt UInt16 (UInt16 × Bool) :=
  if exceedsU16 before count then .leave (before, false) else .store (before + count) (before + count, true)

def counterIncAtomicU16 (weak : Nat) (pool : PoolCounters) (count : UInt16) (type : CreditStatU16) :
    PoolCounters × UInt16 × Bool :=
  let result := casLoop (counterIncBody count) weak (pool.statsU16 type)
  (pool.setU16 type result.1, result.2)

/-- The body the decrements share: take what there is, up to the count. -/
def counterDecBody (count : UInt16) (before : UInt16) : Attempt UInt16 UInt16 :=
  if before = 0 then .leave 0
  else
    let after := if before > count then before - count else 0
    .store after (before - after)

def counterDecAtomicU16 (weak : Nat) (pool : PoolCounters) (count : UInt16) (type : CreditStatU16) :
    PoolCounters × UInt16 :=
  let result := casLoop (counterDecBody count) weak (pool.statsU16 type)
  (pool.setU16 type result.1, result.2)

/-- The body on a 64-bit counter; the function returns the low sixteen bits. -/
def counterDecBodyU64 (count : UInt16) (before : UInt64) : Attempt UInt64 UInt16 :=
  if before = 0 then .leave 0
  else
    let after := if before > count.toUInt64 then before - count.toUInt64 else 0
    .store after (before - after).toUInt16

def counterDecAtomicU64 (weak : Nat) (counter : UInt64) (count : UInt16) : UInt64 × UInt16 :=
  casLoop (counterDecBodyU64 count) weak counter

def counterIncAtomicU64 (weak : Nat) (counter : UInt64) (count : UInt16) : UInt64 × UInt64 :=
  casLoop (fun before => .store (before + count.toUInt64) (before + count.toUInt64)) weak counter

/-! ## Plain updates -/

def counterIncNonAtomicU16 (count : UInt16) (type : CreditStatU16) : PoolCounters × UInt16 :=
  let before := pool.statsU16 type
  if exceedsU16 before count then (pool, before) else (pool.setU16 type (before + count), before + count)

def counterDecNonAtomicU16 (count : UInt16) (type : CreditStatU16) : PoolCounters × UInt16 :=
  let before := pool.statsU16 type
  if before < count then (pool.setU16 type 0, before) else (pool.setU16 type (before - count), count)

def counterDecNonAtomicU64 (counter : UInt64) (count : UInt16) : UInt64 × UInt16 :=
  if counter ≥ count.toUInt64 then (counter - count.toUInt64, count) else (0, counter.toUInt16)

/-! ## The window of a queue -/

/-- The body of `remote_rx_window_inc_atomic`: the value returned, and the one read. -/
def windowIncBody (newWin : UInt16) (before : UInt16) : Attempt UInt16 (UInt16 × UInt16) :=
  if exceedsU16 before newWin then .leave (before, before) else .store (before + newWin) (before + newWin, before)

def remoteRxWindowIncAtomic (weak : Nat → Nat) (fc : FcCounters) (newWin : UInt16) (isReturnRollback : Bool) :
    FcCounters × UInt16 :=
  let result := casLoop (windowIncBody newWin) (weak 0) fc.remoteRxWindow
  let stored := { fc with remoteRxWindow := result.1 }
  if isReturnRollback then (stored, result.2.1)
  else if result.2.1 = result.2.2 then
    ({ stored with totalRemoteRxReceivedError := fc.totalRemoteRxReceivedError + newWin.toUInt64 }, result.2.1)
  else ({ stored with totalRemoteRxReceived := fc.totalRemoteRxReceived + newWin.toUInt64 }, result.2.1)

variable (fc : FcCounters)

def remoteRxWindowIncNonAtomic (newWin : UInt16) (isReturnRollback : Bool) : FcCounters × UInt16 :=
  if exceedsU16 fc.remoteRxWindow newWin then
    (if isReturnRollback then fc
      else { fc with totalRemoteRxReceivedError := fc.totalRemoteRxReceivedError + newWin.toUInt64 },
      fc.remoteRxWindow)
  else if isReturnRollback then ({ fc with remoteRxWindow := fc.remoteRxWindow + newWin }, fc.remoteRxWindow + newWin)
  else
    ({ fc with
        totalRemoteRxReceived := fc.totalRemoteRxReceived + newWin.toUInt64
        remoteRxWindow := fc.remoteRxWindow + newWin },
      fc.remoteRxWindow + newWin)

def remoteRxWindowDecAtomic (weak : Nat → Nat) (fc : FcCounters) (requiredWin : UInt16) (isReturn : Bool) :
    FcCounters × UInt16 :=
  let result := casLoop (counterDecBody requiredWin) (weak 0) fc.remoteRxWindow
  let stored := { fc with remoteRxWindow := result.1 }
  if isReturn then (stored, result.2)
  else
    let controlled :=
      if result.2 < requiredWin then
        { stored with totalFlowControlledWr := stored.totalFlowControlledWr + (requiredWin - result.2).toUInt64 }
      else stored
    (if result.2 > 0 then
        { controlled with totalRemoteRxConsumed := controlled.totalRemoteRxConsumed + result.2.toUInt64 }
      else controlled, result.2)

def remoteRxWindowExchangeNonAtomic : FcCounters × UInt16 :=
  ({ fc with
      totalRemoteRxConsumed := fc.totalRemoteRxConsumed + fc.remoteRxWindow.toUInt64
      remoteRxWindow := 0 }, fc.remoteRxWindow)

def remoteRxWindowDecNonAtomic (requiredWin : UInt16) (isReturn : Bool) : FcCounters × UInt16 :=
  if isReturn then
    if fc.remoteRxWindow ≥ requiredWin then
      ({ fc with remoteRxWindow := fc.remoteRxWindow - requiredWin }, requiredWin)
    else ({ fc with remoteRxWindow := 0 }, fc.remoteRxWindow)
  else if fc.remoteRxWindow ≥ requiredWin then
    ({ fc with
        remoteRxWindow := fc.remoteRxWindow - requiredWin
        totalRemoteRxConsumed := fc.totalRemoteRxConsumed + requiredWin.toUInt64 }, requiredWin)
  else
    remoteRxWindowExchangeNonAtomic
      { fc with totalFlowControlledWr := fc.totalFlowControlledWr + (requiredWin - fc.remoteRxWindow).toUInt64 }

/-- An atomic load of the window reads what a plain one reads. -/
def remoteRxWindowLoadAtomic : UInt16 := fc.remoteRxWindow

def remoteRxWindowLoadNonAtomic : UInt16 := fc.remoteRxWindow

def localRxAllocatedIncAtomic (weak : Nat → Nat) (fc : FcCounters) (win : UInt16) : FcCounters × UInt64 :=
  let total := counterIncAtomicU64 (weak 0) fc.allocatedTotal win
  let success := counterIncAtomicU64 (weak 1) fc.allocatedSuccess win
  ({ fc with allocatedTotal := total.1, allocatedSuccess := success.1 }, success.2)

def localRxAllocatedIncNonAtomic (win : UInt16) : FcCounters × UInt64 :=
  ({ fc with
      allocatedSuccess := fc.allocatedSuccess + win.toUInt64
      allocatedTotal := fc.allocatedTotal + win.toUInt64 }, fc.allocatedSuccess + win.toUInt64)

def localRxAllocatedDecAtomic (weak : Nat → Nat) (fc : FcCounters) (win : UInt16) : FcCounters × UInt16 :=
  let result := counterDecAtomicU64 (weak 0) fc.allocatedSuccess win
  ({ fc with allocatedSuccess := result.1 }, result.2)

def localRxAllocatedDecNonAtomic (win : UInt16) : FcCounters × UInt16 :=
  let result := counterDecNonAtomicU64 fc.allocatedSuccess win
  ({ fc with allocatedSuccess := result.1 }, result.2)

def localRxAllocatedLoadAtomic : UInt64 := fc.allocatedSuccess

def localRxAllocatedLoadNonAtomic : UInt64 := fc.allocatedSuccess

/-- What `stats_query` reports of the credit of a queue; the table says what was consumed of it. -/
structure QueueCreditStats where
  queueIdle : UInt16
  queueBeAllocated : UInt64
  queueAcquired : UInt16
  totalQueueIdle : UInt64
  totalQueueBeAllocated : UInt64
  totalQueueAcquired : UInt64
  totalQueueAcquiredErr : UInt64
  totalQueuePostTxSuccess : UInt64
  totalQueuePostTxErr : UInt64
  packetStats : PacketStatsType → UInt64

/-- Both queries load the same fields; `load16` and `load64` are the kind of load. -/
def flowControlStatsQuery (load16 : UInt16 → UInt16) (load64 : UInt64 → UInt64) (fc : FcCounters)
    (rxConsumed : UInt64) : QueueCreditStats where
  queueIdle := load16 fc.localRxPosted
  queueBeAllocated := load64 fc.allocatedSuccess - load64 rxConsumed
  queueAcquired := load16 fc.remoteRxWindow
  totalQueueIdle := load64 fc.totalLocalRxPosted
  totalQueueBeAllocated := load64 fc.allocatedTotal
  totalQueueAcquired := load64 fc.totalRemoteRxReceived
  totalQueueAcquiredErr := load64 fc.totalRemoteRxReceivedError
  totalQueuePostTxSuccess := load64 fc.totalRemoteRxConsumed
  totalQueuePostTxErr := load64 fc.totalFlowControlledWr
  packetStats := fun type => load64 (fc.packetStats type)

/-- `packet_stats`, by an atomic or a plain addition. -/
def flowControlPacketStats (cnt : UInt32) (type : PacketStatsType) : FcCounters :=
  { fc with packetStats := update fc.packetStats type (fc.packetStats type + cnt.toUInt64) }

/-! ## The credit pool -/

def availableCreditIncAtomic (weak : Nat → Nat) (pool : PoolCounters) (count : UInt16) : PoolCounters × UInt16 :=
  let result := counterIncAtomicU16 (weak 0) pool count .idle
  (if result.2.2 = false then result.1.addU64 .errTotal count else result.1.addU64 .idleTotal count, result.2.1)

def availableCreditIncNonAtomic (count : UInt16) : PoolCounters × UInt16 :=
  let before := pool.statsU16 .idle
  let result := counterIncNonAtomicU16 pool count .idle
  (if result.2 = before then result.1.addU64 .errTotal count else result.1.addU64 .idleTotal count, result.2)

def availableCreditReturnAtomic (weak : Nat → Nat) (pool : PoolCounters) (count : UInt16) : PoolCounters × UInt16 :=
  if pool.isLimited then
    let lowered := (counterDecAtomicU16 (weak 0) pool count .allocated).1
    let raised := counterIncAtomicU16 (weak 1) lowered count .idle
    (raised.1, raised.2.1)
  else
    let result := counterDecAtomicU64 (weak 0) (pool.statsU64 .allocatedUnlimited) count
    (pool.setU64 .allocatedUnlimited result.1, result.2)

def availableCreditReturnNonAtomic (count : UInt16) : PoolCounters × UInt16 :=
  if pool.isLimited then
    counterIncNonAtomicU16 (counterDecNonAtomicU16 pool count .allocated).1 count .idle
  else
    let result := counterDecNonAtomicU64 (pool.statsU64 .allocatedUnlimited) count
    (pool.setU64 .allocatedUnlimited result.1, result.2)

def availableCreditDecAtomic (weak : Nat → Nat) (pool : PoolCounters) (count : UInt16) : PoolCounters × UInt16 :=
  if pool.isLimited then
    let lowered := counterDecAtomicU16 (weak 0) pool count .idle
    let raised := counterIncAtomicU16 (weak 1) lowered.1 lowered.2 .allocated
    (raised.1.addU64 .allocatedTotal lowered.2, lowered.2)
  else
    let result := counterIncAtomicU64 (weak 0) (pool.statsU64 .allocatedUnlimited) count
    ((pool.setU64 .allocatedUnlimited result.1).addU64 .allocatedTotal count, count)

def availableCreditDecNonAtomic (count : UInt16) : PoolCounters × UInt16 :=
  if pool.isLimited then
    let lowered := counterDecNonAtomicU16 pool count .idle
    let raised := counterIncNonAtomicU16 lowered.1 lowered.2 .allocated
    (raised.1.addU64 .allocatedTotal lowered.2, lowered.2)
  else
    ((pool.setU64 .allocatedUnlimited
      (pool.statsU64 .allocatedUnlimited + count.toUInt64)).addU64 .allocatedTotal count,
      count)

def allocatedCreditDecAtomic (weak : Nat → Nat) (pool : PoolCounters) (count : UInt16) : PoolCounters × UInt16 :=
  if pool.isLimited then counterDecAtomicU16 (weak 0) pool count .allocated
  else
    let result := counterDecAtomicU64 (weak 0) (pool.statsU64 .allocatedUnlimited) count
    (pool.setU64 .allocatedUnlimited result.1, result.2)

def allocatedCreditDecNonAtomic (count : UInt16) : PoolCounters × UInt16 :=
  if pool.isLimited then counterDecNonAtomicU16 pool count .allocated
  else
    let result := counterDecNonAtomicU64 (pool.statsU64 .allocatedUnlimited) count
    (pool.setU64 .allocatedUnlimited result.1, result.2)

/-! ## The tables -/

/-- `ub_flow_control_window_ops_t`. -/
structure WindowOps where
  remoteRxWindowInc : FcCounters → UInt16 → Bool → FcCounters × UInt16
  remoteRxWindowDec : FcCounters → UInt16 → Bool → FcCounters × UInt16
  remoteRxWindowLoad : FcCounters → UInt16
  localRxAllocatedInc : FcCounters → UInt16 → FcCounters × UInt64
  localRxAllocatedDec : FcCounters → UInt16 → FcCounters × UInt16
  localRxAllocatedLoad : FcCounters → UInt64
  statsQuery : FcCounters → UInt64 → QueueCreditStats
  packetStats : FcCounters → UInt32 → PacketStatsType → FcCounters

/-- `ub_credit_pool_ops_t`; the query copies the counters. -/
structure CreditPoolOps where
  availableCreditInc : PoolCounters → UInt16 → PoolCounters × UInt16
  availableCreditDec : PoolCounters → UInt16 → PoolCounters × UInt16
  availableCreditReturn : PoolCounters → UInt16 → PoolCounters × UInt16
  allocatedCreditDec : PoolCounters → UInt16 → PoolCounters × UInt16
  statsQuery : PoolCounters → PoolCounters

/-- The table `umq_ub_flow_control_init` picks. -/
def windowOps (weak : Nat → Nat) (useAtomicWindow : Bool) : WindowOps :=
  if useAtomicWindow then
    { remoteRxWindowInc := remoteRxWindowIncAtomic weak
      remoteRxWindowDec := remoteRxWindowDecAtomic weak
      remoteRxWindowLoad := remoteRxWindowLoadAtomic
      localRxAllocatedInc := localRxAllocatedIncAtomic weak
      localRxAllocatedDec := localRxAllocatedDecAtomic weak
      localRxAllocatedLoad := localRxAllocatedLoadAtomic
      statsQuery := flowControlStatsQuery id id
      packetStats := flowControlPacketStats }
  else
    { remoteRxWindowInc := remoteRxWindowIncNonAtomic
      remoteRxWindowDec := remoteRxWindowDecNonAtomic
      remoteRxWindowLoad := remoteRxWindowLoadNonAtomic
      localRxAllocatedInc := localRxAllocatedIncNonAtomic
      localRxAllocatedDec := localRxAllocatedDecNonAtomic
      localRxAllocatedLoad := localRxAllocatedLoadNonAtomic
      statsQuery := flowControlStatsQuery id id
      packetStats := flowControlPacketStats }

/-- The table `umq_ub_credit_pool_init` picks. -/
def creditPoolOps (weak : Nat → Nat) (useAtomicWindow : Bool) : CreditPoolOps :=
  if useAtomicWindow then
    { availableCreditInc := availableCreditIncAtomic weak
      availableCreditDec := availableCreditDecAtomic weak
      availableCreditReturn := availableCreditReturnAtomic weak
      allocatedCreditDec := allocatedCreditDecAtomic weak
      statsQuery := id }
  else
    { availableCreditInc := availableCreditIncNonAtomic
      availableCreditDec := availableCreditDecNonAtomic
      availableCreditReturn := availableCreditReturnNonAtomic
      allocatedCreditDec := allocatedCreditDecNonAtomic
      statsQuery := id }

/-! ## They do the same -/

variable {count before : UInt16} {weak : Nat} {pool} {type : CreditStatU16}
  {counter : UInt64}

/-- A decrement run alone takes what there is, up to the count. -/
theorem casLoop_counterDecBody :
    casLoop (counterDecBody count) weak before = if before < count then (0, before) else (before - count, count) := by
  rw [casLoop_alone, counterDecBody]
  by_cases empty : before = 0
  · subst empty
    by_cases less : (0 : UInt16) < count
    · simp [less]
    · obtain rfl : count = 0 := UInt16.le_antisymm (UInt16.not_lt.mp less) (UInt16.zero_le)
      simp
  · by_cases less : before < count
    · have notAbove : ¬ before > count := UInt16.not_lt.mpr (UInt16.le_of_lt less)
      simp [empty, less, notAbove]
    · by_cases above : before > count
      · simp [empty, less, above]
      · obtain rfl : before = count := UInt16.le_antisymm (UInt16.not_lt.mp above) (UInt16.not_lt.mp less)
        simp [empty]

theorem casLoop_counterDecBodyU64 {before : UInt64} :
    casLoop (counterDecBodyU64 count) weak before = counterDecNonAtomicU64 before count := by
  rw [casLoop_alone, counterDecBodyU64, counterDecNonAtomicU64]
  by_cases empty : before = 0
  · subst empty
    by_cases enough : (0 : UInt64) ≥ count.toUInt64
    · have nothing : count.toUInt64 = 0 := UInt64.le_antisymm enough UInt64.zero_le
      obtain rfl : count = 0 := by simpa using congrArg UInt64.toUInt16 nothing
      simp
    · simp [enough]
  · by_cases above : before > count.toUInt64
    · have enough : before ≥ count.toUInt64 := UInt64.le_of_lt above
      simp [empty, above, enough]
    · by_cases enough : before ≥ count.toUInt64
      · obtain rfl : before = count.toUInt64 := UInt64.le_antisymm (UInt64.not_lt.mp above) enough
        simp [empty]
      · simp [empty, above, enough]

@[simp] theorem PoolCounters.setU16_same :
    pool.setU16 type (pool.statsU16 type) = pool := by
  simp [PoolCounters.setU16]

theorem counterIncAtomicU16_eq :
    counterIncAtomicU16 weak pool count type =
      ((counterIncNonAtomicU16 pool count type).1, (counterIncNonAtomicU16 pool count type).2,
        !exceedsU16 (pool.statsU16 type) count) := by
  rw [counterIncAtomicU16, casLoop_alone, counterIncBody, counterIncNonAtomicU16]
  cases exceedsU16 (pool.statsU16 type) count <;> simp

theorem counterDecAtomicU16_eq :
    counterDecAtomicU16 weak pool count type = counterDecNonAtomicU16 pool count type := by
  rw [counterDecAtomicU16, casLoop_counterDecBody, counterDecNonAtomicU16]
  split_ifs <;> rfl

theorem counterDecAtomicU64_eq :
    counterDecAtomicU64 weak counter count = counterDecNonAtomicU64 counter count :=
  casLoop_counterDecBodyU64

theorem counterIncAtomicU64_eq :
    counterIncAtomicU64 weak counter count = (counter + count.toUInt64, counter + count.toUInt64) := by
  rw [counterIncAtomicU64, casLoop_alone]

variable (weak : Nat → Nat) (counters : PoolCounters)

theorem remoteRxWindowIncAtomic_eq : remoteRxWindowIncAtomic weak = remoteRxWindowIncNonAtomic := by
  funext fc newWin isReturnRollback
  rw [remoteRxWindowIncAtomic, casLoop_alone, windowIncBody, remoteRxWindowIncNonAtomic]
  cases exceeds : exceedsU16 fc.remoteRxWindow newWin with
  | true => cases isReturnRollback <;> simp
  | false =>
    by_cases nothing : newWin = 0
    · subst nothing
      cases isReturnRollback <;> simp
    · cases isReturnRollback <;> simp [nothing]

theorem remoteRxWindowDecAtomic_eq : remoteRxWindowDecAtomic weak = remoteRxWindowDecNonAtomic := by
  funext fc requiredWin isReturn
  rw [remoteRxWindowDecAtomic, casLoop_counterDecBody, remoteRxWindowDecNonAtomic, remoteRxWindowExchangeNonAtomic]
  by_cases short : fc.remoteRxWindow < requiredWin
  · cases isReturn with
    | true => simp [short]
    | false =>
      by_cases empty : fc.remoteRxWindow = 0
      · rw [empty] at short
        have some : requiredWin ≠ 0 := UInt16.pos_iff_ne_zero.mp short
        simp [empty, short, some]
      · have some : fc.remoteRxWindow > 0 := UInt16.pos_iff_ne_zero.mpr empty
        simp [short, some]
  · cases isReturn with
    | true => simp [short]
    | false =>
      by_cases empty : requiredWin = 0
      · subst empty
        simp
      · have some : requiredWin > 0 := UInt16.pos_iff_ne_zero.mpr empty
        simp [short, some]

theorem localRxAllocatedIncAtomic_eq : localRxAllocatedIncAtomic weak = localRxAllocatedIncNonAtomic := by
  funext fc win
  rw [localRxAllocatedIncAtomic, counterIncAtomicU64_eq, counterIncAtomicU64_eq, localRxAllocatedIncNonAtomic]

theorem localRxAllocatedDecAtomic_eq : localRxAllocatedDecAtomic weak = localRxAllocatedDecNonAtomic := by
  funext fc win
  rw [localRxAllocatedDecAtomic, counterDecAtomicU64_eq, localRxAllocatedDecNonAtomic]

theorem availableCreditIncAtomic_eq : availableCreditIncAtomic weak = availableCreditIncNonAtomic := by
  funext pool count
  rw [availableCreditIncAtomic, counterIncAtomicU16_eq, availableCreditIncNonAtomic, counterIncNonAtomicU16]
  cases exceeds : exceedsU16 (pool.statsU16 .idle) count with
  | true => simp
  | false =>
    by_cases nothing : count = 0
    · subst nothing
      -- adding nothing goes to one total here and to the other one there
      simp [PoolCounters.addU64, PoolCounters.setU64]
    · simp [nothing]

theorem availableCreditReturnAtomic_eq : availableCreditReturnAtomic weak = availableCreditReturnNonAtomic := by
  funext pool count
  simp only [availableCreditReturnAtomic, counterDecAtomicU16_eq, counterIncAtomicU16_eq, counterDecAtomicU64_eq,
    availableCreditReturnNonAtomic]

theorem availableCreditDecAtomic_eq : availableCreditDecAtomic weak = availableCreditDecNonAtomic := by
  funext pool count
  simp only [availableCreditDecAtomic, counterDecAtomicU16_eq, counterIncAtomicU16_eq, counterIncAtomicU64_eq,
    availableCreditDecNonAtomic]

theorem allocatedCreditDecAtomic_eq : allocatedCreditDecAtomic weak = allocatedCreditDecNonAtomic := by
  funext pool count
  rw [allocatedCreditDecAtomic, counterDecAtomicU16_eq, counterDecAtomicU64_eq, allocatedCreditDecNonAtomic]

/-- Run alone, every operation of the atomic tables gives the result, the counters and the totals of its plain
    counterpart, whatever the counters, the arguments and the failures of the weak exchanges. -/
theorem atomicOps_eq (weak : Nat → Nat) :
    windowOps weak true = windowOps weak false ∧ creditPoolOps weak true = creditPoolOps weak false := by
  constructor
  · simp only [windowOps, remoteRxWindowIncAtomic_eq, remoteRxWindowDecAtomic_eq, localRxAllocatedIncAtomic_eq,
      localRxAllocatedDecAtomic_eq]
    rfl
  · simp only [creditPoolOps, if_true, Bool.false_eq_true, if_false, availableCreditIncAtomic_eq,
      availableCreditDecAtomic_eq, availableCreditReturnAtomic_eq, allocatedCreditDecAtomic_eq]

/-! ## What the counter operations set -/

/-- An increment sets one counter, to what it was if it would exceed the word. -/
theorem counterIncNonAtomicU16_set (count : UInt16) (type : CreditStatU16) :
    ∃ value : UInt16, value.toNat = counterIncU16 (counters.statsU16 type).toNat count.toNat ∧
      (counterIncNonAtomicU16 counters count type).1 = counters.setU16 type value := by
  rw [counterIncNonAtomicU16, counterIncU16]
  by_cases exceeds : (counters.statsU16 type).toNat + count.toNat > uint16Max
  · exact ⟨counters.statsU16 type, by simp [exceeds], by simp [exceedsU16, exceeds]⟩
  · have small :
        (counters.statsU16 type).toNat + count.toNat < 65536 := by simpa [uint16Max, Nat.lt_succ_iff] using exceeds
    refine ⟨counters.statsU16 type + count, ?_, by simp [exceedsU16, exceeds]⟩
    simp [exceeds, Nat.mod_eq_of_lt small]

/-- A decrement takes what there is of one counter, up to the count. -/
theorem counterDecNonAtomicU16_set (count : UInt16) (type : CreditStatU16) :
    ∃ value : UInt16, value.toNat = (counters.statsU16 type).toNat - count.toNat ∧
      (counterDecNonAtomicU16 counters count type).1 = counters.setU16 type value ∧
      (counterDecNonAtomicU16 counters count type).2.toNat = min (counters.statsU16 type).toNat count.toNat := by
  rw [counterDecNonAtomicU16]
  by_cases less : counters.statsU16 type < count
  · have below : (counters.statsU16 type).toNat < count.toNat := UInt16.lt_iff_toNat_lt.mp less
    exact ⟨0, by simp [below.le], by simp [less], by simp [less, below.le]⟩
  · have above : count ≤ counters.statsU16 type := UInt16.not_lt.mp less
    refine ⟨counters.statsU16 type - count, UInt16.toNat_sub_of_le _ _ above, by simp [less], ?_⟩
    simp [less, UInt16.le_iff_toNat_le.mp above]

end UbsComm.FlowControl
