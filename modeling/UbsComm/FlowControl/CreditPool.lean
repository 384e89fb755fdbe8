import UbsComm.FlowControl.Atomic
import UbsComm.Library.Run

/-! # Idle, allocated and posted

In limited mode a receive entry that was posted is idle until a peer gets the credit for it, and allocated from
then until a message consumes it.  The calls keep the two counters as 16-bit words that stop at their limits;
`CreditLedger` puts beside them the entries that are posted and what the counters would be without limits. -/

namespace UbsComm.FlowControl

open Library Ub Function

/-! ## The calls -/

/-- The calls that reach the counters of a pool.  A refill is what `umq_ub_shared_credit_recharge` is told of, and a
    clean-up what it finds of its queue. -/
inductive PoolCall where
  | refill (count : UInt16)
  | allocate (count : UInt16)
  | giveBack (count : UInt16)
  | consume (count : UInt16)
  | flush (count : UInt32)
  | cleanUp (localRxPosted : UInt16) (allocatedCredit consumedCredit : UInt64)

/-- `counter_dec_atomic_u16` or `counter_dec_non_atomic_u16`, as `umq_ub_idle_credit_flush` chooses. -/
def umqUbIdleFlush (weak : Nat → Nat) (useAtomicWindow : Bool) (counters : PoolCounters) (count : UInt16) :
    PoolCounters :=
  if useAtomicWindow then (counterDecAtomicU16 (weak 0) counters count .idle).1
  else (counterDecNonAtomicU16 counters count .idle).1

/-- What is returned by a clean-up, which narrows the sum; nothing when the difference of the words is too large. -/
def cleanUpCredit (localRxPosted : UInt16) (allocatedCredit consumedCredit : UInt64) : Option UInt16 :=
  let unconsumed := allocatedCredit - consumedCredit
  if unconsumed.toNat > uint16Max then none else some (localRxPosted.toUInt64 + unconsumed).toUInt16

def PoolCounters.call (weak : Nat → Nat) (useAtomicWindow : Bool) (counters : PoolCounters) : PoolCall → PoolCounters
  | .refill count => ((creditPoolOps weak useAtomicWindow).availableCreditInc counters count).1
  | .allocate count => ((creditPoolOps weak useAtomicWindow).availableCreditDec counters count).1
  | .giveBack count => ((creditPoolOps weak useAtomicWindow).availableCreditReturn counters count).1
  | .consume count => ((creditPoolOps weak useAtomicWindow).allocatedCreditDec counters count).1
  | .flush count => umqUbIdleFlush weak useAtomicWindow counters count.toUInt16
  | .cleanUp localRxPosted allocatedCredit consumedCredit =>
    match cleanUpCredit localRxPosted allocatedCredit consumedCredit with
    | some credit => ((creditPoolOps weak useAtomicWindow).availableCreditReturn counters credit).1
    | none => counters

/-! ## The ledger -/

/-- The counters of a pool in limited mode, the receive entries posted and not yet consumed, and the counters as
    they would be without limits. -/
structure CreditLedger where
  counters : PoolCounters
  posted : Nat
  idle : Int
  allocated : Int
  idleTotal : Nat
  allocatedTotal : Nat

namespace CreditLedger

variable (ledger : CreditLedger)

/-- No more entries are consumed or flushed than are posted. -/
def Possible : PoolCall → Prop
  | .consume count => count.toNat ≤ ledger.posted
  | .flush count => count.toNat ≤ ledger.posted
  | _ => True

instance (call) : Decidable (ledger.Possible call) := by
  cases call <;> dsimp only [Possible] <;> infer_instance

def taken (count : UInt16) : Nat := min (ledger.counters.statsU16 .idle).toNat count.toNat

/-- The books of a call, in whole numbers. -/
def book : PoolCall → CreditLedger
  | .refill count =>
    { ledger with
      posted := ledger.posted + count.toNat
      idle := ledger.idle + count.toNat
      idleTotal := ledger.idleTotal + count.toNat }
  | .allocate count =>
    { ledger with
      idle := ledger.idle - ledger.taken count
      allocated := ledger.allocated + ledger.taken count
      allocatedTotal := ledger.allocatedTotal + ledger.taken count }
  | .giveBack count => { ledger with idle := ledger.idle + count.toNat, allocated := ledger.allocated - count.toNat }
  | .consume count => { ledger with posted := ledger.posted - count.toNat, allocated := ledger.allocated - count.toNat }
  | .flush count => { ledger with posted := ledger.posted - count.toNat, idle := ledger.idle - count.toNat }
  | .cleanUp localRxPosted allocatedCredit consumedCredit =>
    match cleanUpCredit localRxPosted allocatedCredit consumedCredit with
    | some _ =>
      let credit : Int := localRxPosted.toNat + (allocatedCredit.toNat - consumedCredit.toNat : Int)
      { ledger with idle := ledger.idle + credit, allocated := ledger.allocated - credit }
    | none => ledger

/-- A call of a pool whose entries are still there; others do not happen. -/
def step (weak : Nat → Nat) (useAtomicWindow : Bool) (ledger : CreditLedger) (call : PoolCall) : CreditLedger :=
  if ledger.Possible call then
    { ledger.book call with counters := ledger.counters.call weak useAtomicWindow call }
  else ledger

/-- The two counters add up to the entries posted, and no counter has met its limits. -/
structure Right : Prop where
  limited : ledger.counters.isLimited = true
  sum : (ledger.counters.statsU16 .idle).toNat + (ledger.counters.statsU16 .allocated).toNat = ledger.posted
  idle : ((ledger.counters.statsU16 .idle).toNat : Int) = ledger.idle
  allocated : ((ledger.counters.statsU16 .allocated).toNat : Int) = ledger.allocated
  idleTotal : (ledger.counters.statsU64 .idleTotal).toNat = ledger.idleTotal
  allocatedTotal : (ledger.counters.statsU64 .allocatedTotal).toNat = ledger.allocatedTotal

/-! ## When the calls keep the sum -/

/-- As much is allocated as is given back, and the idle counter has room for it. -/
def CarefulReturn (credit : Nat) : Prop :=
  credit ≤ (ledger.counters.statsU16 .allocated).toNat ∧ (ledger.counters.statsU16 .idle).toNat + credit ≤ uint16Max

instance (credit : Nat) : Decidable (ledger.CarefulReturn credit) :=
  inferInstanceAs (Decidable (_ ∧ _))

/-- The counters have room, only allocated credit is given back or consumed, and only idle credit is flushed. -/
def Careful : PoolCall → Prop
  | .refill count =>
    (ledger.counters.statsU16 .idle).toNat + count.toNat ≤ uint16Max ∧
      (ledger.counters.statsU64 .idleTotal).toNat + count.toNat < 2 ^ 64
  | .allocate count =>
    (ledger.counters.statsU16 .allocated).toNat + ledger.taken count ≤ uint16Max ∧
      (ledger.counters.statsU64 .allocatedTotal).toNat + ledger.taken count < 2 ^ 64
  | .giveBack count => ledger.CarefulReturn count.toNat
  | .consume count => count.toNat ≤ ledger.posted → count.toNat ≤ (ledger.counters.statsU16 .allocated).toNat
  | .flush count => count.toNat ≤ ledger.posted → count.toNat ≤ (ledger.counters.statsU16 .idle).toNat
  | .cleanUp localRxPosted allocatedCredit consumedCredit =>
    (allocatedCredit - consumedCredit).toNat ≤ uint16Max →
      consumedCredit ≤ allocatedCredit ∧
        ledger.CarefulReturn (localRxPosted.toNat + (allocatedCredit.toNat - consumedCredit.toNat))

instance (call) : Decidable (ledger.Careful call) := by
  cases call <;> dsimp only [Careful] <;> infer_instance

end CreditLedger

/-! ## The counters as numbers -/

structure PoolNumbers where
  u16 : CreditStatU16 → Nat
  u64 : CreditStatU64 → Nat

def PoolCounters.numbers (counters : PoolCounters) : PoolNumbers :=
  ⟨fun type => (counters.statsU16 type).toNat, fun type => (counters.statsU64 type).toNat⟩

namespace PoolCounters

variable (counters : PoolCounters)

theorem numbers_u16_le (type : CreditStatU16) : counters.numbers.u16 type ≤ uint16Max :=
  Nat.le_of_lt_succ (counters.statsU16 type).toNat_lt

/-- Which table the pool has does not matter to a call run alone. -/
theorem call_eq {weak : Nat → Nat} {useAtomicWindow : Bool} {call : PoolCall} :
    counters.call weak useAtomicWindow call = counters.call weak false call := by
  cases useAtomicWindow with
  | false => rfl
  | true =>
    cases call with
    | refill count => simp [PoolCounters.call, creditPoolOps, availableCreditIncAtomic_eq]
    | allocate count => simp [PoolCounters.call, creditPoolOps, availableCreditDecAtomic_eq]
    | giveBack | cleanUp => simp [PoolCounters.call, creditPoolOps, availableCreditReturnAtomic_eq]
    | consume count => simp [PoolCounters.call, creditPoolOps, allocatedCreditDecAtomic_eq]
    | flush count => simp [PoolCounters.call, umqUbIdleFlush, counterDecAtomicU16_eq]

/-- What the ledger reads of a pool in limited mode. -/
structure Reads (counters : PoolCounters) (u16 : CreditStatU16 → Nat) (idleTotal allocatedTotal : Nat) : Prop where
  limited : counters.isLimited = true
  u16 : counters.numbers.u16 = u16
  idleTotal : counters.numbers.u64 .idleTotal = idleTotal
  allocatedTotal : counters.numbers.u64 .allocatedTotal = allocatedTotal

variable {counters} {u16 : CreditStatU16 → Nat} {idleTotal allocatedTotal : Nat}

variable (reads : counters.Reads u16 idleTotal allocatedTotal)
include reads

theorem Reads.setU16 {type : CreditStatU16} {value : UInt16} :
    (counters.setU16 type value).Reads (update counters.numbers.u16 type value.toNat) idleTotal allocatedTotal := by
  obtain ⟨limited, rfl, rfl, rfl⟩ := reads
  refine ⟨limited, ?_, rfl, rfl⟩
  funext other
  by_cases same : other = type <;> simp [numbers, PoolCounters.setU16, same]

variable (count : UInt16)
include count

theorem Reads.inc (type : CreditStatU16) :
    (counterIncNonAtomicU16 counters count type).1.Reads
      (update u16 type (counterIncU16 (u16 type) count.toNat)) idleTotal allocatedTotal := by
  obtain ⟨value, raised, set⟩ := counterIncNonAtomicU16_set counters count type
  rw [set, ← reads.u16, numbers, ← raised]
  exact reads.setU16

theorem Reads.dec (type : CreditStatU16) :
    (counterDecNonAtomicU16 counters count type).1.Reads (update u16 type (u16 type - count.toNat)) idleTotal
      allocatedTotal := by
  obtain ⟨value, lowered, set, -⟩ := counterDecNonAtomicU16_set counters count type
  rw [set, ← reads.u16, numbers, ← lowered]
  exact reads.setU16

theorem Reads.addU64 (type : CreditStatU64) :
    (counters.addU64 type count).Reads u16
      (if type = .idleTotal then (idleTotal + count.toNat) % 2 ^ 64 else idleTotal)
      (if type = .allocatedTotal then (allocatedTotal + count.toNat) % 2 ^ 64 else allocatedTotal) := by
  obtain ⟨limited, rfl, rfl, rfl⟩ := reads
  refine ⟨limited, rfl, ?_, ?_⟩ <;> cases type <;> simp [numbers, PoolCounters.addU64, setU64]

/-- Only a refill that the idle counter takes is counted in the total. -/
theorem Reads.refill :
    (availableCreditIncNonAtomic counters count).1.Reads
      (update u16 .idle (counterIncU16 (u16 .idle) count.toNat))
      (if u16 .idle + count.toNat > uint16Max then idleTotal else (idleTotal + count.toNat) % 2 ^ 64)
      allocatedTotal := by
  have raised := reads.inc count .idle
  have exceeds : exceedsU16 (counters.statsU16 .idle) count = decide (u16 .idle + count.toNat > uint16Max) := by
    rw [← reads.u16]
    rfl
  have result : (counterIncNonAtomicU16 counters count .idle).2 =
      if exceedsU16 (counters.statsU16 .idle) count then counters.statsU16 .idle
      else counters.statsU16 .idle + count := by
    rw [counterIncNonAtomicU16]
    split_ifs <;> rfl
  rw [availableCreditIncNonAtomic]
  rw [result, exceeds]
  by_cases exceeds : u16 .idle + count.toNat > uint16Max
  · simpa [exceeds] using raised.addU64 count .errTotal
  · simp only [exceeds, decide_false, Bool.false_eq_true, if_false]
    by_cases nothing : count = 0
    · subst nothing
      have small : idleTotal < 18446744073709551616 := reads.idleTotal ▸ (counters.statsU64 .idleTotal).toNat_lt
      simpa [Nat.mod_eq_of_lt small] using raised.addU64 0 .errTotal
    · rw [if_neg (mt add_eq_left.mp nothing)]
      exact raised.addU64 count .idleTotal

theorem Reads.giveBack :
    (availableCreditReturnNonAtomic counters count).1.Reads
      (update (update u16 .allocated (u16 .allocated - count.toNat)) .idle
        (counterIncU16 (u16 .idle) count.toNat)) idleTotal allocatedTotal := by
  rw [availableCreditReturnNonAtomic, if_pos reads.limited]
  exact (reads.dec count .allocated).inc count .idle

theorem Reads.consume :
    (allocatedCreditDecNonAtomic counters count).1.Reads (update u16 .allocated (u16 .allocated - count.toNat))
      idleTotal allocatedTotal := by
  rw [allocatedCreditDecNonAtomic, if_pos reads.limited]
  exact reads.dec count .allocated

theorem Reads.allocate :
    (availableCreditDecNonAtomic counters count).1.Reads
      (update (update u16 .idle (u16 .idle - count.toNat)) .allocated
        (counterIncU16 (u16 .allocated) (min (u16 .idle) count.toNat)))
      idleTotal ((allocatedTotal + min (u16 .idle) count.toNat) % 2 ^ 64) := by
  have taken : (counterDecNonAtomicU16 counters count .idle).2.toNat = min (u16 .idle) count.toNat := by
    rw [← reads.u16]
    exact (counterDecNonAtomicU16_set counters count .idle).choose_spec.2.2
  have raised := (reads.dec count .idle).inc (counterDecNonAtomicU16 counters count .idle).2 .allocated
  rw [availableCreditDecNonAtomic, if_pos reads.limited]
  simpa [taken] using raised.addU64 (counterDecNonAtomicU16 counters count .idle).2 .allocatedTotal

end PoolCounters

/-! ## Steps and runs -/

namespace CreditLedger

variable {ledger : CreditLedger} {weak : Nat → Nat} {useAtomicWindow : Bool}

theorem right_iff {u16 : CreditStatU16 → Nat} {idleTotal allocatedTotal : Nat}
    (reads : ledger.counters.Reads u16 idleTotal allocatedTotal) :
    ledger.Right ↔ u16 .idle + u16 .allocated = ledger.posted ∧ (u16 .idle : Int) = ledger.idle ∧
      (u16 .allocated : Int) = ledger.allocated ∧ idleTotal = ledger.idleTotal ∧
      allocatedTotal = ledger.allocatedTotal := by
  obtain ⟨limited, rfl, rfl, rfl⟩ := reads
  constructor
  · intro right
    exact ⟨right.sum, right.idle, right.allocated, right.idleTotal, right.allocatedTotal⟩
  · rintro ⟨sum, idle, allocated, idleTotal, allocatedTotal⟩
    exact ⟨limited, sum, idle, allocated, idleTotal, allocatedTotal⟩

section

variable (right : ledger.Right)
include right

theorem Right.reads : ledger.counters.Reads ledger.counters.numbers.u16 ledger.idleTotal ledger.allocatedTotal :=
  ⟨right.limited, rfl, right.idleTotal, right.allocatedTotal⟩

/-- Giving back keeps the sum exactly if that much is allocated and the idle counter has room. -/
theorem Right.giveBack_iff {count : UInt16} {credit : Int} (whole : credit = count.toNat) :
    Right { ledger with
      counters := (availableCreditReturnNonAtomic ledger.counters count).1
      idle := ledger.idle + credit
      allocated := ledger.allocated - credit } ↔ ledger.CarefulReturn count.toNat := by
  have reads := right.reads.giveBack count
  have idleBound := ledger.counters.numbers_u16_le .idle
  obtain ⟨sum, idle, allocated, -⟩ := (right_iff right.reads).mp right
  rw [right_iff reads]
  show _ ↔ count.toNat ≤ ledger.counters.numbers.u16 .allocated ∧
    ledger.counters.numbers.u16 .idle + count.toNat ≤ uint16Max
  simp [counterIncU16]
  split_ifs <;> omega

/-- The sum that a clean-up returns is narrowed, and its difference of words may have gone around. -/
theorem Right.cleanUp_iff {localRxPosted : UInt16} {allocatedCredit consumedCredit : UInt64} :
    (ledger.step weak false (.cleanUp localRxPosted allocatedCredit consumedCredit)).Right ↔
      ledger.Careful (.cleanUp localRxPosted allocatedCredit consumedCredit) := by
  have difference := UInt64.toNat_sub allocatedCredit consumedCredit
  have allocatedSmall := allocatedCredit.toNat_lt
  have postedSmall := localRxPosted.toNat_lt
  rw [step, if_pos (show ledger.Possible (.cleanUp localRxPosted allocatedCredit consumedCredit) from trivial)]
  simp only [book, PoolCounters.call, Careful]
  by_cases large : (allocatedCredit - consumedCredit).toNat > uint16Max
  · simp only [cleanUpCredit, large, Nat.not_le.mpr large, false_implies, iff_true]
    exact right
  simp only [cleanUpCredit, large, if_false, Nat.le_of_not_gt large, forall_const, UInt64.le_iff_toNat_le]
  have narrowed : (localRxPosted.toUInt64 + (allocatedCredit - consumedCredit)).toUInt16.toNat =
      (localRxPosted.toNat + (allocatedCredit - consumedCredit).toNat) % 2 ^ 16 := by
    rw [UInt64.toNat_toUInt16, UInt64.toNat_add, UInt16.toNat_toUInt64]
    omega
  by_cases enough : consumedCredit.toNat ≤ allocatedCredit.toNat
  · have unconsumed : (allocatedCredit - consumedCredit).toNat =
        allocatedCredit.toNat - consumedCredit.toNat := by omega
    by_cases fits : localRxPosted.toNat + (allocatedCredit.toNat - consumedCredit.toNat) < 2 ^ 16
    · have exact_ : (localRxPosted.toUInt64 + (allocatedCredit - consumedCredit)).toUInt16.toNat =
          localRxPosted.toNat + (allocatedCredit.toNat - consumedCredit.toNat) := by
        rw [narrowed, unconsumed, Nat.mod_eq_of_lt fits]
      rw [← exact_]
      simp only [enough, true_and]
      exact right.giveBack_iff (by omega)
    · -- more than the word holds cannot be allocated
      have allocatedBound := ledger.counters.numbers_u16_le .allocated
      constructor
      · intro after
        have negative := after.allocated
        have before := right.allocated
        simp only [PoolCounters.numbers, uint16Max] at allocatedBound
        dsimp only at negative
        omega
      · rintro ⟨-, returned, -⟩
        simp only [PoolCounters.numbers, uint16Max] at allocatedBound
        omega
  · constructor
    · intro after
      have negative := after.allocated
      have before := right.allocated
      have bound := (((creditPoolOps weak false).availableCreditReturn ledger.counters
        (localRxPosted.toUInt64 + (allocatedCredit - consumedCredit)).toUInt16).1.statsU16 .allocated).toNat_lt
      simp only [uint16Max] at large
      dsimp only at negative
      omega
    · rintro ⟨less, -⟩
      exact absurd less enough

/-- A call keeps the sum, and meets no limit, exactly if it is careful. -/
theorem Right.step_iff {call : PoolCall} : (ledger.step weak useAtomicWindow call).Right ↔ ledger.Careful call := by
  have table : ledger.step weak useAtomicWindow call = ledger.step weak false call := by
    rw [step, step, PoolCounters.call_eq]
  rw [table]
  have idleBound := ledger.counters.numbers_u16_le .idle
  have allocatedBound := ledger.counters.numbers_u16_le .allocated
  obtain ⟨sum, idle, allocated, -⟩ := (right_iff right.reads).mp right
  cases call with
  | refill count =>
    rw [step, if_pos (show ledger.Possible (.refill count) from trivial),
      right_iff (show PoolCounters.Reads _ _ _ _ from right.reads.refill count)]
    show _ ↔ ledger.counters.numbers.u16 .idle + count.toNat ≤ uint16Max ∧
      (ledger.counters.statsU64 .idleTotal).toNat + count.toNat < 2 ^ 64
    rw [right.idleTotal]
    simp [counterIncU16, book]
    split_ifs <;> omega
  | allocate count =>
    rw [step, if_pos (show ledger.Possible (.allocate count) from trivial),
      right_iff (show PoolCounters.Reads _ _ _ _ from right.reads.allocate count)]
    show _ ↔ ledger.counters.numbers.u16 .allocated + ledger.taken count ≤ uint16Max ∧
      (ledger.counters.statsU64 .allocatedTotal).toNat + ledger.taken count < 2 ^ 64
    have taken : ledger.taken count = min (ledger.counters.numbers.u16 .idle) count.toNat := rfl
    rw [right.allocatedTotal]
    simp only [book]
    simp [counterIncU16]
    split_ifs <;> omega
  | giveBack count =>
    exact right.giveBack_iff rfl
  | consume count =>
    rw [step]
    split_ifs with possible
    · rw [right_iff (show PoolCounters.Reads _ _ _ _ from right.reads.consume count)]
      show _ ↔ (count.toNat ≤ ledger.posted → count.toNat ≤ ledger.counters.numbers.u16 .allocated)
      have there : count.toNat ≤ ledger.posted := possible
      simp [book]
      omega
    · exact iff_of_true right fun there => absurd there possible
  | flush count =>
    rw [step]
    split_ifs with possible
    · rw [right_iff (show PoolCounters.Reads _ _ _ _ from right.reads.dec count.toUInt16 .idle)]
      show _ ↔ (count.toNat ≤ ledger.posted → count.toNat ≤ ledger.counters.numbers.u16 .idle)
      have there : count.toNat ≤ ledger.posted := possible
      simp [book]
      simp only [uint16Max] at *
      omega
    · exact iff_of_true right fun there => absurd there possible
  | cleanUp localRxPosted allocatedCredit consumedCredit =>
    exact right.cleanUp_iff

end

/-- Idle and allocated credit are the entries posted and not yet consumed, and no counter meets its limits, in every
    run of careful calls; and a call that is not careful breaks one of the two. -/
theorem right_of_careful_pool_calls {start finish : CreditLedger} (begins : start.Right) :
    (Run (step weak useAtomicWindow) Careful start finish → finish.Right) ∧
      (finish.Right → ∀ call, (finish.step weak useAtomicWindow call).Right ↔ finish.Careful call) := by
  constructor
  · intro run
    exact run.invariant begins fun _ call right careful => right.step_iff.mpr careful
  · intro right call
    exact right.step_iff

/-- A pool as `umq_ub_credit_pool_init` leaves it in limited mode. -/
def empty : CreditLedger := ⟨⟨true, fun _ => 0, fun _ => 0⟩, 0, 0, 0, 0, 0⟩

theorem empty_right : empty.Right := ⟨rfl, rfl, rfl, rfl, rfl, rfl⟩

/-- Ten entries are posted, four of them are handed out, one is consumed, two are given back and two flushed. -/
def modestCalls : List PoolCall :=
  [.refill 10, .allocate 4, .consume 1, .giveBack 2, .flush 2, .cleanUp 0 4 3]

theorem right_modestCalls :
    (modestCalls.foldl (step id true) empty).posted = 7 ∧ (modestCalls.foldl (step id true) empty).Right :=
  ⟨by decide +kernel,
    (right_of_careful_pool_calls empty_right).1 (Run.ofList (by decide +kernel))⟩

/-- When a queue is flushed, the entries that were handed out go too, but only idle credit is lowered. -/
def flushedCalls : List PoolCall := [.refill 10, .allocate 4, .flush 10]

theorem flushedCalls_not_right :
    empty.Right ∧ Run (step id true) (fun _ _ => True) empty (flushedCalls.foldl (step id true) empty) ∧
      ¬ (flushedCalls.foldl (step id true) empty).Right := by
  refine ⟨empty_right, Run.ofList (by decide +kernel), fun right => ?_⟩
  have sum := right.sum
  exact absurd sum (by decide +kernel)

end CreditLedger

end UbsComm.FlowControl
