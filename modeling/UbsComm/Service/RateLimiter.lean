import UbsComm.Library.Run
import Mathlib.Logic.Function.Basic

/-! # The rate limiter of a channel, within one window

`FlowControl` reads `windowPassedByte` four times before it swaps it: twice to see whether
the request fits, once for the new value and once for the value it compares with.  Other
threads may take steps between any two of these. -/

namespace UbsComm.Service

open Library

/-- `AcquireQuota` takes its size as 32 bits. -/
def quotaSize (size : UInt64) : UInt64 := size.toUInt32.toUInt64

/-- The first test of `AcquireQuota`, on the value read for it. -/
def quotaOverflows (size passed : UInt64) : Bool := quotaSize size > 0xFFFFFFFFFFFFFFFF - passed

/-- The second test of `AcquireQuota`, on the value read for it. -/
def quotaFits (thresholdByte size passed : UInt64) : Bool := passed + quotaSize size ≤ thresholdByte

/-- A call of `FlowControl` before its next access, with the size asked for and the values it
has read in this round of the loop.  A call that has to wait takes no further part in the
window. -/
inductive Call where
  | idle
  | testOverflow (size : UInt64)
  | testQuota (size overflow : UInt64)
  | readNew (size overflow quota : UInt64)
  | readOld (size overflow quota base : UInt64)
  | swap (size overflow quota base oldByte : UInt64)
  | waiting
  deriving DecidableEq

/-- A swap that finds the value it compares with. -/
def Call.Undisturbed (passed : UInt64) : Call → Prop
  | .swap size overflow quota base oldByte =>
    passed = oldByte → size.toNat < 2 ^ 32 ∧ overflow = oldByte ∧ quota = oldByte ∧ base = oldByte
  | _ => True

instance (passed : UInt64) (call : Call) : Decidable (call.Undisturbed passed) := by
  cases call <;> dsimp only [Call.Undisturbed] <;> infer_instance

/-- `admitted` is the sum of the sizes that were let through in this window. -/
structure Window where
  windowPassedByte : UInt64
  calls : Nat → Call
  admitted : Nat

inductive WindowAction where
  | call (thread : Nat) (size : UInt64)
  | advance (thread : Nat)

namespace Window

def initial : Window := ⟨0, fun _ => .idle, 0⟩

def setCall (window : Window) (thread : Nat) (call : Call) : Window :=
  { window with calls := Function.update window.calls thread call }

/-- One access to `windowPassedByte`. -/
def advance (thresholdByte : UInt64) (window : Window) (thread : Nat) : Window :=
  let passed := window.windowPassedByte
  match window.calls thread with
  | .idle | .waiting => window
  | .testOverflow size =>
    window.setCall thread (if quotaOverflows size passed then .waiting else .testQuota size passed)
  | .testQuota size overflow =>
    window.setCall thread (if quotaFits thresholdByte size passed then .readNew size overflow passed else .waiting)
  | .readNew size overflow quota => window.setCall thread (.readOld size overflow quota passed)
  | .readOld size overflow quota base => window.setCall thread (.swap size overflow quota base passed)
  | .swap size _ _ base oldByte =>
    if passed = oldByte then
      { windowPassedByte := base + size
        calls := Function.update window.calls thread .idle
        admitted := window.admitted + size.toNat }
    else window.setCall thread (.testOverflow size)

def step (thresholdByte : UInt64) (window : Window) : WindowAction → Window
  | .call thread size => if window.calls thread = .idle then window.setCall thread (.testOverflow size) else window
  | .advance thread => window.advance thresholdByte thread

/-- A call whose swap succeeds has read one value all along, and its size has 32 bits.  The
other accesses are not restricted. -/
def Undisturbed (window : Window) : WindowAction → Prop
  | .call _ _ => True
  | .advance thread => (window.calls thread).Undisturbed window.windowPassedByte

instance (window : Window) (action) : Decidable (window.Undisturbed action) := by
  cases action <;> dsimp only [Undisturbed] <;> infer_instance

/-! ## Undisturbed swaps -/

variable {thresholdByte : UInt64} {window : Window}

/-- The values a call carries have passed the tests they were read for. -/
def Tested (thresholdByte : UInt64) : Call → Prop
  | .testQuota size overflow => quotaOverflows size overflow = false
  | .readNew size overflow quota | .readOld size overflow quota _ | .swap size overflow quota _ _ =>
    quotaOverflows size overflow = false ∧ quotaFits thresholdByte size quota = true
  | _ => True

structure Counted (thresholdByte : UInt64) (window : Window) : Prop where
  exactly : window.admitted = window.windowPassedByte.toNat
  below : window.windowPassedByte.toNat ≤ thresholdByte.toNat
  tested : ∀ thread, Tested thresholdByte (window.calls thread)

theorem Counted.setCall (counted : Counted thresholdByte window) {thread : Nat} {call : Call}
    (tested : Tested thresholdByte call) : Counted thresholdByte (window.setCall thread call) := by
  refine ⟨counted.exactly, counted.below, fun other => ?_⟩
  by_cases same : other = thread
  · rw [same]
    simpa [Window.setCall] using tested
  · simpa [Window.setCall, same] using counted.tested other

/-- A size that passes both tests on one value can be added to it. -/
theorem quota_add {size passed : UInt64} (small : size.toNat < 2 ^ 32) (roomy : quotaOverflows size passed = false)
    (fits : quotaFits thresholdByte size passed = true) :
    (passed + size).toNat = passed.toNat + size.toNat ∧ passed.toNat + size.toNat ≤ thresholdByte.toNat := by
  have same : quotaSize size = size := by
    apply UInt64.toNat_inj.mp
    simp only [quotaSize, UInt32.toNat_toUInt64, UInt64.toNat_toUInt32]
    omega
  simp only [quotaOverflows, quotaFits, same, decide_eq_false_iff_not, decide_eq_true_eq, UInt64.le_iff_toNat_le,
    UInt64.lt_iff_toNat_lt, UInt64.toNat_add] at roomy fits ⊢
  have top : (0xFFFFFFFFFFFFFFFF - passed : UInt64).toNat = 2 ^ 64 - 1 - passed.toNat := by
    rw [UInt64.toNat_sub_of_le]
    · rfl
    · exact UInt64.le_iff_toNat_le.mpr (Nat.le_pred_of_lt passed.toNat_lt)
  have := passed.toNat_lt
  omega

theorem Counted.advance (counted : Counted thresholdByte window) {thread : Nat}
    (undisturbed : Undisturbed window (.advance thread)) :
    Counted thresholdByte (window.advance thresholdByte thread) := by
  have tested := counted.tested thread
  simp only [Undisturbed] at undisturbed
  simp only [Window.advance]
  cases phase : window.calls thread with
  | idle => exact counted
  | waiting => exact counted
  | testOverflow size =>
    apply counted.setCall
    split_ifs with overflows
    · trivial
    · exact Bool.eq_false_iff.mpr overflows
  | testQuota size overflow =>
    rw [phase] at tested
    apply counted.setCall
    split_ifs with fits
    · exact ⟨tested, fits⟩
    · trivial
  | readNew | readOld =>
    rw [phase] at tested
    exact counted.setCall tested
  | swap size overflow quota base oldByte =>
    rw [phase] at tested undisturbed
    simp only
    split_ifs with same
    · obtain ⟨small, rfl, rfl, rfl⟩ := undisturbed same
      obtain ⟨sum, below⟩ := quota_add small tested.1 tested.2
      refine ⟨?_, ?_, fun other => ?_⟩
      · rw [sum, counted.exactly, same]
      · rw [sum]
        exact below
      · by_cases self : other = thread
        · simp [self, Tested]
        · simpa [self] using counted.tested other
    · exact counted.setCall trivial

theorem Counted.step (counted : Counted thresholdByte window) {action : WindowAction}
    (undisturbed : Undisturbed window action) : Counted thresholdByte (window.step thresholdByte action) := by
  cases action with
  | call thread size =>
    simp only [Window.step]
    split_ifs
    · exact counted.setCall trivial
    · exact counted
  | advance thread => exact counted.advance undisturbed

/-- In every interleaving whose swaps are undisturbed no more than the threshold is admitted. -/
theorem admitted_le_thresholdByte (run : Run (step thresholdByte) Undisturbed initial window) :
    window.admitted ≤ thresholdByte.toNat := by
  have counted : Counted thresholdByte window := by
    refine run.invariant ⟨rfl, Nat.zero_le _, fun _ => trivial⟩ fun _ _ counted undisturbed => counted.step undisturbed
  rw [counted.exactly]
  exact counted.below

def advances (thread accesses : Nat) : List WindowAction := List.replicate accesses (.advance thread)

/-- A call and its first accesses; five are a whole call. -/
def begins (thread : Nat) (size : UInt64) (accesses : Nat) : List WindowAction :=
  .call thread size :: advances thread accesses

theorem admitted_le_thresholdByte_sample :
    ((begins 0 60 5 ++ begins 1 40 5).foldl (step 100) initial).admitted = 100 ∧
      ((begins 0 60 5 ++ begins 1 40 5).foldl (step 100) initial).admitted ≤ (100 : UInt64).toNat := by
  constructor
  · decide
  · exact admitted_le_thresholdByte (Run.ofList (by decide))

/-- Three ways past a threshold of 100 bytes: another call passes between the tests and the
swap; another call passes between the reads of the new and the old value, and its bytes are
forgotten; and a size whose lower 32 bits are small. -/
theorem admitted_above_thresholdByte :
    ¬ ((begins 0 60 2 ++ begins 1 60 5 ++ advances 0 3).foldl (step 100) initial).admitted ≤ 100 ∧
      ¬ ((begins 0 60 3 ++ begins 1 40 5 ++ advances 0 2 ++ begins 1 40 5).foldl (step 100) initial).admitted ≤ 100 ∧
      ¬ ((begins 0 0x100000001 5).foldl (step 100) initial).admitted ≤ 100 := by
  decide

end Window

end UbsComm.Service
