import UbsComm.Library.Run
import UbsComm.Library.Spans
import Mathlib.Data.Nat.Find

/-! # Buckets of the shared-memory data channel

Writers look for a free bucket with one compare-and-swap after the other, and readers mark
the bucket behind an address as free.  The offset of a bucket is a product of 32 bits; the
index behind an address is a quotient of 64 bits. -/

namespace UbsComm.Shm

open Library Function

inductive BuckState where
  | free | occupied
  deriving DecidableEq

/-- What `ShmDataChannel` knows after `Initialize`; `shmAddress` is where this process has
mapped the file. -/
structure DataChannel where
  buckSize : UInt32
  buckCount : UInt16
  shmAddress : Nat

namespace DataChannel

def sizeofShmBuckMeta : Nat := 1

variable (channel : DataChannel)

def validateOptions : Bool := ¬ (channel.buckSize = 0 ∨ channel.buckCount = 0)

def buckBaseAddress : Nat := channel.shmAddress + sizeofShmBuckMeta * channel.buckCount.toNat

def buckEndAddress : Nat :=
  channel.buckBaseAddress + channel.buckSize.toNat * channel.buckCount.toNat

/-- `mOptions.buckSize * i`, a product of 32 bits. -/
def buckOffset (i : Nat) : Nat := channel.buckSize.toNat * i % 2 ^ 32

def buckAddress (i : Nat) : Nat := channel.buckOffset i + channel.buckBaseAddress

/-- The bucket that `MarkFree` looks up, if it takes the address. -/
def indexOf (address : Nat) : Option Nat :=
  if address ≥ channel.buckEndAddress ∨ address < channel.buckBaseAddress then none
  else
    let tmpIndex := (address - channel.buckBaseAddress) / channel.buckSize.toNat
    if tmpIndex * channel.buckSize.toNat + channel.buckBaseAddress ≠ address then none else some tmpIndex

def markFree (states : Nat → BuckState) (address : Nat) : Nat → BuckState :=
  match channel.indexOf address with
  | none => states
  | some i => if states i = .occupied then update states i .free else states

end DataChannel

/-! ## Interleaved calls -/

/-- A writer between calls, or in `TryOccupyWithWait` before its compare-and-swap on bucket `i`. -/
inductive Writer where
  | idle
  | scanning (i : Nat)
  deriving DecidableEq

/-- `returned` lists what the occupy calls have returned so far: the bucket and its address. -/
structure Buckets where
  states : Nat → BuckState
  writers : Nat → Writer
  returned : List (Nat × Nat)

/-- The atomic steps.  After the last bucket a writer sleeps and scans again, or gives up. -/
inductive BuckAction where
  | call (writer : Nat)
  | tryOccupy (writer : Nat)
  | again (writer : Nat)
  | giveUp (writer : Nat)
  | markFree (address : Nat)

namespace Buckets

def initial : Buckets := ⟨fun _ => .free, fun _ => .idle, []⟩

def setWriter (buckets : Buckets) (writer : Nat) (phase : Writer) : Buckets :=
  { buckets with writers := update buckets.writers writer phase }

variable (channel : DataChannel)

/-- One `OccupyIfFree`. -/
def tryOccupy (buckets : Buckets) (writer : Nat) : Buckets :=
  match buckets.writers writer with
  | .idle => buckets
  | .scanning i =>
    if i ≥ channel.buckCount.toNat then buckets
    else if buckets.states i = .free then
      { states := update buckets.states i .occupied
        writers := update buckets.writers writer .idle
        returned := (i, channel.buckAddress i) :: buckets.returned }
    else buckets.setWriter writer (.scanning (i + 1))

def step (buckets : Buckets) : BuckAction → Buckets
  | .call writer => if buckets.writers writer = .idle then buckets.setWriter writer (.scanning 0) else buckets
  | .tryOccupy writer => buckets.tryOccupy channel writer
  | .again writer =>
    if buckets.writers writer = .scanning channel.buckCount.toNat then buckets.setWriter writer (.scanning 0)
    else buckets
  | .giveUp writer =>
    if buckets.writers writer = .scanning channel.buckCount.toNat then buckets.setWriter writer .idle else buckets
  | .markFree address => { buckets with states := channel.markFree buckets.states address }

def Reachable (buckets : Buckets) : Prop := Run (step channel) (fun _ _ => True) initial buckets

/-- The bytes of a bucket, from the address that was handed out for it. -/
def span (entry : Nat × Nat) : Span := ⟨entry.2, channel.buckSize.toNat⟩

structure Sound (buckets : Buckets) : Prop where
  disjoint : ∀ first ∈ buckets.returned, ∀ second ∈ buckets.returned, first.1 ≠ second.1 →
    buckets.states first.1 = .occupied → buckets.states second.1 = .occupied →
      (span channel first).Apart (span channel second)
  inside : ∀ entry ∈ buckets.returned, buckets.states entry.1 = .occupied →
    channel.buckBaseAddress ≤ (span channel entry).start ∧ (span channel entry).stop ≤ channel.buckEndAddress
  frees : ∀ entry ∈ buckets.returned, buckets.states entry.1 = .occupied →
    channel.markFree buckets.states entry.2 = update buckets.states entry.1 .free

end Buckets

/-! ## Offsets that fit -/

namespace DataChannel

variable {channel : DataChannel} {i j : Nat}

/-- The offset of the last bucket fits in 32 bits. -/
def OffsetsFit (channel : DataChannel) : Prop := channel.buckSize.toNat * (channel.buckCount.toNat - 1) < 2 ^ 32

theorem validateOptions_iff : channel.validateOptions ↔ 0 < channel.buckSize.toNat ∧ 0 < channel.buckCount.toNat := by
  simp [validateOptions, ← UInt32.toNat_inj, ← UInt16.toNat_inj, Nat.pos_iff_ne_zero]

theorem buckOffset_eq (fits : channel.OffsetsFit) (small : i < channel.buckCount.toNat) :
    channel.buckOffset i = channel.buckSize.toNat * i :=
  Nat.mod_eq_of_lt (Nat.lt_of_le_of_lt (Nat.mul_le_mul_left _ (Nat.le_sub_one_of_lt small)) fits)

theorem buckEnd_le (less : i < j) :
    channel.buckSize.toNat * i + channel.buckSize.toNat ≤ channel.buckSize.toNat * j := by
  exact Nat.mul_le_mul_left _ less

theorem indexOf_buckAddress (valid : channel.validateOptions) (fits : channel.OffsetsFit)
    (small : i < channel.buckCount.toNat) : channel.indexOf (channel.buckAddress i) = some i := by
  have pos := (validateOptions_iff.mp valid).1
  have bound := @buckEnd_le channel i _ small
  rw [indexOf, buckAddress, buckOffset_eq fits small, Nat.add_sub_cancel, Nat.mul_div_cancel_left _ pos,
    if_neg (by rw [buckEndAddress]; omega), if_neg (by rw [Nat.mul_comm]; exact not_not_intro rfl)]

end DataChannel

namespace Buckets

variable {channel : DataChannel} {buckets : Buckets} {i n : Nat}

/-- Every entry is a bucket of the channel with the address computed for it. -/
def Addressed (channel : DataChannel) (buckets : Buckets) : Prop :=
  ∀ entry ∈ buckets.returned, entry.1 < channel.buckCount.toNat ∧ entry.2 = channel.buckAddress entry.1

theorem Addressed.step (addressed : Addressed channel buckets) {action : BuckAction} :
    Addressed channel (buckets.step channel action) := by
  cases action with
  | call | again | giveUp =>
    simp only [Buckets.step]
    split <;> exact addressed
  | tryOccupy writer =>
    simp only [Buckets.step, tryOccupy]
    split
    · exact addressed
    · split_ifs with past free
      · exact addressed
      · exact List.forall_mem_cons.mpr ⟨⟨Nat.lt_of_not_le past, rfl⟩, addressed⟩
      · exact addressed
  | markFree address => exact addressed

theorem Reachable.addressed (reached : Reachable channel buckets) : Addressed channel buckets :=
  Run.invariant reached (List.forall_mem_nil _) fun _ _ addressed _ => addressed.step

theorem Addressed.sound (addressed : Addressed channel buckets) (valid : channel.validateOptions)
    (fits : channel.OffsetsFit) : Sound channel buckets := by
  have offset : ∀ entry ∈ buckets.returned,
      entry.1 < channel.buckCount.toNat ∧ entry.2 = channel.buckSize.toNat * entry.1 + channel.buckBaseAddress := by
    intro entry mem
    obtain ⟨small, address⟩ := addressed entry mem
    rw [address, DataChannel.buckAddress, DataChannel.buckOffset_eq fits small]
    exact ⟨small, rfl⟩
  constructor
  · intro first firstListed second secondListed ne _ _
    have firstAt := offset first firstListed
    have secondAt := offset second secondListed
    simp only [Span.Apart, Span.stop, span]
    rcases Nat.lt_or_gt_of_ne ne with less | greater
    · have := @DataChannel.buckEnd_le channel _ _ less
      omega
    · have := @DataChannel.buckEnd_le channel _ _ greater
      omega
  · intro entry mem _
    have entryAt := offset entry mem
    have bound := @DataChannel.buckEnd_le channel _ _ entryAt.1
    simp only [Span.stop, span, DataChannel.buckEndAddress]
    omega
  · intro entry mem occupied
    obtain ⟨small, address⟩ := addressed entry mem
    simp only [address, DataChannel.markFree, DataChannel.indexOf_buckAddress valid fits small, occupied, if_true]

/-! ## Offsets that wrap -/

/-- The first `n` buckets are occupied, by the one writer at work. -/
structure Filled (channel : DataChannel) (n : Nat) (buckets : Buckets) : Prop where
  occupied : ∀ i, buckets.states i = .occupied ↔ i < n
  returned : ∀ i < n, (i, channel.buckAddress i) ∈ buckets.returned

theorem Filled.setWriter (filled : Filled channel n buckets) {writer : Nat} {phase : Writer} :
    Filled channel n (buckets.setWriter writer phase) := ⟨filled.occupied, filled.returned⟩

theorem filled_scan (short : n < channel.buckCount.toNat) (reached : Reachable channel buckets)
    (filled : Filled channel n buckets)
    (idle : buckets.writers 0 = .idle) (le : i ≤ n) :
    ∃ next, Reachable channel next ∧ Filled channel n next ∧ next.writers 0 = .scanning i := by
  induction i with
  | zero =>
    have called : buckets.step channel (.call 0) = buckets.setWriter 0 (.scanning 0) := if_pos idle
    exact ⟨_, called ▸ reached.snoc (.call 0) trivial, filled.setWriter, update_self ..⟩
  | succ i ih =>
    obtain ⟨middle, reached, filled, scanning⟩ := ih (by omega)
    have next := reached.snoc (.tryOccupy 0) trivial
    simp only [step, tryOccupy, scanning, (filled.occupied i).mpr le, if_neg (Nat.not_le.mpr (Nat.lt_trans le short)),
      reduceCtorEq, if_false] at next
    exact ⟨_, next, filled.setWriter, update_self 0 _ middle.writers⟩

theorem Filled.occupy (filled : Filled channel n buckets) {writers : Nat → Writer} :
    Filled channel (n + 1)
      ⟨update buckets.states n .occupied, writers, (n, channel.buckAddress n) :: buckets.returned⟩ := by
  constructor
  · intro i
    by_cases same : i = n
    · simp [same]
    · simp only [update_of_ne same, filled.occupied]
      omega
  · intro i small
    by_cases same : i = n
    · rw [same]
      exact List.mem_cons_self
    · exact List.mem_cons_of_mem _ (filled.returned i (by omega))

theorem filled_reachable (le : n ≤ channel.buckCount.toNat) :
    ∃ buckets, Reachable channel buckets ∧ Filled channel n buckets ∧ buckets.writers 0 = .idle := by
  induction n with
  | zero => exact ⟨initial, .refl, ⟨by simp [initial], fun i small => absurd small (Nat.not_lt_zero i)⟩, rfl⟩
  | succ n ih =>
    obtain ⟨buckets, reached, filled, idle⟩ := ih (by omega)
    obtain ⟨scan, reached, filled, scanning⟩ := filled_scan le reached filled idle (Nat.le_refl n)
    have isFree : scan.states n = .free := by
      cases state : scan.states n with
      | free => rfl
      | occupied => exact absurd ((filled.occupied n).mp state) (Nat.lt_irrefl n)
    have next := reached.snoc (.tryOccupy 0) trivial
    simp only [step, tryOccupy, scanning, isFree, if_neg (Nat.not_le.mpr le), if_true] at next
    exact ⟨_, next, filled.occupy, update_self 0 .idle scan.writers⟩

/-- The first bucket whose offset wraps lands on bucket 0. -/
theorem exists_overlap (wraps : ¬ channel.OffsetsFit) :
    ∃ n, 0 < n ∧ n < channel.buckCount.toNat ∧ channel.buckOffset n < channel.buckSize.toNat := by
  have some' : ∃ n, 2 ^ 32 ≤ channel.buckSize.toNat * n := ⟨_, Nat.le_of_not_lt wraps⟩
  have least := Nat.find_spec some'
  have below : Nat.find some' ≤ channel.buckCount.toNat - 1 := Nat.find_min' some' (Nat.le_of_not_lt wraps)
  cases first : Nat.find some' with
  | zero =>
    rw [first] at least
    omega
  | succ n =>
    have before : channel.buckSize.toNat * n < 2 ^ 32 := by
      have := Nat.find_min some' (m := n) (by omega)
      omega
    rw [first] at least below
    refine ⟨n + 1, by omega, by omega, ?_⟩
    rw [DataChannel.buckOffset]
    rw [Nat.mul_succ] at least ⊢
    omega

/-- In every interleaving the occupied buckets are apart and inside, and an address frees its
own bucket, exactly when the offset of the last bucket fits in 32 bits. -/
theorem sound_iff_offsetsFit (valid : channel.validateOptions) :
    (∀ buckets, Reachable channel buckets → Sound channel buckets) ↔ channel.OffsetsFit := by
  constructor
  · intro sound
    by_contra wraps
    obtain ⟨n, pos, small, overlap⟩ := exists_overlap wraps
    obtain ⟨buckets, reached, filled, -⟩ := @filled_reachable channel (n + 1) small
    have apart := (sound buckets reached).disjoint _ (filled.returned 0 (by omega)) _ (filled.returned n (by omega))
      (Nat.ne_of_lt pos) ((filled.occupied 0).mpr (by omega)) ((filled.occupied n).mpr (by omega))
    have first : channel.buckOffset 0 = 0 := by
      rw [DataChannel.buckOffset, Nat.mul_zero, Nat.zero_mod]
    simp only [Span.Apart, Span.stop, span, DataChannel.buckAddress] at apart
    omega
  · intro fits buckets reached
    exact reached.addressed.sound valid fits

/-- Buckets of 256 MiB. -/
def largeChannel (buckCount : UInt16) : DataChannel := ⟨0x10000000, buckCount, 0⟩

theorem sound_largeChannel_sixteen :
    (largeChannel 16).validateOptions ∧
      ∀ buckets, Reachable (largeChannel 16) buckets → Sound (largeChannel 16) buckets :=
  ⟨by decide, (sound_iff_offsetsFit (by decide)).mpr (by decide : _ < _)⟩

/-- Of 17 buckets of 256 MiB the last has the address of the first. -/
theorem largeChannel_seventeen_overlap :
    (largeChannel 17).validateOptions ∧
      ∃ buckets, Reachable (largeChannel 17) buckets ∧ (16, (largeChannel 17).buckAddress 0) ∈ buckets.returned ∧
        (0, (largeChannel 17).buckAddress 0) ∈ buckets.returned ∧ buckets.states 0 = .occupied ∧
        buckets.states 16 = .occupied ∧ ¬ Sound (largeChannel 17) buckets := by
  obtain ⟨buckets, reached, filled, -⟩ := @filled_reachable (largeChannel 17) 17 (by decide)
  have last := filled.returned 16 (by decide)
  have first := filled.returned 0 (by decide)
  have firstOccupied := (filled.occupied 0).mpr (by decide)
  have lastOccupied := (filled.occupied 16).mpr (by decide)
  refine ⟨by decide, buckets, reached, last, first, firstOccupied, lastOccupied, fun sound => ?_⟩
  exact absurd (sound.disjoint _ first _ last (by decide) firstOccupied lastOccupied) (by decide)

end Buckets

end UbsComm.Shm
