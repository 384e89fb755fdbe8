import UbsComm.Library.Run
import Mathlib.Data.List.Count

/-! # The pending-close registry

A socket that is closed stays referenced by a slot of the registry until its CLOSE is on the wire.  Meanwhile
its descriptor number is kept busy by a placeholder, and whoever releases the hold gives the
number back.  The slot is two atomics, the socket and a flag for the placeholder, that the closing thread and any
number of `ReleasePendingClose` calls touch one at a time. -/

namespace UbsComm.Urma

open Library List

/-- One call of `ReleasePendingClose` that has taken a socket out of the slot. -/
structure ReleaseCall where
  sock : Nat
  /-- What its exchange of the flag gave, once it was made. -/
  taken : Option Bool
  deriving DecidableEq

/-- Where the thread that closes the descriptor is. -/
inductive ClosePhase where
  | connected
  /-- `HoldPendingClose` has put the socket into the slot, over the socket `old`. -/
  | exchanged (old : Option Nat)
  | held
  | posted
  /-- `TakeFdPlaceholder` has seen its socket in the slot. -/
  | loaded
  | unflagged
  | duplicated
  /-- The socket was still there after `dup3`. -/
  | confirmed
  /-- `PostCloseToPeer` has returned true. -/
  | reported
  /-- `PostCloseToPeer` has returned false. -/
  | refused
  | closed
  deriving DecidableEq

/-- The slot of one descriptor number.  The sockets that have the number one after the other are counted
from 0, and `current` is the last of them. -/
structure PendingCloseSlot where
  sock : Option Nat
  placeholderTaken : Bool
  current : Nat
  /-- The number is in use. -/
  busy : Bool
  phase : ClosePhase
  releases : List ReleaseCall
  /-- The sockets that were held, whose hold was dropped and whose number was given back. -/
  holds : List Nat
  drops : List Nat
  closes : List Nat

inductive PendingCloseAction where
  /-- `PostCloseToPeer` returns at one of its first checks. -/
  | skip
  | hold
  | store
  | post (posted : Bool)
  | load
  | readFlag
  | dup (done : Bool)
  | compareExchange
  | storeFlag
  /-- The caller closes the number. -/
  | close
  /-- The number goes to a new socket. -/
  | reuse
  /-- `ReleasePendingClose` for a completion, an error completion, a post that failed or the sweep. -/
  | release
  | exchangeFlag (sock : Nat)
  | giveBack (sock : Nat)
  | drop (sock : Nat)

namespace PendingCloseSlot

def init : PendingCloseSlot := ⟨none, false, 0, true, .connected, [], [], [], []⟩

/-- The release call goes on. -/
def replace (releases : List ReleaseCall) (before after : ReleaseCall) : List ReleaseCall :=
  after :: releases.erase before

variable (slot : PendingCloseSlot)

def step : PendingCloseAction → PendingCloseSlot
  | .skip => if slot.phase = .connected then { slot with phase := .refused } else slot
  | .hold =>
    if slot.phase = .connected then
      { slot with phase := .exchanged slot.sock, sock := some slot.current, holds := slot.holds ++ [slot.current] }
    else slot
  | .store =>
    match slot.phase with
    | .exchanged old => { slot with phase := .held, placeholderTaken := false, drops := slot.drops ++ old.toList }
    | _ => slot
  | .post posted =>
    if slot.phase = .held then { slot with phase := if posted then .posted else .refused } else slot
  | .load =>
    if slot.phase = .posted then { slot with phase := if slot.sock.isSome then .loaded else .refused } else slot
  | .readFlag =>
    if slot.phase = .loaded then
      { slot with phase := if slot.placeholderTaken then .reported else .unflagged }
    else slot
  | .dup done =>
    if slot.phase = .unflagged then { slot with phase := if done then .duplicated else .refused } else slot
  | .compareExchange =>
    -- the socket that was loaded is the current one: the slot had no other since the hold
    if slot.phase = .duplicated then
      { slot with phase := if slot.sock = some slot.current then .confirmed else .refused }
    else slot
  | .storeFlag =>
    if slot.phase = .confirmed then { slot with phase := .reported, placeholderTaken := true } else slot
  | .close =>
    if slot.phase = .refused then
      { slot with phase := .closed, busy := false, closes := slot.closes ++ [slot.current] }
    else slot
  | .reuse =>
    if slot.busy then slot
    else { slot with phase := .connected, busy := true, current := slot.current + 1 }
  | .release =>
    match slot.sock with
    | some sock => { slot with sock := none, releases := ⟨sock, none⟩ :: slot.releases }
    | none => slot
  | .exchangeFlag sock =>
    if ⟨sock, none⟩ ∈ slot.releases then
      { slot with
        releases := replace slot.releases ⟨sock, none⟩ ⟨sock, some slot.placeholderTaken⟩, placeholderTaken := false }
    else slot
  | .giveBack sock =>
    if ⟨sock, some true⟩ ∈ slot.releases then
      { slot with
        releases := replace slot.releases ⟨sock, some true⟩ ⟨sock, some false⟩
        busy := false, closes := slot.closes ++ [slot.current] }
    else slot
  | .drop sock =>
    if ⟨sock, some false⟩ ∈ slot.releases then
      { slot with releases := slot.releases.erase ⟨sock, some false⟩, drops := slot.drops ++ [sock] }
    else slot

/-! ## Exactly once -/

/-- Where the hold of a socket is as long as it is not dropped. -/
def places (sock : Nat) : Nat :=
  (if slot.sock = some sock then 1 else 0) + (if slot.phase = .exchanged (some sock) then 1 else 0) +
    slot.releases.countP (·.sock = sock)

/-- How many are to give back the number: the flag and the release calls that took it away. -/
def tokens : Nat :=
  (if slot.placeholderTaken then 1 else 0) + slot.releases.countP (·.taken = some true)

/-- A release call will still find the flag: one is on its way to it, or a completion will start one. -/
def Served : Prop :=
  slot.sock.isSome ∨ ∃ release ∈ slot.releases, release.taken = none

structure Right : Prop where
  holds : ∀ sock, slot.drops.count sock + slot.places sock = slot.holds.count sock
  held : ∀ sock, slot.holds.count sock ≤ 1
  older : ∀ sock ∈ slot.holds, sock < slot.current ∨ sock = slot.current ∧ slot.phase ≠ .connected
  closes : ∀ sock, slot.closes.count sock =
    if sock < slot.current ∨ sock = slot.current ∧ slot.busy = false then 1 else 0
  tokens : slot.tokens = if slot.phase = .reported ∧ slot.busy then 1 else 0
  /-- A number that is given back has a closing thread that is through. -/
  through : slot.busy = false → slot.phase = .reported ∨ slot.phase = .closed
  closed : slot.phase = .closed → slot.busy = false
  served : slot.phase = .confirmed ∨ slot.placeholderTaken = true → slot.Served

/-- The flag is not exchanged between the closing thread's look at the slot and its store of the flag,
unless another release call comes after it. -/
def Careful : PendingCloseAction → Prop
  | .exchangeFlag sock =>
    slot.phase = .confirmed → ⟨sock, none⟩ ∈ slot.releases →
      slot.sock.isSome ∨ ∃ release ∈ slot.releases.erase ⟨sock, none⟩, release.taken = none
  | _ => True

instance (action) : Decidable (slot.Careful action) := by
  cases action <;> dsimp only [Careful] <;> infer_instance

variable {slot}

theorem Right.init : init.Right := by
  constructor <;> simp [PendingCloseSlot.init, places, PendingCloseSlot.tokens]

/-! ## One step -/

/-- A phase in which `PostCloseToPeer` is still at work, or has failed. -/
def ClosePhase.Midway (phase : ClosePhase) : Prop :=
  (∀ old, phase ≠ .exchanged old) ∧ phase ≠ .connected ∧ phase ≠ .reported ∧ phase ≠ .closed

section

variable (right : slot.Right)
include right

theorem Right.busy (reported : slot.phase ≠ .reported) (closed : slot.phase ≠ .closed) : slot.busy = true := by
  cases busy : slot.busy with
  | true => rfl
  | false => exact ((right.through busy).elim reported closed).elim

theorem Right.untaken (reported : slot.phase ≠ .reported) : slot.placeholderTaken = false := by
  have tokens := right.tokens
  rw [if_neg fun both => reported both.1, PendingCloseSlot.tokens] at tokens
  cases taken : slot.placeholderTaken with
  | false => rfl
  | true => simp [taken] at tokens

/-- The closing thread goes on from `start`, and the slot stays as it is. -/
theorem Right.goesOn {start phase : ClosePhase}
    (working : (∀ old, start ≠ .exchanged old) ∧ start ≠ .reported ∧ start ≠ .closed)
    (midway : slot.phase = start → ClosePhase.Midway phase)
    (served : phase = .confirmed → slot.Served) : Right (if slot.phase = start then { slot with phase } else slot) := by
  refine guarded right fun started => ?_
  obtain ⟨exchanged, reported, closed⟩ := started ▸ working
  have midway := midway started
  exact {
    holds sock := by simpa [places, exchanged, midway.1] using right.holds sock
    held := right.held
    older sock mem := (right.older sock mem).imp_right fun same => ⟨same.1, midway.2.1⟩
    closes := right.closes
    tokens := by simpa [PendingCloseSlot.tokens, reported, midway.2.2.1] using right.tokens
    through free := absurd free (by simp [right.busy reported closed])
    closed isClosed := absurd isClosed midway.2.2.2
    served waits := waits.elim served fun taken => absurd taken (by simp [right.untaken reported]) }

theorem Right.skip : (slot.step .skip).Right :=
  right.goesOn (by simp) (by simp [ClosePhase.Midway]) (by simp)

theorem Right.hold : (slot.step .hold).Right := by
  refine guarded right fun connected => ?_
  have new : slot.holds.count slot.current = 0 := by
    rw [count_eq_zero]
    intro mem
    have := right.older _ mem
    simp [connected] at this
  have untaken := right.untaken (by simp [connected])
  constructor
  · intro sock
    have before := right.holds sock
    simp only [places, connected, reduceCtorEq, if_false] at before
    simp only [places, ClosePhase.exchanged.injEq, Option.some.injEq, count_append, count_singleton, beq_iff_eq]
    omega
  · intro sock
    have before := right.held sock
    rw [count_append, count_singleton]
    split
    · rename_i same
      exact Nat.le_of_eq (by rw [← beq_iff_eq.1 same, new])
    · exact before
  · intro sock mem
    simp only [mem_append, mem_singleton] at mem
    obtain old | same := mem
    · exact (right.older sock old).imp_right fun both => absurd connected both.2
    · exact .inr ⟨same, by simp⟩
  · exact right.closes
  · simpa [PendingCloseSlot.tokens, connected] using right.tokens
  · intro free
    simp [right.busy, connected] at free
  · simp
  · simp [untaken]

theorem Right.store : (slot.step .store).Right := by
  rw [step]
  split
  swap
  · exact right
  rename_i old exchanged
  have untaken := right.untaken (by simp [exchanged])
  refine { right with holds := ?_, older := ?_, tokens := ?_, through := ?_, closed := ?_, served := ?_ }
  · intro sock
    have before := right.holds sock
    simp only [places, exchanged, ClosePhase.exchanged.injEq] at before
    simp only [places, reduceCtorEq, if_false, count_append]
    cases old with
    | none => simpa using before
    | some old =>
      simp only [Option.some.injEq] at before
      simp only [Option.toList_some, count_singleton, beq_iff_eq]
      omega
  · exact fun sock mem => (right.older sock mem).imp_right fun same => ⟨same.1, by simp⟩
  · simpa [PendingCloseSlot.tokens, exchanged, untaken] using right.tokens
  · intro free
    simp [right.busy, exchanged] at free
  · simp
  · simp

theorem Right.post {posted : Bool} : (slot.step (.post posted)).Right := by
  refine right.goesOn (by simp) ?_ ?_ <;> cases posted <;> simp [ClosePhase.Midway]

theorem Right.load : (slot.step .load).Right := by
  refine right.goesOn (by simp) ?_ ?_ <;> cases slot.sock <;> simp [ClosePhase.Midway]

theorem Right.readFlag : (slot.step .readFlag).Right := by
  refine right.goesOn (by simp) (fun loaded => ?_) ?_
  · simp [right.untaken (by simp [loaded]), ClosePhase.Midway]
  · cases slot.placeholderTaken <;> simp

theorem Right.dup {done : Bool} : (slot.step (.dup done)).Right := by
  refine right.goesOn (by simp) ?_ ?_ <;> cases done <;> simp [ClosePhase.Midway]

theorem Right.compareExchange : (slot.step .compareExchange).Right := by
  refine right.goesOn (by simp) (fun _ => ?_) fun confirmed => ?_
  · split <;> simp [ClosePhase.Midway]
  · split at confirmed
    · rename_i there
      exact .inl (by simp [there])
    · simp at confirmed

theorem Right.storeFlag : (slot.step .storeFlag).Right := by
  refine guarded right fun confirmed => ?_
  have untaken := right.untaken (by simp [confirmed])
  have busy := right.busy (by simp [confirmed]) (by simp [confirmed])
  refine { right with holds := ?_, older := ?_, tokens := ?_, through := ?_, closed := ?_, served := ?_ }
  · simpa [places, confirmed] using right.holds
  · exact fun sock mem => (right.older sock mem).imp_right fun same => ⟨same.1, by simp⟩
  · have none := right.tokens
    simp only [PendingCloseSlot.tokens, untaken, confirmed] at none
    simp only [PendingCloseSlot.tokens, busy]
    simp at none ⊢
    exact none
  · exact fun free => .inl rfl
  · simp
  · exact fun _ => right.served (.inl confirmed)

theorem Right.close : (slot.step .close).Right := by
  refine guarded right fun refused => ?_
  have untaken := right.untaken (by simp [refused])
  have busy := right.busy (by simp [refused]) (by simp [refused])
  refine { right with holds := ?_, older := ?_, closes := ?_, tokens := ?_, through := ?_, closed := ?_, served := ?_ }
  · simpa [places, refused] using right.holds
  · exact fun sock mem => (right.older sock mem).imp_right fun same => ⟨same.1, by simp⟩
  · intro sock
    have before := right.closes sock
    simp only [busy, Bool.true_eq_false, and_false, or_false] at before
    simp only [count_append, count_singleton, beq_iff_eq, and_true]
    split at before <;> split <;> split <;> omega
  · simpa [PendingCloseSlot.tokens, refused] using right.tokens
  · exact fun _ => .inr rfl
  · exact fun _ => rfl
  · simp [untaken]

theorem Right.reuse : (slot.step .reuse).Right := by
  rw [step]
  split
  · exact right
  rename_i notBusy
  have free : slot.busy = false := by simpa using notBusy
  have tokens : slot.tokens = 0 := by simpa [free] using right.tokens
  refine { right with holds := ?_, older := ?_, closes := ?_, tokens := ?_, through := ?_, closed := ?_, served := ?_ }
  · intro sock
    have before := right.holds sock
    have phase : slot.phase ≠ .exchanged (some sock) := by
      obtain through | through := right.through free <;> simp [through]
    simpa [places, phase] using before
  · intro sock mem
    refine .inl ?_
    obtain older | same := right.older sock mem
    · exact Nat.lt_succ_of_lt older
    · exact same.1 ▸ Nat.lt_succ_self _
  · intro sock
    have before := right.closes sock
    simp only [free, and_true] at before
    simp only [Bool.true_eq_false, and_false, or_false]
    split at before <;> split <;> omega
  · simpa [PendingCloseSlot.tokens] using tokens
  · simp
  · simp
  · intro waits
    simp only [PendingCloseSlot.tokens] at tokens
    simp only [reduceCtorEq, false_or] at waits
    simp [waits] at tokens

end

theorem countP_replace {before : ReleaseCall} (mem : before ∈ slot.releases) (after : ReleaseCall)
    (p : ReleaseCall → Bool) :
    (replace slot.releases before after).countP p + (if p before then 1 else 0) =
      slot.releases.countP p + if p after then 1 else 0 := by
  have order := (perm_cons_erase mem).countP_eq p
  rw [replace, countP_cons]
  rw [countP_cons] at order
  omega

section

variable (right : slot.Right)
include right

theorem Right.release : (slot.step .release).Right := by
  rw [step]
  split
  swap
  · exact right
  rename_i sock there
  refine { right with holds := ?_, tokens := ?_, served := ?_ }
  · intro other
    have before := right.holds other
    simp only [places, there, Option.some.injEq] at before
    simp only [places, reduceCtorEq, if_false, countP_cons, decide_eq_true_eq]
    omega
  · simpa [PendingCloseSlot.tokens] using right.tokens
  · exact fun _ => .inr ⟨⟨sock, none⟩, by simp, rfl⟩

variable {sock : Nat}

theorem Right.exchangeFlag_iff : (slot.step (.exchangeFlag sock)).Right ↔ slot.Careful (.exchangeFlag sock) := by
  rw [step]
  split
  swap
  · rename_i absent
    exact iff_of_true right fun _ mem => absurd mem absent
  rename_i mem
  constructor
  · intro after confirmed _
    have served := after.served (.inl confirmed)
    simpa [Served, replace] using served
  · intro careful
    refine { right with holds := ?_, tokens := ?_, served := ?_ }
    · intro other
      have count := countP_replace mem ⟨sock, some slot.placeholderTaken⟩ (·.sock = other)
      have before := right.holds other
      simp only [places] at before ⊢
      simp only at count
      omega
    · have count := countP_replace mem ⟨sock, some slot.placeholderTaken⟩ (·.taken = some true)
      rw [← right.tokens]
      simpa [PendingCloseSlot.tokens, Nat.add_comm] using count
    · intro waits
      obtain confirmed | taken := waits
      · exact (careful confirmed mem).imp_right fun ⟨release, there, fresh⟩ =>
          ⟨release, mem_cons_of_mem _ there, fresh⟩
      · simp at taken

/-- Only a number that was reported as taken over is given back by a release call. -/
theorem Right.reported (mem : ⟨sock, some true⟩ ∈ slot.releases) : slot.phase = .reported ∧ slot.busy = true := by
  have tokens := right.tokens
  have token : 0 < slot.releases.countP (·.taken = some true) := countP_pos_iff.2 ⟨_, mem, by simp⟩
  by_contra other
  rw [if_neg other, PendingCloseSlot.tokens] at tokens
  omega

theorem Right.giveBack : (slot.step (.giveBack sock)).Right := by
  refine guarded right fun mem => ?_
  have reported := right.reported mem
  have tokens := right.tokens
  have token : 0 < slot.releases.countP (·.taken = some true) := countP_pos_iff.2 ⟨_, mem, by simp⟩
  rw [if_pos reported, PendingCloseSlot.tokens] at tokens
  refine { right with holds := ?_, closes := ?_, tokens := ?_, through := ?_, closed := ?_, served := ?_ }
  · intro other
    have count := countP_replace mem ⟨sock, some false⟩ (·.sock = other)
    have before := right.holds other
    simp only [places] at before ⊢
    simp only at count
    omega
  · intro other
    have before := right.closes other
    simp only [reported.2, Bool.true_eq_false, and_false, or_false] at before
    simp only [count_append, count_singleton, beq_iff_eq, and_true]
    split at before <;> split <;> split <;> omega
  · have count := countP_replace mem ⟨sock, some false⟩ (·.taken = some true)
    simp only [decide_true, if_true, Option.some.injEq, Bool.false_eq_true, decide_false, if_false] at count
    simp only [PendingCloseSlot.tokens, Bool.false_eq_true, and_false, if_false]
    omega
  · exact fun _ => .inl reported.1
  · exact fun _ => rfl
  · intro waits
    simp only [reported.1, reduceCtorEq, false_or] at waits
    rw [if_pos waits] at tokens
    omega

theorem Right.drop : (slot.step (.drop sock)).Right := by
  refine guarded right fun mem => ?_
  have order := perm_cons_erase mem
  refine { right with holds := ?_, tokens := ?_, served := ?_ }
  · intro other
    have count := order.countP_eq (·.sock = other)
    have before := right.holds other
    rw [countP_cons] at count
    simp only [decide_eq_true_eq] at count
    simp only [places, count_append, count_singleton, beq_iff_eq] at before ⊢
    omega
  · rw [← right.tokens]
    simp [PendingCloseSlot.tokens, order.countP_eq]
  · intro waits
    refine (right.served waits).imp_right fun ⟨release, there, fresh⟩ => ⟨release, ?_, fresh⟩
    refine (mem_cons.1 (order.mem_iff.1 there)).resolve_left fun same => ?_
    simp [same] at fresh

/-! ## Every run -/

theorem Right.step_iff (action : PendingCloseAction) : (slot.step action).Right ↔ slot.Careful action := by
  cases action with
  | skip => exact iff_of_true right.skip trivial
  | hold => exact iff_of_true right.hold trivial
  | store => exact iff_of_true right.store trivial
  | post posted => exact iff_of_true right.post trivial
  | load => exact iff_of_true right.load trivial
  | readFlag => exact iff_of_true right.readFlag trivial
  | dup done => exact iff_of_true right.dup trivial
  | compareExchange => exact iff_of_true right.compareExchange trivial
  | storeFlag => exact iff_of_true right.storeFlag trivial
  | close => exact iff_of_true right.close trivial
  | reuse => exact iff_of_true right.reuse trivial
  | release => exact iff_of_true right.release trivial
  | exchangeFlag sock => exact right.exchangeFlag_iff
  | giveBack sock => exact iff_of_true right.giveBack trivial
  | drop sock => exact iff_of_true right.drop trivial

/-- Once the closing thread is through and the release calls are, the number of every socket was given
back and every hold dropped. -/
theorem Right.settled (empty : slot.sock = none) (quiet : slot.releases = [])
    (through : slot.phase = .reported ∨ slot.phase = .closed) :
    (∀ sock ≤ slot.current, slot.closes.count sock = 1) ∧ ∀ sock ∈ slot.holds, slot.drops.count sock = 1 := by
  have free : slot.busy = false := by
    obtain reported | closed := through
    · cases busy : slot.busy with
      | false => rfl
      | true =>
        -- The flag is set, and nobody would come for it.
        have tokens := right.tokens
        rw [if_pos ⟨reported, busy⟩, PendingCloseSlot.tokens, quiet] at tokens
        have taken : slot.placeholderTaken = true := by
          by_contra untaken
          simp [untaken] at tokens
        have served := right.served (.inr taken)
        simp [Served, empty, quiet] at served
    · exact right.closed closed
  refine ⟨fun sock bound => ?_, fun sock mem => ?_⟩
  · rw [right.closes sock, if_pos]
    exact (Nat.lt_or_eq_of_le bound).imp_right fun same => ⟨same, free⟩
  · have account := right.holds sock
    have once := right.held sock
    have some_ := count_pos_iff.2 mem
    have phase : slot.phase ≠ .exchanged (some sock) := by
      obtain phase | phase := through <;> simp [phase]
    simp only [places, empty, quiet, phase, reduceCtorEq, countP_nil] at account
    omega

end

/-- Along careful steps no number is given back twice and no hold dropped twice.  A release call
gives back only a number that was reported as taken over, the caller only one that was not, and when all are through
each number was given back and each hold dropped once. -/
theorem pendingClose_once_of_careful_exchanges {finish : PendingCloseSlot} (run : Run step Careful init finish) :
    finish.Right ∧
      (∀ sock, ⟨sock, some true⟩ ∈ finish.releases → finish.phase = .reported ∧ finish.busy = true) ∧
      (finish.sock = none → finish.releases = [] → finish.phase = .reported ∨ finish.phase = .closed →
        (∀ sock ≤ finish.current, finish.closes.count sock = 1) ∧
          ∀ sock ∈ finish.holds, finish.drops.count sock = 1) ∧
      ∀ action, (finish.step action).Right ↔ finish.Careful action := by
  have right : finish.Right :=
    run.invariant Right.init fun _ action right careful => (right.step_iff action).2 careful
  exact ⟨right, fun _ => right.reported, right.settled, right.step_iff⟩

/-- The closing thread, up to its look at the slot after `dup3`. -/
def takeover : List PendingCloseAction :=
  [.hold, .store, .post true, .load, .readFlag, .dup true, .compareExchange]

/-- The completion comes in between, after the flag is stored. -/
def lateRelease : List PendingCloseAction :=
  takeover ++ [.release, .storeFlag, .exchangeFlag 0, .giveBack 0, .drop 0]

theorem pendingClose_once_lateRelease :
    (lateRelease.foldl step init).closes.count 0 = 1 ∧ (lateRelease.foldl step init).drops.count 0 = 1 := by
  have run : Run step Careful init (lateRelease.foldl step init) := Run.ofList (by decide)
  have settled := (pendingClose_once_of_careful_exchanges run).2.2.1 (by decide) (by decide) (by decide)
  exact ⟨settled.1 0 (by decide), settled.2 0 (by decide)⟩

/-- The release call exchanges the flag before the closing thread stores it. -/
def earlyRelease : List PendingCloseAction :=
  takeover ++ [.release, .exchangeFlag 0, .storeFlag, .giveBack 0, .drop 0]

/-- The number, reported as taken over, is never given back. -/
theorem pendingClose_earlyRelease :
    (earlyRelease.foldl step init).sock = none ∧ (earlyRelease.foldl step init).releases = [] ∧
      (earlyRelease.foldl step init).phase = .reported ∧
      ¬ ∀ sock ≤ (earlyRelease.foldl step init).current, (earlyRelease.foldl step init).closes.count sock = 1 := by
  decide

end PendingCloseSlot

end UbsComm.Urma
