import Mathlib.Data.Multiset.AddSub
import Mathlib.Data.Nat.ModEq

/-! # Stop-and-wait with sequence numbers that wrap around

A requester sends one request at a time and waits for its answer.  A request carries
the number of answers seen so far, its *turn*, reduced to a sequence number; one that
is lost is sent again with the same number.  Copies of requests and answers may stay in
the network for long.  If no copy is overtaken by a whole round of sequence numbers,
comparing sequence numbers is as good as comparing turns. -/

namespace UbsComm.Library

open List

/-! ## Sequence numbers -/

/-- The sequence number of a turn; it is never zero. -/
def wrapSeq (modulus turn : Nat) : Nat := turn % modulus + 1

theorem wrapSeq_inj {modulus turn later : Nat} (ordered : turn ≤ later) (close : later < turn + modulus)
    (same : wrapSeq modulus turn = wrapSeq modulus later) : turn = later := by
  have residue : turn % modulus = later % modulus := Nat.succ.inj same
  have divides : modulus ∣ later - turn := (Nat.modEq_iff_dvd' ordered).mp residue
  have gap : later - turn = 0 := Nat.eq_zero_of_dvd_of_lt divides (by omega)
  omega

/-! ## The log of requests -/

structure Request where
  turn : Nat
  delivered : Bool

/-- A message with this sequence number belongs to the request logged at `stamp`. -/
def Logged (modulus : Nat) (log : List Request) (delivered : Bool) (stamp seq : Nat) : Prop :=
  ∃ turn, log[stamp]? = some ⟨turn, delivered⟩ ∧ seq = wrapSeq modulus turn

/-- The turn of the request logged at `stamp` has passed. -/
def Passed (log : List Request) (bound stamp : Nat) : Prop :=
  ∃ request, log[stamp]? = some request ∧ request.turn < bound

variable {modulus bound stamp seq : Nat} {delivered : Bool} {log extra : List Request} {request : Request}

theorem getElem?_of_extended (found : log[stamp]? = some request) :
    (log ++ extra)[stamp]? = some request := by
  rw [List.getElem?_append_left (List.getElem?_eq_some_iff.mp found).1, found]

theorem Logged.extend (logged : Logged modulus log delivered stamp seq) :
    Logged modulus (log ++ extra) delivered stamp seq := by
  obtain ⟨turn, found, same⟩ := logged
  exact ⟨turn, getElem?_of_extended found, same⟩

theorem Logged.fate_unique {other : Bool} {seq' : Nat} (logged : Logged modulus log delivered stamp seq)
    (logged' : Logged modulus log other stamp seq') : delivered = other := by
  obtain ⟨turn, found, _⟩ := logged
  obtain ⟨turn', found', _⟩ := logged'
  rw [found] at found'
  cases found'
  rfl

theorem Passed.extend (passed : Passed log bound stamp) : Passed (log ++ extra) bound stamp := by
  obtain ⟨request, found, below⟩ := passed
  exact ⟨request, getElem?_of_extended found, below⟩

/-- Requests that were dealt with, each of them once and before turn `bound`. -/
structure Spent (log : List Request) (bound : Nat) (stamps : Multiset Nat) : Prop where
  nodup : stamps.Nodup
  passed : ∀ stamp ∈ stamps, Passed log bound stamp

variable {stamps : Multiset Nat}

theorem Spent.none : Spent log bound 0 :=
  ⟨Multiset.nodup_zero, fun _ none => absurd none (Multiset.notMem_zero _)⟩

section

variable (spent : Spent log bound stamps)
include spent

theorem Spent.extend : Spent (log ++ extra) bound stamps :=
  ⟨spent.nodup, fun stamp mem => (spent.passed stamp mem).extend⟩

theorem Spent.mono {fewer : Multiset Nat} (le : fewer ≤ stamps) : Spent log bound fewer :=
  ⟨Multiset.nodup_of_le le spent.nodup, fun stamp mem => spent.passed stamp (Multiset.mem_of_le le mem)⟩

/-- The request whose turn it is has not been dealt with before. -/
theorem Spent.spend (found : log[stamp]? = some request) (turn : request.turn = bound) :
    Spent log (bound + 1) (stamp ::ₘ stamps) := by
  have fresh : stamp ∉ stamps := by
    intro mem
    obtain ⟨other, found', below⟩ := spent.passed stamp mem
    rw [found] at found'
    cases found'
    omega
  refine ⟨Multiset.nodup_cons.mpr ⟨fresh, spent.nodup⟩, ?_⟩
  intro other mem
  cases Multiset.mem_cons.mp mem with
  | inl same => exact ⟨request, same ▸ found, by omega⟩
  | inr old =>
    obtain ⟨request', found', below⟩ := spent.passed other old
    exact ⟨request', found', by omega⟩

end

/-! ## The discipline -/

/-- `waiting` are the requests sent and neither answered nor known to be lost,
`accepted` and `answered` count the requests and the answers that were applied. -/
structure StopAndWait (log : List Request) (waiting : List Nat) (accepted answered : Nat) : Prop where
  turn_le : ∀ (stamp : Nat) (request : Request), log[stamp]? = some request → request.turn ≤ answered
  /-- Each turn since a request's own one took at least one later request. -/
  recent : ∀ (stamp : Nat) (request : Request), log[stamp]? = some request →
    answered + stamp < request.turn + log.length + if waiting = [] then 1 else 0
  current : ∀ (stamp : Nat) (request : Request), log[stamp]? = some request → request.delivered = true →
    request.turn = answered →
    waiting = [stamp]
  waits : ∀ stamp ∈ waiting, waiting = [stamp] ∧
    ∃ request : Request, log[stamp]? = some request ∧ request.turn = answered ∧
      (accepted = answered + 1 → request.delivered = true)
  paced : accepted = answered ∨ accepted = answered + 1 ∧ waiting ≠ []

variable {waiting : List Nat} {accepted answered : Nat}

theorem StopAndWait.initial : StopAndWait [] [] 0 0 where
  turn_le _ _ found := by cases found
  recent _ _ found := by cases found
  current _ _ found := by cases found
  waits _ none := by cases none
  paced := .inl rfl

theorem StopAndWait.waiting_length (discipline : StopAndWait log waiting accepted answered) : waiting.length ≤ 1 := by
  cases waiting with
  | nil => simp
  | cons stamp rest =>
    have alone := (discipline.waits stamp mem_cons_self).1
    simp [alone]

theorem StopAndWait.post (discipline : StopAndWait log [] accepted answered) :
    StopAndWait (log ++ [⟨answered, delivered⟩]) [log.length] accepted answered := by
  have agreed : accepted = answered := by
    obtain same | ⟨_, busy⟩ := discipline.paced
    · exact same
    · exact absurd rfl busy
  -- a position of the longer log is an old one or the new one
  have split : ∀ (stamp : Nat) (request : Request), (log ++ [⟨answered, delivered⟩])[stamp]? = some request →
      log[stamp]? = some request ∨ stamp = log.length ∧ request = ⟨answered, delivered⟩ := by
    intro stamp request found
    by_cases old : stamp < log.length
    · rw [getElem?_append_left old] at found
      exact .inl found
    · rw [getElem?_append_right (by omega)] at found
      obtain ⟨inRange, same⟩ := List.getElem?_eq_some_iff.mp found
      simp only [length_singleton, getElem_singleton] at inRange same
      exact .inr ⟨by omega, same.symm⟩
  constructor
  · intro stamp request found
    obtain old | ⟨_, rfl⟩ := split stamp request found
    · exact discipline.turn_le stamp request old
    · exact Nat.le_refl _
  · intro stamp request found
    simp only [length_append, length_singleton]
    obtain old | ⟨rfl, rfl⟩ := split stamp request found
    · have := discipline.recent stamp request old
      simp only [if_true] at this
      omega
    · dsimp only
      omega
  · intro stamp request found arrives turn
    obtain old | ⟨rfl, rfl⟩ := split stamp request found
    · cases discipline.current stamp request old arrives turn
    · rfl
  · intro stamp mem
    cases mem_singleton.mp mem
    exact ⟨rfl, ⟨answered, delivered⟩, by simp, rfl, by omega⟩
  · exact .inl agreed

theorem StopAndWait.fail (discipline : StopAndWait log [stamp] accepted answered)
    (found : log[stamp]? = some request) (lost : request.delivered = false) : StopAndWait log [] accepted answered := by
  obtain ⟨_, request', found', turn, arrived⟩ := discipline.waits stamp mem_cons_self
  rw [found] at found'
  cases found'
  refine ⟨discipline.turn_le, ?_, ?_, forall_mem_nil _, ?_⟩
  · intro other request' found'
    have := discipline.recent other request' found'
    simp only [cons_ne_nil, if_false] at this ⊢
    omega
  · intro other request' found' arrives turn'
    cases discipline.current other request' found' arrives turn'
    rw [found] at found'
    cases found'
    rw [lost] at arrives
    cases arrives
  · obtain same | ⟨ahead, _⟩ := discipline.paced
    · exact .inl same
    · rw [arrived ahead] at lost
      cases lost

variable (discipline : StopAndWait log waiting accepted answered)
include discipline

section

variable (found : log[stamp]? = some request) (arrives : request.delivered = true)
include found arrives

/-- A delivered request that is not overtaken by a whole round is accepted only if it is
the one the requester waits for. -/
theorem StopAndWait.accept_current (timely : log.length < stamp + modulus)
    (expected : wrapSeq modulus request.turn = wrapSeq modulus accepted) :
    request.turn = accepted ∧ accepted = answered ∧ waiting = [stamp] := by
  have turn_le := discipline.turn_le stamp request found
  have recent := discipline.recent stamp request found
  have answered_le : answered ≤ accepted := by
    obtain same | ⟨ahead, _⟩ := discipline.paced <;> omega
  have close : accepted < request.turn + modulus := by
    obtain same | ⟨ahead, busy⟩ := discipline.paced
    · split at recent <;> omega
    · rw [if_neg busy] at recent
      omega
  have turn : request.turn = accepted := wrapSeq_inj (by omega) close expected
  exact ⟨turn, by omega, discipline.current stamp request found arrives (by omega)⟩

theorem StopAndWait.accept (agreed : accepted = answered) (waits : waiting = [stamp]) :
    StopAndWait log waiting (accepted + 1) answered := by
  subst agreed waits
  refine ⟨discipline.turn_le, discipline.recent, discipline.current, ?_, .inr ⟨rfl, by simp⟩⟩
  intro other mem
  cases mem_singleton.mp mem
  obtain ⟨alone, request', found', turn, _⟩ := discipline.waits stamp mem_cons_self
  rw [found] at found'
  cases found'
  exact ⟨alone, request, found, turn, fun _ => arrives⟩

/-- The same for an answer to a request that was accepted. -/
theorem StopAndWait.answer_current (timely : log.length < stamp + modulus)
    (expected : wrapSeq modulus request.turn = wrapSeq modulus answered) (passed : request.turn < accepted) :
    request.turn = answered ∧ accepted = answered + 1 ∧ waiting = [stamp] := by
  have turn_le := discipline.turn_le stamp request found
  have recent := discipline.recent stamp request found
  have close : answered < request.turn + modulus := by
    split at recent <;> omega
  have turn : request.turn = answered := wrapSeq_inj turn_le close expected
  refine ⟨turn, ?_, discipline.current stamp request found arrives turn⟩
  obtain same | ⟨ahead, _⟩ := discipline.paced <;> omega

end

theorem StopAndWait.answer (ahead : accepted = answered + 1)
    (busy : waiting ≠ []) : StopAndWait log [] accepted (answered + 1) := by
  subst ahead
  refine ⟨?_, ?_, ?_, forall_mem_nil _, .inl rfl⟩
  · intro other request found
    have := discipline.turn_le other request found
    omega
  · intro other request found
    have := discipline.recent other request found
    rw [if_neg busy] at this
    rw [if_pos rfl]
    omega
  · intro other request found arrives turn
    have := discipline.turn_le other request found
    omega

end UbsComm.Library
