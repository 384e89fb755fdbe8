
/-! # The callback of an asynchronous send

`Send` offers the user's callback to one attempt after another.  What happens in an attempt (rate
limiting, endpoint choice, timer, post, and whether the timer is finished by someone else) is given
by its outcome, and the result is the list of what is done with the callback. -/

namespace UbsComm.Service

open List

/-- The results that `Send` tells apart: it retries after `SER_NEW_OBJECT_FAILED`. -/
inductive SendResult where
  | ok
  | newObjectFailed
  | otherFailure
  deriving DecidableEq

/-- A result that is not OK. -/
inductive SendFailure where
  | newObjectFailed
  | otherFailure

def SendFailure.result : SendFailure → SendResult
  | .newObjectFailed => .newObjectFailed
  | .otherFailure => .otherFailure

inductive CallbackUse where
  | offered
  | run
  | destroyed
  deriving DecidableEq

def CallbackUse.consumes : CallbackUse → Bool
  | .offered => false
  | .run | .destroyed => true

/-- How the sending of a message or a fragment ends.  `taken` says that a completion, a timeout or
a broken channel had finished the timer before `DestroyTimerContext`. -/
inductive PostOutcome where
  | sent
  | prepareFails (failure : SendFailure)
  | postFails (failure : SendFailure) (taken : Bool)

/-- A fragment needs a wrapper for the callback first. -/
inductive FragmentOutcome where
  | allocFails
  | allocated (outcome : PostOutcome)

/-- The outcome of one pass of the loop in `Send`. -/
inductive AttemptOutcome where
  | flowControlFails (failure : SendFailure)
  | selfPoll
  | chooseFails (failure : SendFailure)
  | whole (outcome : PostOutcome)
  | split (outcomes : List FragmentOutcome)

/-- `AsyncSendInner` without splitting: the timer holds the user's callback itself. -/
def sendWhole : PostOutcome → List CallbackUse × SendResult
  | .sent => ([.run], .ok)
  | .prepareFails failure => ([.destroyed], failure.result)
  | .postFails failure taken => ([if taken then .run else .destroyed], failure.result)

/-- `AsyncSendSplitWithWorkerPoll`: each timer holds a wrapper, and only that of the last fragment
runs the user's callback. -/
def sendSplit : List FragmentOutcome → List CallbackUse × SendResult
  | [] => ([], .ok)
  | .allocFails :: _ => ([.destroyed], .newObjectFailed)
  | .allocated .sent :: rest => if rest = [] then ([.run], .ok) else sendSplit rest
  | .allocated (.prepareFails failure) :: _ => ([.destroyed], failure.result)
  | .allocated (.postFails failure taken) :: rest =>
    ((if taken ∧ rest = [] then [.run] else []) ++ [.destroyed], failure.result)

/-- One pass of the loop: what is done with the callback, the result, and whether `Send` returns
at once. -/
def attempt : AttemptOutcome → List CallbackUse × SendResult × Bool
  | .flowControlFails failure => ([.destroyed], failure.result, true)
  | .selfPoll => ([.offered, .destroyed], .otherFailure, false)
  | .chooseFails failure => ([.offered, .destroyed], failure.result, false)
  | .whole outcome => (.offered :: (sendWhole outcome).1, (sendWhole outcome).2, false)
  | .split outcomes => (.offered :: (sendSplit outcomes).1, (sendSplit outcomes).2, false)

/-- The loop goes on: the result asks for it and there is time left. -/
def retries (outcome : AttemptOutcome) (expired : Bool) : Bool :=
  let (_, result, returns) := attempt outcome
  !returns && result = .newObjectFailed && !expired

/-- The loop of `Send` on the outcomes of its passes, each with whether the time is over after
it. -/
def sendLoop : List (AttemptOutcome × Bool) → List CallbackUse
  | [] => []
  | (outcome, expired) :: rest => (attempt outcome).1 ++ if retries outcome expired then sendLoop rest else []

/-- `Send`: a request that does not pass the check is refused before the loop. -/
def asyncSend (valid : Bool) (passes : List (AttemptOutcome × Bool)) : List CallbackUse :=
  if valid then sendLoop passes else []

/-- The passes are enough for the loop to end. -/
def Ends : List (AttemptOutcome × Bool) → Prop
  | [] => False
  | (outcome, expired) :: rest => retries outcome expired → Ends rest

/-- A split message has more than one fragment. -/
def AttemptOutcome.WellFormed : AttemptOutcome → Prop
  | .split outcomes => outcomes ≠ []
  | .flowControlFails _ | .selfPoll | .chooseFails _ | .whole _ => True

/-- The callback is consumed once and not touched after that. -/
def ConsumedOnce (uses : List CallbackUse) : Prop :=
  ∃ before use, uses = before ++ [use] ∧ use.consumes ∧ ∀ earlier ∈ before, earlier.consumes = false

/-- The post of the last fragment fails after its timer was finished. -/
def lateFailure : AttemptOutcome → Bool
  | .split outcomes => late outcomes
  | .flowControlFails _ | .selfPoll | .chooseFails _ | .whole _ => false
where
  late : List FragmentOutcome → Bool
    | .allocated .sent :: rest => late rest
    | .allocated (.postFails _ taken) :: rest => taken ∧ rest = []
    | [] | .allocFails :: _ | .allocated (.prepareFails _) :: _ => false

/-! ## One pass -/

theorem consumedOnce_singleton {use : CallbackUse} (consumes : use.consumes) : ConsumedOnce [use] :=
  ⟨[], use, rfl, consumes, nofun⟩

theorem ConsumedOnce.offer {uses : List CallbackUse} (once : ConsumedOnce uses) : ConsumedOnce (.offered :: uses) := by
  obtain ⟨before, use, rfl, consumes, earlier⟩ := once
  exact ⟨.offered :: before, use, rfl, consumes, forall_mem_cons.mpr ⟨rfl, earlier⟩⟩

/-- Something after a use that consumes the callback. -/
theorem not_consumedOnce {before after : List CallbackUse} {use : CallbackUse} (consumed : use ∈ before)
    (consumes : use.consumes)
    (more : after ≠ []) : ¬ ConsumedOnce (before ++ after) := by
  rintro ⟨earlier, last, same, _, unused⟩
  obtain ⟨rest, final, rfl⟩ := eq_nil_or_concat after |>.resolve_left more
  rw [concat_eq_append, ← append_assoc] at same
  have := (append_inj_left' same rfl).symm
  rw [unused use (this ▸ mem_append_left _ consumed)] at consumes
  exact nomatch consumes

theorem sendSplit_uses {outcomes : List FragmentOutcome} (some : outcomes ≠ []) :
    if lateFailure.late outcomes then (sendSplit outcomes).1 = [.run, .destroyed]
    else ConsumedOnce (sendSplit outcomes).1 := by
  fun_induction sendSplit outcomes with
  | case1 => exact absurd rfl some
  | case2 | case3 | case5 => exact consumedOnce_singleton rfl
  | case4 rest more ih => exact ih more
  | case6 failure taken rest =>
    rw [lateFailure.late]
    by_cases isLate : taken ∧ rest = []
    · simp [isLate]
    · simp only [isLate]
      exact consumedOnce_singleton rfl

variable {outcome : AttemptOutcome}

/-- A pass consumes the callback once, or runs it and destroys it. -/
theorem attempt_uses (wellFormed : outcome.WellFormed) :
    if lateFailure outcome then (attempt outcome).1 = [.offered, .run, .destroyed]
    else ConsumedOnce (attempt outcome).1 := by
  cases outcome with
  | flowControlFails failure => exact consumedOnce_singleton rfl
  | selfPoll | chooseFails failure => exact (consumedOnce_singleton rfl).offer
  | whole outcome =>
    apply ConsumedOnce.offer
    cases outcome with
    | sent | prepareFails failure => exact consumedOnce_singleton rfl
    | postFails failure taken => cases taken <;> exact consumedOnce_singleton rfl
  | split outcomes =>
    have uses := sendSplit_uses wellFormed
    rw [lateFailure, attempt]
    split
    next isLate =>
      rw [if_pos isLate] at uses
      rw [uses]
    next notLate =>
      rw [if_neg notLate] at uses
      exact uses.offer

theorem attempt_consumes (wellFormed : outcome.WellFormed) : ∃ use ∈ (attempt outcome).1, use.consumes := by
  have uses := attempt_uses wellFormed
  split at uses
  · rw [uses]
    exact ⟨.run, by simp, rfl⟩
  · obtain ⟨before, use, same, consumes, _⟩ := uses
    rw [same]
    exact ⟨use, by simp, consumes⟩

/-! ## The loop -/

theorem sendLoop_ne_nil {passes : List (AttemptOutcome × Bool)} (ends : Ends passes)
    (wellFormed : ∀ pass ∈ passes, pass.1.WellFormed) : sendLoop passes ≠ [] := by
  cases passes with
  | nil => exact ends.elim
  | cons pass rest =>
    obtain ⟨use, mem, _⟩ := attempt_consumes (wellFormed pass mem_cons_self)
    exact append_ne_nil_of_left_ne_nil (ne_nil_of_mem mem) _

/-- The user's callback is consumed exactly once, and not touched afterwards, exactly when the
request is valid, the first pass is not followed by a second one, and it does not end with the
post of the last fragment failing after its timer was finished. -/
theorem consumedOnce_asyncSend_iff (valid expired : Bool) (first : AttemptOutcome) (rest : List (AttemptOutcome × Bool))
    (ends : Ends ((first, expired) :: rest)) (wellFormed : ∀ pass ∈ (first, expired) :: rest, pass.1.WellFormed) :
    ConsumedOnce (asyncSend valid ((first, expired) :: rest)) ↔
      valid ∧ retries first expired = false ∧ lateFailure first = false := by
  have uses := attempt_uses (wellFormed _ mem_cons_self)
  cases valid with
  | false =>
    refine iff_of_false ?_ fun right => nomatch right.1
    rintro ⟨before, use, same, _⟩
    exact absurd same.symm (by simp [asyncSend])
  | true =>
    rw [asyncSend, if_pos rfl, sendLoop]
    cases again : retries first expired with
    | true =>
      refine iff_of_false ?_ fun right => nomatch right.2.1
      obtain ⟨use, mem, consumes⟩ := attempt_consumes (wellFormed _ mem_cons_self)
      exact not_consumedOnce mem consumes
        (sendLoop_ne_nil (ends again) fun pass mem => wellFormed pass (mem_cons_of_mem _ mem))
    | false =>
      rw [if_neg nofun, append_nil]
      cases late : lateFailure first with
      | true =>
        refine iff_of_false ?_ fun right => nomatch right.2.2
        rw [late] at uses
        rw [uses]
        exact @not_consumedOnce [.offered, .run] [.destroyed] .run (by simp) rfl nofun
      | false =>
        rw [late] at uses
        exact iff_of_true uses ⟨rfl, rfl, rfl⟩

/-- The second of three fragments cannot be posted. -/
def failingSplit : AttemptOutcome :=
  .split [.allocated .sent, .allocated (.postFails .otherFailure true), .allocated .sent]

/-- A split message, and one whose wrapper cannot be allocated when the time is over. -/
theorem consumedOnce_asyncSend_failingSplit :
    ConsumedOnce (asyncSend true [(failingSplit, false)]) ∧
      ConsumedOnce (asyncSend true [(.split [.allocated .sent, .allocFails], true)]) :=
  ⟨(consumedOnce_asyncSend_iff true false failingSplit [] nofun
      (by simp [AttemptOutcome.WellFormed, failingSplit])).mpr (by decide),
    (consumedOnce_asyncSend_iff true true (.split [.allocated .sent, .allocFails]) [] nofun
      (by simp [AttemptOutcome.WellFormed])).mpr (by decide)⟩

/-- The timer cannot be allocated in the first pass, so the callback is destroyed, and the second
pass sends with it. -/
theorem asyncSend_retries_with_destroyed :
    asyncSend true [(.whole (.prepareFails .newObjectFailed), false), (.whole .sent, false)] =
        [.offered, .destroyed, .offered, .run] ∧
      ¬ ConsumedOnce (asyncSend true [(.whole (.prepareFails .newObjectFailed), false), (.whole .sent, false)]) := by
  have uses : asyncSend true [(.whole (.prepareFails .newObjectFailed), false), (.whole .sent, false)] =
      [.offered, .destroyed, .offered, .run] := by decide
  refine ⟨uses, ?_⟩
  exact @not_consumedOnce [.offered, .destroyed] [.offered, .run] .destroyed (by simp) rfl nofun

end UbsComm.Service
