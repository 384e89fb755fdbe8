import Mathlib.Data.List.Nodup

/-! # One pass over a queue

A pass takes the entries of a queue from the front, each at most once; an entry that is
answered leaves the queue, and one that is not goes to its end.  The pass may stop
anywhere. -/

namespace UbsComm.Library

open List

variable {α : Type*}

structure FifoPass (waiting tried answered left : List α) : Prop where
  order : waiting = tried ++ left
  listed : answered.Sublist tried

variable {waiting tried answered left : List α} {head : α}

theorem FifoPass.start : FifoPass waiting [] [] waiting := ⟨rfl, List.Sublist.refl _⟩

section

variable (pass : FifoPass waiting tried answered (head :: left))
include pass

theorem FifoPass.fresh (once : waiting.Nodup) : head ∉ tried := by
  intro again
  rw [pass.order] at once
  exact disjoint_of_nodup_append once again mem_cons_self

theorem FifoPass.answer : FifoPass waiting (tried ++ [head]) (answered ++ [head]) left := by
  refine ⟨?_, pass.listed.append (List.Sublist.refl _)⟩
  rw [pass.order, append_assoc, singleton_append]

theorem FifoPass.keep : FifoPass waiting (tried ++ [head]) answered left := by
  refine ⟨?_, pass.listed.trans (sublist_append_left _ _)⟩
  rw [pass.order, append_assoc, singleton_append]

end

variable [DecidableEq α]

/-- The queue in the middle of a pass: the entries it has not come to, and behind them
those it came to in vain. -/
def requeued (tried answered left : List α) : List α := left ++ tried.filter (· ∉ answered)

theorem requeued_answer (pass : FifoPass waiting tried answered (head :: left)) (once : waiting.Nodup) :
    requeued (tried ++ [head]) (answered ++ [head]) left = left ++ tried.filter (· ∉ answered) := by
  have fresh := pass.fresh once
  have same : tried.filter (· ∉ answered ++ [head]) = tried.filter (· ∉ answered) := by
    refine filter_congr fun entry earlier => ?_
    have ne : entry ≠ head := fun same => fresh (same ▸ earlier)
    simp [ne]
  rw [requeued, filter_append, same]
  simp

theorem requeued_keep (pass : FifoPass waiting tried answered (head :: left)) (once : waiting.Nodup) :
    requeued (tried ++ [head]) answered left = left ++ tried.filter (· ∉ answered) ++ [head] := by
  have unanswered : head ∉ answered := fun already => pass.fresh once (pass.listed.subset already)
  rw [requeued]
  simp [unanswered]

/-- The queue holds exactly the entries that were not answered. -/
theorem FifoPass.requeued_perm (pass : FifoPass waiting tried answered left) (once : waiting.Nodup) :
    (requeued tried answered left).Perm (waiting.filter (· ∉ answered)) := by
  rw [pass.order] at once
  have untouched : left.filter (· ∉ answered) = left := by
    rw [filter_eq_self]
    intro entry later
    exact decide_eq_true fun already =>
      disjoint_of_nodup_append once (pass.listed.subset already) later
  rw [pass.order, filter_append, untouched]
  exact perm_append_comm

end UbsComm.Library
