import UbsComm.Ub.Basic
import UbsComm.Library.Run
import Mathlib.Data.List.Nodup

/-! # The retry lists of flow-control messages

A request whose answer could not be sent is kept in a node of a fixed pool until a drain
processes it again.  A node is in the free list, in `retry_list`, or in `no_jetty_list`.
The two waiting lists are chosen twice, by `umq_ub_fc_msg_retry_enqueue` from the type of
the entry and by `umq_ub_fc_msg_retry_dequeue` from the error of the new try; and a drain
walks a list while the second choice may move the entry it is at to the list's end. -/

namespace UbsComm.FlowControl

open Ub Library List Function

inductive RetryType where
  | noJetty | eagain | other
  deriving DecidableEq

structure RetryEntry where
  imm : UInt64
  retryType : RetryType
  enqueueUs : UInt64

inductive WaitList where
  | retry | noJetty
  deriving DecidableEq

/-- `umq_ub_fc_msg_retry_list_t`; `entry` is the node array. -/
structure FcMsgRetryList (N : Type) where
  freeList : List N
  retryList : List N
  noJettyList : List N
  entry : N → RetryEntry

variable {N : Type} [DecidableEq N] {other : N}

namespace FcMsgRetryList

variable (lists : FcMsgRetryList N)

def list : WaitList → List N
  | .retry => lists.retryList
  | .noJetty => lists.noJettyList

def pushBack (node : N) : WaitList → FcMsgRetryList N
  | .retry => { lists with retryList := lists.retryList ++ [node] }
  | .noJetty => { lists with noJettyList := lists.noJettyList ++ [node] }

/-- `urpc_list_remove` unlinks a node from the list it is in. -/
def unlink (node : N) : FcMsgRetryList N :=
  { lists with
    freeList := lists.freeList.erase node
    retryList := lists.retryList.erase node
    noJettyList := lists.noJettyList.erase node }

def release (node : N) : FcMsgRetryList N :=
  { lists.unlink node with freeList := (lists.unlink node).freeList ++ [node] }

def setType (node : N) (retryType : RetryType) : FcMsgRetryList N :=
  { lists with entry := update lists.entry node { lists.entry node with retryType } }

def firstList : RetryType → WaitList
  | .noJetty => .noJetty
  | .eagain | .other => .retry

/-- `umq_ub_fc_msg_retry_enqueue`: dropped when it is empty or no node is free. -/
def enqueue (imm : UInt64) (retryType : RetryType) (now : UInt64) : FcMsgRetryList N :=
  if imm = 0 then lists
  else match lists.freeList with
    | [] => lists
    | node :: rest =>
      { lists with
        freeList := rest
        entry := update lists.entry node ⟨imm, retryType, now⟩ }.pushBack node (firstList retryType)

/-- The errors of a first try that are worth another one (`umq_ub_process_fc_msg_with_retry`). -/
def firstType : UmqErr → Option RetryType
  | .emlink => some .noJetty
  | .eflowctlEagain => some .eagain
  | _ => none

def processWithRetry (imm : UInt64) (ret : Except UmqErr Nat) (now : UInt64) : FcMsgRetryList N :=
  match ret with
  | .ok _ => lists
  | .error err =>
    match firstType err with
    | none => lists
    | some retryType => lists.enqueue imm retryType now

end FcMsgRetryList

/-- What one more try of an entry meets: whether its queue still exists, what
`umq_ub_process_fc_msg` returns, the clock, and how many buffers an error report takes. -/
structure RetryAttempt where
  found : Bool
  ret : Except UmqErr Nat
  now : UInt64
  errBufs : Nat

def fcMsgRetryTimeoutUs : UInt64 := 100000

def RetryAttempt.expired (attempt : RetryAttempt) (entry : RetryEntry) : Bool :=
  entry.retryType ≠ .noJetty && attempt.now - entry.enqueueUs ≥ fcMsgRetryTimeoutUs

namespace FcMsgRetryList

/-- The type and the list of an entry that failed again. -/
def requeue : UmqErr → Option (RetryType × WaitList)
  | .emlink => some (.noJetty, .noJetty)
  | .eflowctlEagain => some (.eagain, .noJetty)
  | _ => none

/-- `umq_ub_fc_msg_retry_dequeue`, with the number of buffers it filled. -/
def dequeue (lists : FcMsgRetryList N) (node : N) (attempt : RetryAttempt) : FcMsgRetryList N × Nat :=
  if !attempt.found then (lists.release node, 0)
  else match attempt.ret with
    | .ok bufs => (lists.release node, bufs)
    | .error err =>
      if attempt.expired (lists.entry node) then (lists.release node, attempt.errBufs)
      else match requeue err with
        | none => (lists.release node, attempt.errBufs)
        | some (retryType, wantList) =>
          -- an entry that keeps its type stays where it is
          if (lists.entry node).retryType ≠ retryType then
            (((lists.setType node retryType).unlink node).pushBack node wantList, 0)
          else (lists, 0)

end FcMsgRetryList

/-- A call of `umq_ub_fc_msg_retry_drain`: the room for buffers, what the tries of each entry
meet (its first one, its second one, …), and whether a jetty is available before each try. -/
structure DrainCall (N : Type) where
  bufCount : Nat
  results : N → Nat → RetryAttempt
  hasAvail : Nat → Bool

/-- A drain under way; `tried` logs its tries. -/
structure Drain (N : Type) where
  lists : FcMsgRetryList N
  tried : List N
  qbufCnt : Nat

/-- The node behind a node of a list; none if the head of the list comes next. -/
def after (node : N) : List N → Option N
  | [] => none
  | other :: rest => if other = node then rest.head? else after node rest

namespace Drain

variable (call : DrainCall N)

def stops (drain : Drain N) (name : WaitList) : Bool :=
  decide (call.bufCount ≤ drain.qbufCnt) || name == .noJetty && !call.hasAvail drain.tried.length

def visit (drain : Drain N) (node : N) : Drain N :=
  let result := drain.lists.dequeue node (call.results node (drain.tried.count node))
  ⟨result.1, drain.tried ++ [node], drain.qbufCnt + result.2⟩

/-- `URPC_LIST_FOR_EACH_SAFE` with the body of the drain: the next node is read before the
entry is tried.  The fuel counts tries; `none` says that they did not suffice. -/
def walk (name : WaitList) : Nat → Option N → Drain N → Option (Drain N)
  | _, none, drain => some drain
  | 0, some _, drain => if drain.stops call name then some drain else none
  | fuel + 1, some node, drain =>
    if drain.stops call name then some drain
    else walk name fuel (after node (drain.lists.list name)) (drain.visit call node)

end Drain

namespace FcMsgRetryList

def drain (lists : FcMsgRetryList N) (call : DrainCall N) (fuel : Nat) : Option (Drain N) :=
  match Drain.walk call .noJetty fuel lists.noJettyList.head? ⟨lists, [], 0⟩ with
  | none => none
  | some first => Drain.walk call .retry fuel first.lists.retryList.head? first

end FcMsgRetryList

/-- A message is processed for the first time, or the lists are drained and the drain returns
within the given number of tries. -/
inductive RetryAction (N : Type) where
  | message (imm : UInt64) (ret : Except UmqErr Nat) (now : UInt64)
  | drain (call : DrainCall N) (fuel : Nat)

def FcMsgRetryList.step (lists : FcMsgRetryList N) : RetryAction N → FcMsgRetryList N
  | .message imm ret now => lists.processWithRetry imm ret now
  | .drain call fuel => ((lists.drain call fuel).map Drain.lists).getD lists

/-! ## Where a node is -/

namespace FcMsgRetryList

variable {lists : FcMsgRetryList N} {nodes : List N} {node : N} {name : WaitList}

/-- How often a node is in one of the three lists. -/
def total (lists : FcMsgRetryList N) (node : N) : Nat :=
  lists.freeList.count node + lists.retryList.count node + lists.noJettyList.count node

theorem count_list_le (name : WaitList) (node : N) :
    (lists.list name).count node ≤ lists.total node := by
  cases name <;> simp only [list, total] <;> omega

theorem total_pushBack :
    (lists.pushBack node name).total other = lists.total other + if node = other then 1 else 0 := by
  cases name <;> simp [pushBack, total, count_singleton] <;> omega

theorem total_unlink (here : lists.total node = 1) (other : N) :
    (lists.unlink node).total other + (if node = other then 1 else 0) = lists.total other := by
  simp only [total, unlink, count_erase, beq_iff_eq] at here ⊢
  by_cases same : node = other
  · subst same
    simp only [if_true]
    omega
  · simp [same]

theorem total_release (here : lists.total node = 1) (other : N) :
    (lists.release node).total other = lists.total other := by
  rw [← total_unlink here other]
  simp only [release, total, count_append, count_singleton, beq_iff_eq]
  omega

theorem total_setType {retryType : RetryType} :
    (lists.setType node retryType).total other = lists.total other := rfl

theorem release_list :
    (lists.release node).list name = (lists.list name).erase node := by
  cases name <;> rfl

def Partitioned (nodes : List N) (lists : FcMsgRetryList N) : Prop :=
  ∀ node, lists.total node = if node ∈ nodes then 1 else 0

variable {name : WaitList} {retryType : RetryType} {imm now : UInt64}

theorem Partitioned.known (partitioned : Partitioned nodes lists) (mem : node ∈ lists.list name) : node ∈ nodes := by
  by_contra unknown
  have counted := lists.count_list_le name node
  have pos := count_pos_iff.mpr mem
  rw [partitioned node, if_neg unknown] at counted
  omega

theorem Partitioned.enqueue (partitioned : Partitioned nodes lists) (imm : UInt64) (retryType : RetryType)
    (now : UInt64) : Partitioned nodes (lists.enqueue imm retryType now) := by
  unfold FcMsgRetryList.enqueue
  split
  · exact partitioned
  · cases first : lists.freeList with
    | nil => exact partitioned
    | cons node rest =>
      intro other
      rw [total_pushBack, ← partitioned other]
      simp only [total, first, count_cons, beq_iff_eq]
      omega

/-- The lists as they should be: a waiting node is in the list that a first enqueue with its
type would choose. -/
structure Right (nodes : List N) (lists : FcMsgRetryList N) : Prop where
  once : lists.Partitioned nodes
  placed : ∀ name, ∀ node ∈ lists.list name, firstList (lists.entry node).retryType = name
  assigned : ∀ name, ∀ node ∈ lists.list name, (lists.entry node).retryType ≠ .other

section

variable (right : Right nodes lists)
include right

theorem Right.here (mem : node ∈ lists.list name) : lists.total node = 1 := by
  have counted := lists.count_list_le name node
  have pos := count_pos_iff.mpr mem
  have once := right.once node
  split at once <;> omega

theorem Right.nodup (name : WaitList) : (lists.list name).Nodup := by
  rw [nodup_iff_count_le_one]
  intro node
  have counted := lists.count_list_le name node
  have once := right.once node
  split at once <;> omega

theorem Right.apart (mem : node ∈ lists.noJettyList) : node ∉ lists.retryList := by
  intro both
  have here := right.here (show node ∈ lists.list .noJetty from mem)
  have first := count_pos_iff.mpr mem
  have second := count_pos_iff.mpr both
  simp only [total] at here
  omega

theorem Right.noJettyType (mem : node ∈ lists.noJettyList) : (lists.entry node).retryType = .noJetty := by
  have placed := right.placed .noJetty node mem
  cases type : (lists.entry node).retryType with
  | noJetty => rfl
  | eagain => simp [type, firstList] at placed
  | other => simp [type, firstList] at placed

theorem Right.eagainType (mem : node ∈ lists.retryList) : (lists.entry node).retryType = .eagain := by
  have placed := right.placed .retry node mem
  have assigned := right.assigned .retry node mem
  cases type : (lists.entry node).retryType with
  | noJetty => simp [type, firstList] at placed
  | eagain => rfl
  | other => exact absurd type assigned

theorem Right.release (mem : node ∈ lists.list name) : Right nodes (lists.release node) where
  once other := by rw [total_release (right.here mem), right.once]
  placed other waiting left := by
    rw [release_list] at left
    exact right.placed other waiting (mem_of_mem_erase left)
  assigned other waiting left := by
    rw [release_list] at left
    exact right.assigned other waiting (mem_of_mem_erase left)

/-- An entry of the retry list that meets a lack of jetties changes its type and its list. -/
theorem Right.move (mem : node ∈ lists.retryList) :
    Right nodes (((lists.setType node .noJetty).unlink node).pushBack node .noJetty) := by
  have here : (lists.setType node .noJetty).total node = 1 :=
    right.here (show node ∈ lists.list .retry from mem)
  have rest : ∀ name, ∀ other ∈ (((lists.setType node .noJetty).unlink node).pushBack node .noJetty).list name,
      (other = node ∧ name = .noJetty) ∨ (other ≠ node ∧ other ∈ lists.list name) := by
    intro name other waiting
    cases name with
    | retry =>
      have nodup := right.nodup .retry
      exact .inr ((nodup.mem_erase_iff).mp waiting)
    | noJetty =>
      simp only [list, pushBack, mem_append, mem_singleton] at waiting
      cases waiting with
      | inl old => exact .inr ((right.nodup .noJetty).mem_erase_iff.mp old)
      | inr new => exact .inl ⟨new, rfl⟩
  refine ⟨fun other => ?_, fun name other waiting => ?_, fun name other waiting => ?_⟩
  · rw [total_pushBack, total_unlink here, total_setType, right.once]
  · obtain ⟨rfl, rfl⟩ | ⟨ne, old⟩ := rest name other waiting
    · simp [pushBack, unlink, setType, firstList]
    · have same := right.placed name other old
      simpa [pushBack, unlink, setType, ne] using same
  · obtain ⟨rfl, rfl⟩ | ⟨ne, old⟩ := rest name other waiting
    · simp [pushBack, unlink, setType]
    · have same := right.assigned name other old
      simpa [pushBack, unlink, setType, ne] using same

/-- A node out of the free list is in neither of the others. -/
theorem Right.free {rest : List N} (first : lists.freeList = node :: rest) :
    node ∉ lists.list name := by
  intro mem
  have here := right.here mem
  have waits := count_pos_iff.mpr mem
  cases name <;> simp only [list, total, first, count_cons_self] at here waits <;> omega

theorem Right.enqueue (known : retryType ≠ .other) : Right nodes (lists.enqueue imm retryType now) := by
  unfold FcMsgRetryList.enqueue
  split
  · exact right
  · rename_i given
    cases first : lists.freeList with
    | nil => exact right
    | cons node rest =>
      have rest' : ∀ name, ∀ other ∈ ({ lists with
          freeList := rest
          entry := update lists.entry node ⟨imm, retryType, now⟩ }.pushBack node
            (firstList retryType)).list name,
          (other = node ∧ name = firstList retryType) ∨ (other ≠ node ∧ other ∈ lists.list name) := by
        intro name other waiting
        have old : other ∈ lists.list name → other ≠ node := by
          rintro mem rfl
          exact right.free first mem
        cases chosen : firstList retryType <;> cases name <;>
          simp only [pushBack, list] at waiting old ⊢ <;> grind
      refine ⟨fun other => ?_, fun name other waiting => ?_, fun name other waiting => ?_⟩
      · have once := right.once.enqueue imm retryType now other
        rw [FcMsgRetryList.enqueue, if_neg given, first] at once
        exact once
      · obtain ⟨rfl, rfl⟩ | ⟨ne, old⟩ := rest' name other waiting
        · cases chosen : firstList retryType <;> simp [pushBack, chosen]
        · have same := right.placed name other old
          cases chosen : firstList retryType <;> simpa [pushBack, ne] using same
      · obtain ⟨rfl, rfl⟩ | ⟨ne, old⟩ := rest' name other waiting
        · cases chosen : firstList retryType <;> simpa [pushBack] using known
        · have same := right.assigned name other old
          cases chosen : firstList retryType <;> simpa [pushBack, ne] using same

end

theorem firstType_known {err : UmqErr} (again : firstType err = some retryType) : retryType ≠ .other := by
  cases err <;> simp [firstType] at again <;> subst again <;> decide

theorem Right.message (right : Right nodes lists) {ret : Except UmqErr Nat} :
    Right nodes (lists.processWithRetry imm ret now) := by
  cases ret with
  | ok bufs => exact right
  | error err =>
    simp only [processWithRetry]
    split
    · exact right
    · rename_i retryType again
      exact right.enqueue (firstType_known again)

/-! ## One try -/

end FcMsgRetryList

/-- The answer meets a full send queue. -/
def RetryAttempt.again (attempt : RetryAttempt) : Bool :=
  attempt.found && match attempt.ret with
    | .error .eflowctlEagain => true
    | _ => false

/-- The buffers a try of an entry that waits for a jetty fills; such an entry never expires. -/
def RetryAttempt.bufs (attempt : RetryAttempt) : Nat :=
  if !attempt.found then 0
  else match attempt.ret with
    | .ok bufs => bufs
    | .error err => if (FcMsgRetryList.requeue err).isSome then 0 else attempt.errBufs

namespace FcMsgRetryList

variable {lists : FcMsgRetryList N} {nodes : List N} {node : N}

/-- An entry that waits for a jetty leaves the lists, stays, or, if its answer meets a full
send queue, goes to the end of the list it was in, as an entry of another type. -/
theorem dequeue_noJetty (attempt : RetryAttempt)
    (type : (lists.entry node).retryType = .noJetty) :
    (attempt.again = false ∧ (lists.dequeue node attempt = (lists.release node, attempt.bufs) ∨
        lists.dequeue node attempt = (lists, attempt.bufs))) ∨
      (attempt.again = true ∧ lists.dequeue node attempt =
        (((lists.setType node .eagain).unlink node).pushBack node .noJetty, attempt.bufs)) := by
  have lasting : attempt.expired (lists.entry node) = false := by simp [RetryAttempt.expired, type]
  unfold dequeue RetryAttempt.bufs RetryAttempt.again
  cases found : attempt.found with
  | false => exact .inl ⟨by simp, .inl (by simp)⟩
  | true =>
    cases ret : attempt.ret with
    | ok bufs => exact .inl ⟨by simp, .inl (by simp)⟩
    | error err => cases err <;> simp [lasting, requeue, type]

/-- An entry leaves the lists, stays, or goes to the list of those that wait for a jetty with another type. -/
theorem dequeue_cases (node : N) (attempt : RetryAttempt) :
    (lists.dequeue node attempt).1 = lists.release node ∨ (lists.dequeue node attempt).1 = lists ∨
      ∃ retryType ≠ .other, retryType ≠ (lists.entry node).retryType ∧ (lists.dequeue node attempt).1 =
        ((lists.setType node retryType).unlink node).pushBack node .noJetty := by
  unfold dequeue
  cases attempt.found with
  | false => exact .inl (by simp)
  | true =>
    cases attempt.ret with
    | ok bufs => exact .inl (by simp)
    | error err =>
      cases attempt.expired (lists.entry node) with
      | true => exact .inl (by simp)
      | false =>
        cases known : requeue err with
        | none => exact .inl (by simp [known])
        | some want =>
          have list : want.1 ≠ .other ∧ want.2 = .noJetty := by
            cases err <;> simp [requeue] at known <;> subst known <;> decide
          by_cases same : (lists.entry node).retryType = want.1
          · exact .inr (.inl (by simp [known, same]))
          · exact .inr (.inr ⟨want.1, list.1, Ne.symm same, by simp [known, same, list]⟩)

theorem dequeue_other (attempt : RetryAttempt) (ne : other ≠ node) :
    (other ∈ (lists.dequeue node attempt).1.noJettyList ↔ other ∈ lists.noJettyList) ∧
      (lists.dequeue node attempt).1.entry other = lists.entry other := by
  obtain result | result | ⟨retryType, -, -, result⟩ := lists.dequeue_cases node attempt <;> rw [result]
  · exact ⟨mem_erase_of_ne ne, rfl⟩
  · exact ⟨Iff.rfl, rfl⟩
  · simp [pushBack, unlink, setType, ne]

end FcMsgRetryList

end UbsComm.FlowControl
