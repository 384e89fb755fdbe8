import UbsComm.Ub.Basic
import Mathlib.Data.List.Nodup

/-! # The round-robin poll over the borrowed jetty nodes

The poll walks the compact array of live slots from a cursor that it keeps for the next call.  A node that is
created goes to the end of the array; when one is destroyed the array closes up and the cursor follows. -/

namespace UbsComm.Ub

open List

/-- What the nodes have for one call of the poll. -/
structure NodePolls where
  txOutstanding : Nat → Nat
  umqUbPollTxSingle : Nat → Nat → Int

def NodePolls.gain (polls : NodePolls) (slot remaining : Nat) : Nat :=
  if polls.txOutstanding slot ≠ 0 then (polls.umqUbPollTxSingle slot (min remaining umqBatchSize)).toNat else 0

structure JettyNodeList where
  validIdx : List Nat
  nextPollIdx : Nat

/-- The positions a poll has visited, and where it leaves off. -/
structure PollScan where
  visited : List Nat
  qbufCnt : Nat
  currentPos : Nat

/-- What goes on between and in the polls; a poll with no room for a buffer does not get here. -/
inductive NodeListAction where
  | poll (polls : NodePolls) (bufCount : { count : Nat // 0 < count })
  | register (slot : Nat)
  | unregister (slot : Nat)

namespace JettyNodeList

variable (list : JettyNodeList)

def validCnt : Nat := list.validIdx.length

def startIdx : Nat := if list.nextPollIdx ≥ list.validCnt then 0 else list.nextPollIdx

/-- The loop of `umq_ub_poll_tx_round_robin`, with the number of rounds left by `scanned < cnt`. -/
def scan (list : JettyNodeList) (polls : NodePolls) (bufCount startIdx : Nat) : Nat → Nat → Nat → Bool → PollScan
  | 0, qbufCnt, currentPos, _ => ⟨[], qbufCnt, currentPos⟩
  | left + 1, qbufCnt, visiting, wrapped =>
    if qbufCnt < bufCount then
      let qbufCnt := qbufCnt + polls.gain (list.validIdx.getD visiting 0) (bufCount - qbufCnt)
      let atEnd := visiting + 1 ≥ list.validCnt
      let currentPos := if atEnd then 0 else visiting + 1
      if (wrapped ∧ atEnd) ∨ ((wrapped ∨ atEnd) ∧ currentPos ≥ startIdx) then ⟨[visiting], qbufCnt, currentPos⟩
      else
        let rest := scan list polls bufCount startIdx left qbufCnt currentPos (wrapped ∨ atEnd)
        { rest with visited := visiting :: rest.visited }
    else ⟨[], qbufCnt, visiting⟩

def umqUbPollTxRoundRobin (polls : NodePolls) (bufCount : Nat) : JettyNodeList × PollScan :=
  if list.validCnt = 0 then (list, ⟨[], 0, 0⟩)
  else
    let scanned := list.scan polls bufCount list.startIdx list.validCnt 0 list.startIdx false
    ({ list with nextPollIdx := if scanned.currentPos ≥ list.validCnt then 0 else scanned.currentPos }, scanned)

/-- The end of the creation of a node. -/
def register (slot : Nat) : JettyNodeList := { list with validIdx := list.validIdx ++ [slot] }

/-- The end of the destruction of a node. -/
def unregister (slot : Nat) : JettyNodeList :=
  let pos := list.validIdx.idxOf slot
  if pos < list.validCnt then
    ⟨list.validIdx.eraseIdx pos, if pos < list.nextPollIdx then list.nextPollIdx - 1 else list.nextPollIdx⟩
  else list

/-- The position that comes up after the given number of others. -/
def turn (others : Nat) : Nat :=
  if list.startIdx + others < list.validCnt then list.startIdx + others
  else list.startIdx + others - list.validCnt

variable {list} {slot : Nat}

theorem startIdx_cases {list : JettyNodeList} :
    list.validCnt ≤ list.nextPollIdx ∧ list.startIdx = 0 ∨
      list.nextPollIdx < list.validCnt ∧ list.startIdx = list.nextPollIdx := by
  rw [startIdx]
  split <;> omega

theorem startIdx_lt (nonempty : 0 < list.validCnt) : list.startIdx < list.validCnt := by
  have cases := list.startIdx_cases
  omega

theorem turn_lt {others : Nat} (nonempty : 0 < list.validCnt) (bound : others ≤ list.validCnt) :
    list.turn others < list.validCnt := by
  have start := startIdx_lt nonempty
  unfold turn
  split_ifs <;> omega

/-- From turn `index` on, `count` positions were visited, all that were left unless the buffer is full. -/
structure Turns (list : JettyNodeList) (bufCount index left : Nat) (result : PollScan) (count : Nat) : Prop where
  bound : count ≤ left
  visited : result.visited = (range' index count).map list.turn
  currentPos : result.currentPos = list.turn (index + count)
  complete : count = left ∨ bufCount ≤ result.qbufCnt

/-- The breaks of the loop come when all positions have had their turns. -/
theorem scan_turns (nonempty : 0 < list.validCnt) (polls : NodePolls) (bufCount left index qbufCnt : Nat)
    (turns : index + left = list.validCnt) :
    ∃ count, list.Turns bufCount index left (list.scan polls bufCount list.startIdx left qbufCnt (list.turn index)
        (list.validCnt ≤ list.startIdx + index)) count ∧
      (0 < left → qbufCnt < bufCount → 0 < count) := by
  induction left generalizing index qbufCnt with
  | zero => exact ⟨0, ⟨Nat.le_refl 0, rfl, rfl, .inl rfl⟩, fun none => absurd none (Nat.lt_irrefl 0)⟩
  | succ left ih =>
    have start := startIdx_lt nonempty
    have advance :
        (if list.turn index + 1 ≥ list.validCnt then 0 else list.turn index + 1) = list.turn (index + 1) := by
      unfold turn
      split_ifs <;> omega
    have wraps : list.validCnt ≤ list.startIdx + index ∨ list.turn index + 1 ≥ list.validCnt ↔
        list.validCnt ≤ list.startIdx + (index + 1) := by
      unfold turn
      split_ifs <;> omega
    rw [scan]
    split
    case isFalse full =>
      exact ⟨0, ⟨Nat.zero_le _, rfl, rfl, .inr (Nat.le_of_not_lt full)⟩, fun _ room => absurd room full⟩
    simp only [decide_eq_true_eq, advance, wraps]
    split
    next stop =>
      have last : left = 0 := by
        unfold turn at stop
        split_ifs at stop <;> omega
      exact ⟨1, ⟨by omega, rfl, rfl, .inl (by omega)⟩, fun _ _ => Nat.one_pos⟩
    next =>
      obtain ⟨count, rest, -⟩ := ih (index + 1) _ (by omega)
      refine ⟨count + 1, ⟨Nat.succ_le_succ rest.bound, ?_, ?_, ?_⟩, fun _ _ => Nat.succ_pos count⟩
      · exact congrArg _ rest.visited
      · exact rest.currentPos.trans (congrArg list.turn (by omega))
      · exact rest.complete.imp (congrArg Nat.succ) id

/-- One call visits the positions in their turns, each at most once and all of them unless the buffer is full, and
the next call begins where it left off. -/
theorem umqUbPollTxRoundRobin_turns (nonempty : 0 < list.validCnt) (polls : NodePolls) (bufCount : Nat) :
    ∃ count, list.Turns bufCount 0 list.validCnt (list.umqUbPollTxRoundRobin polls bufCount).2 count ∧
      (list.umqUbPollTxRoundRobin polls bufCount).1 = { list with nextPollIdx := list.turn count } ∧
      (0 < bufCount → 0 < count) := by
  have start := startIdx_lt nonempty
  obtain ⟨count, turns, progress⟩ := scan_turns nonempty polls bufCount list.validCnt 0 0 (Nat.zero_add _)
  have first : list.turn 0 = list.startIdx := if_pos start
  rw [first, Nat.add_zero, decide_eq_false (Nat.not_le.2 start)] at turns
  rw [umqUbPollTxRoundRobin, if_neg (Nat.ne_of_gt nonempty)]
  refine ⟨count, turns, ?_, progress nonempty⟩
  dsimp only
  rw [turns.currentPos, Nat.zero_add, if_neg (Nat.not_le.2 (turn_lt nonempty turns.bound))]

/-! ## Every node has its turn -/

/-- How many others come up before a slot. -/
def ahead (list : JettyNodeList) (slot : Nat) : Nat :=
  if list.startIdx ≤ list.validIdx.idxOf slot then list.validIdx.idxOf slot - list.startIdx
  else list.validIdx.idxOf slot + list.validCnt - list.startIdx

/-- The list behind an action, and the slots it visited. -/
def step (list : JettyNodeList) : NodeListAction → JettyNodeList × List Nat
  | .poll polls bufCount =>
    let polled := list.umqUbPollTxRoundRobin polls bufCount
    (polled.1, polled.2.visited.map (list.validIdx.getD · 0))
  | .register slot => (list.register slot, [])
  | .unregister slot => (list.unregister slot, [])

def visits (list : JettyNodeList) : List NodeListAction → List Nat
  | [] => []
  | action :: actions => (list.step action).2 ++ (list.step action).1.visits actions

def calls : List NodeListAction → Nat
  | [] => 0
  | .poll _ _ :: actions => calls actions + 1
  | .register _ :: actions | .unregister _ :: actions => calls actions

def created : List NodeListAction → Nat
  | [] => 0
  | .register _ :: actions => created actions + 1
  | .poll _ _ :: actions | .unregister _ :: actions => created actions

theorem turn_ahead (mem : slot ∈ list.validIdx) :
    list.turn (list.ahead slot) = list.validIdx.idxOf slot ∧ list.ahead slot < list.validCnt := by
  have place : list.validIdx.idxOf slot < list.validCnt := idxOf_lt_length_iff.2 mem
  have start := startIdx_lt (Nat.zero_lt_of_lt place)
  unfold turn ahead
  split_ifs <;> omega

theorem ahead_poll (mem : slot ∈ list.validIdx) {polls : NodePolls} {bufCount : { count : Nat // 0 < count }}
    (missed : slot ∉ (list.step (.poll polls bufCount)).2) :
    slot ∈ (list.step (.poll polls bufCount)).1.validIdx ∧
      (list.step (.poll polls bufCount)).1.ahead slot + 1 ≤ list.ahead slot := by
  obtain ⟨comes, bound⟩ := turn_ahead mem
  have nonempty := Nat.zero_lt_of_lt bound
  have place : list.validIdx.idxOf slot < list.validIdx.length := idxOf_lt_length_iff.2 mem
  obtain ⟨count, turns, next, progress⟩ := list.umqUbPollTxRoundRobin_turns nonempty polls bufCount.val
  -- a slot whose turn came was visited
  have later : count ≤ list.ahead slot := by
    by_contra early
    refine missed (mem_map.2 ⟨list.validIdx.idxOf slot, ?_, ?_⟩)
    · rw [turns.visited, ← comes]
      exact mem_map_of_mem (mem_range'_1.2 (by omega))
    · rw [getD_eq_getElem?_getD, getElem?_eq_getElem place, getElem_idxOf]
      rfl
  have begins : ({ list with nextPollIdx := list.turn count } : JettyNodeList).startIdx = list.turn count :=
    if_neg (Nat.not_le.2 (turn_lt nonempty turns.bound))
  simp only [step, next]
  refine ⟨mem, ?_⟩
  rw [ahead, begins]
  change (if list.turn count ≤ list.validIdx.idxOf slot then list.validIdx.idxOf slot - list.turn count
    else list.validIdx.idxOf slot + list.validCnt - list.turn count) + 1 ≤ list.ahead slot
  unfold turn ahead at *
  split_ifs at * <;> omega

theorem ahead_register (mem : slot ∈ list.validIdx) (added : Nat) :
    (list.register added).ahead slot ≤ list.ahead slot + 1 := by
  have before := list.startIdx_cases
  have after := (list.register added).startIdx_cases
  have length : (list.register added).validCnt = list.validCnt + 1 := length_append
  have cursor : (list.register added).nextPollIdx = list.nextPollIdx := rfl
  rw [ahead, ahead, show (list.register added).validIdx.idxOf slot = _ from idxOf_append_of_mem mem]
  split_ifs <;> omega

theorem idxOf_eraseIdx {slots : List Nat} {removed : Nat} (other : slot ≠ removed) :
    (slots.eraseIdx (slots.idxOf removed)).idxOf slot =
      if slots.idxOf removed < slots.idxOf slot then slots.idxOf slot - 1 else slots.idxOf slot := by
  induction slots with
  | nil => rfl
  | cons head slots ih =>
    obtain rfl | first := eq_or_ne head removed
    · simp [idxOf_cons_ne _ (Ne.symm other)]
    · rw [idxOf_cons_ne _ first, eraseIdx_cons_succ]
      obtain rfl | same := eq_or_ne head slot
      · simp
      · rw [idxOf_cons_ne _ same, idxOf_cons_ne _ same, ih]
        split_ifs <;> omega

theorem ahead_unregister (mem : slot ∈ list.validIdx) {removed : Nat} (other : slot ≠ removed) :
    slot ∈ (list.unregister removed).validIdx ∧ (list.unregister removed).ahead slot ≤ list.ahead slot := by
  have place : list.validIdx.idxOf slot < list.validIdx.length := idxOf_lt_length_iff.2 mem
  have before := list.startIdx_cases
  have after := (list.unregister removed).startIdx_cases
  unfold ahead
  revert after
  rw [unregister]
  split
  case isFalse => exact fun _ => ⟨mem, Nat.le_refl _⟩
  next found =>
    intro after
    have moved := @idxOf_eraseIdx _ list.validIdx _ other
    have length := length_eraseIdx_of_lt found
    have apart : list.validIdx.idxOf removed ≠ list.validIdx.idxOf slot :=
      fun same => other ((idxOf_inj mem).1 same.symm)
    simp only [validCnt] at before after found ⊢
    refine ⟨idxOf_lt_length_iff.1 ?_, ?_⟩
    · rw [moved]
      split_ifs <;> omega
    · split_ifs at * <;> omega

theorem mem_visits {actions : List NodeListAction} (mem : slot ∈ list.validIdx)
    (stays : .unregister slot ∉ actions) (often : list.ahead slot + created actions < calls actions) :
    slot ∈ list.visits actions := by
  induction actions generalizing list with
  | nil => exact absurd often (Nat.not_lt_zero _)
  | cons action actions ih =>
    obtain ⟨notNow, later⟩ := not_or.1 (mt mem_cons.2 stays)
    rw [visits, mem_append, or_iff_not_imp_left]
    intro missed
    cases action with
    | poll polls bufCount =>
      obtain ⟨still, closer⟩ := ahead_poll mem missed
      rw [created, calls] at often
      exact ih still later (by omega)
    | register added =>
      have further := ahead_register mem added
      rw [created, calls] at often
      exact ih (mem_append_left _ mem) later (by dsimp only [step]; omega)
    | unregister removed =>
      have other : slot ≠ removed := fun same => notNow (congrArg _ same)
      obtain ⟨still, closer⟩ := ahead_unregister mem other
      rw [created, calls] at often
      exact ih still later (by dsimp only [step]; omega)

/-- A call visits the positions in their turns, each at most once and all of them unless the buffer is full, and the
next call begins at the turn after them.  A node is visited before the calls outnumber the nodes that were ahead of it
or were created meanwhile. -/
theorem umqUbPollTxRoundRobin_fair (list : JettyNodeList) :
    (∀ polls bufCount, 0 < list.validCnt →
      ∃ count, list.Turns bufCount 0 list.validCnt (list.umqUbPollTxRoundRobin polls bufCount).2 count ∧
        (list.umqUbPollTxRoundRobin polls bufCount).2.visited.Nodup ∧
        (list.umqUbPollTxRoundRobin polls bufCount).1 = { list with nextPollIdx := list.turn count } ∧
        (0 < bufCount → 0 < count)) ∧
      ∀ slot ∈ list.validIdx, ∀ actions : List NodeListAction, .unregister slot ∉ actions →
        list.ahead slot + created actions < calls actions → slot ∈ list.visits actions := by
  refine ⟨fun polls bufCount nonempty => ?_, fun slot mem actions => mem_visits mem⟩
  obtain ⟨count, turns, rest⟩ := umqUbPollTxRoundRobin_turns nonempty polls bufCount
  refine ⟨count, turns, ?_, rest⟩
  rw [turns.visited]
  refine List.Nodup.map_on (fun first firstIn second secondIn same => ?_) nodup_range'
  have bound := turns.bound
  rw [mem_range'_1] at firstIn secondIn
  unfold turn at same
  split_ifs at same <;> omega

/-- Every node has more completions than there is room for. -/
def busyPolls : NodePolls := ⟨fun _ => 1, fun _ batch => batch⟩

/-- Between two polls a node is created, and the one just polled is destroyed. -/
def churn : Nat → Nat → List NodeListAction
  | 0, _ => []
  | rounds + 1, slot =>
    .poll busyPolls ⟨1, Nat.one_pos⟩ :: .register (slot + 3) :: .unregister (slot + 1) :: churn rounds (slot + 1)

theorem not_mem_visits_churn (rounds slot : Nat) : 0 ∉ visits ⟨[0, slot + 1, slot + 2], 1⟩ (churn rounds slot) := by
  induction rounds generalizing slot with
  | zero => exact not_mem_nil
  | succ rounds ih =>
    have polled : umqUbPollTxRoundRobin ⟨[0, slot + 1, slot + 2], 1⟩ busyPolls 1 =
        (⟨[0, slot + 1, slot + 2], 2⟩, ⟨[1], 1, 2⟩) := rfl
    have destroyed : unregister ⟨[0, slot + 1, slot + 2, slot + 3], 2⟩ (slot + 1) = ⟨[0, slot + 2, slot + 3], 1⟩ := by
      simp [unregister, validCnt]
    simp only [churn, visits, step, polled, register, cons_append, nil_append, destroyed]
    exact not_mem_cons_of_ne_of_not_mem (Nat.succ_ne_zero slot).symm (ih (slot + 1))

/-- The node at the front of the array is never polled, however long this goes on. -/
theorem umqUbPollTxRoundRobin_churn : ¬ ∃ rounds, 0 ∈ visits ⟨[0, 1, 2], 1⟩ (churn rounds 0) :=
  fun ⟨rounds, visited⟩ => not_mem_visits_churn rounds 0 visited

end JettyNodeList

end UbsComm.Ub
