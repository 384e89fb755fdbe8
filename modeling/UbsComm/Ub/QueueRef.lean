import UbsComm.Library.Lists
import UbsComm.Library.Run

/-! # The reference count of a queue that is looked up by its id

`umq_ub_get_real_queue_by_umq_id` loads the count, and its loop goes on as long as the
compare-and-exchange succeeds.  Any number of gets and puts and the thread that unbinds or destroys the
queue take their accesses to the two words of the id in any order. -/

namespace UbsComm.Ub

open Library List

/-- A get after its load, with the value its exchange expects, or after its loop and before it reads
`umq_ctx_table`.  `raised` records how many of its exchanges succeeded. -/
inductive RefGet where
  | exchanging (oldRefCnt raised : Nat)
  | leaving (raised : Nat)

namespace RefGet

def raised : RefGet → Nat
  | exchanging _ raised | leaving raised => raised

/-- A get raises the count once, or it is going to find no queue. -/
def Right (umqCtx : Nat) : RefGet → Prop
  | exchanging oldRefCnt raised => oldRefCnt ≠ 0 ∧ raised ≤ 1
  | leaving raised => raised = 1 ∨ raised = 0 ∧ umqCtx = 0

/-- The first exchange of a get finds the value loaded, and the second does not find it. -/
def Careful (refCnt umqCtx : Nat) : RefGet → Prop
  | exchanging oldRefCnt raised =>
    if refCnt = oldRefCnt then raised = 0 ∧ oldRefCnt + 1 < 2 ^ 32 else raised = 1 ∨ umqCtx = 0
  | leaving _ => True

instance (refCnt umqCtx : Nat) (get) : Decidable (Careful refCnt umqCtx get) := by
  cases get <;> dsimp only [Careful] <;> infer_instance

end RefGet

/-- What a get that returned a queue did: how often it raised the count, and whether the queue was
taken for destruction when it returned. -/
structure RefReturn where
  raised : Nat
  closed : Bool
  deriving DecidableEq

/-- The words of one id: `umqCtx` is null (0) or the queue, `refCnt` has 32 bits.  `closed` says that one thread has
the queue for itself, `held` counts the gets that returned the queue and were not put back. -/
structure QueueRef where
  umqCtx : Nat
  refCnt : Nat
  closed : Bool
  gets : List RefGet
  held : Nat
  returned : List RefReturn

inductive QueueRefAction where
  | load
  | exchange (get : Nat)
  | readTable (get : Nat)
  | put
  | store
  | exclusive
  | clear

namespace QueueRef

def created (queue : Nat) : QueueRef := ⟨queue, 1, false, [], 0, []⟩

variable (slot : QueueRef)

def leave (get : RefGet) (rest : List RefGet) : QueueRef :=
  if slot.umqCtx = 0 then { slot with gets := rest }
  else
    { slot with
      gets := rest
      held := slot.held + 1
      returned := ⟨get.raised, slot.closed⟩ :: slot.returned }

def step : QueueRefAction → QueueRef
  | .load => if slot.refCnt ≠ 0 then { slot with gets := .exchanging slot.refCnt 0 :: slot.gets } else slot
  | .exchange index =>
    match slot.gets[index]? with
    | some (.exchanging oldRefCnt raised) =>
      -- the loop ends when the exchange fails
      if slot.refCnt = oldRefCnt then
        { slot with
          refCnt := (oldRefCnt + 1) % 2 ^ 32
          gets := .exchanging oldRefCnt (raised + 1) :: slot.gets.eraseIdx index }
      else { slot with gets := .leaving raised :: slot.gets.eraseIdx index }
    | _ => slot
  | .readTable index =>
    match slot.gets[index]? with
    | some (.leaving raised) => slot.leave (.leaving raised) (slot.gets.eraseIdx index)
    | _ => slot
  | .put =>
    if slot.held ≠ 0 then
      { slot with refCnt := if slot.refCnt = 0 then 2 ^ 32 - 1 else slot.refCnt - 1, held := slot.held - 1 }
    else slot
  -- `umq_ub_release_sub_queue`, at the end of an unbind
  | .store => if slot.closed ∧ slot.umqCtx ≠ 0 then { slot with refCnt := 1, closed := false } else slot
  -- one exchange of `umq_ub_exclusive_sub_queue`
  | .exclusive => if slot.refCnt = 1 then { slot with refCnt := 0, closed := true } else slot
  | .clear => if slot.closed then { slot with umqCtx := 0 } else slot

/-- How much the gets that have not returned yet have added to the count. -/
def inFlight : Nat := (slot.gets.map RefGet.raised).sum

structure Right : Prop where
  counted : slot.refCnt = if slot.closed then 0 else 1 + slot.held + slot.inFlight
  idle : slot.closed → slot.held = 0 ∧ slot.inFlight = 0
  present : slot.closed = false → slot.umqCtx ≠ 0
  gets : ∀ get ∈ slot.gets, get.Right slot.umqCtx
  returned : ∀ entry ∈ slot.returned, entry = ⟨1, false⟩

def Careful (slot : QueueRef) : QueueRefAction → Prop
  | .exchange index => ∀ get ∈ slot.gets[index]?, get.Careful slot.refCnt slot.umqCtx
  | _ => True

instance (action) : Decidable (slot.Careful action) := by
  cases action <;> dsimp only [Careful] <;> infer_instance

theorem Right.created {queue : Nat} (present : queue ≠ 0) : (created queue).Right where
  counted := rfl
  idle := nofun
  present := fun _ => present
  gets := nofun
  returned := nofun

variable {slot}

namespace Right

/-- Whoever has a reference keeps the queue from being taken for destruction. -/
theorem opened (right : slot.Right) (out : slot.refCnt ≠ 0 ∨ slot.held ≠ 0 ∨ slot.inFlight ≠ 0) :
    slot.closed = false ∧ slot.refCnt = 1 + slot.held + slot.inFlight := by
  have counted := right.counted
  cases closed : slot.closed with
  | false => exact ⟨rfl, by simpa [closed] using counted⟩
  | true =>
    have none := right.idle closed
    rw [closed, if_pos rfl] at counted
    omega

theorem closed_of_absent (right : slot.Right) (absent : slot.umqCtx = 0) : slot.closed = true := by
  by_contra opened
  exact right.present (by simpa using opened) absent

theorem erase (right : slot.Right) {index : Nat} : ∀ get ∈ slot.gets.eraseIdx index, get.Right slot.umqCtx :=
  fun get mem => right.gets get (mem_of_mem_eraseIdx mem)

/-- The clauses of a state in which the queue is not taken. -/
theorem ofOpened (counted : slot.refCnt = 1 + slot.held + slot.inFlight) (opened : slot.closed = false)
    (present : slot.umqCtx ≠ 0) (gets : ∀ get ∈ slot.gets, get.Right slot.umqCtx)
    (returned : ∀ entry ∈ slot.returned, entry = ⟨1, false⟩) : slot.Right where
  counted := by simpa [opened] using counted
  idle := fun closed => by simp [opened] at closed
  present := fun _ => present
  gets := gets
  returned := returned

variable (right : slot.Right)
include right

theorem load : (slot.step .load).Right := by
  refine guarded right fun loaded => ?_
  obtain ⟨opened, counted⟩ := right.opened (.inl loaded)
  refine ofOpened ?_ opened (right.present opened) ?_ right.returned
  · exact counted.trans (by simp [inFlight, RefGet.raised])
  · exact forall_mem_cons.2 ⟨⟨loaded, Nat.zero_le 1⟩, right.gets⟩

theorem exchange_iff {index : Nat} : (slot.step (.exchange index)).Right ↔ slot.Careful (.exchange index) := by
  rw [step, Careful]
  cases found : slot.gets[index]? with
  | none => exact iff_of_true right nofun
  | some get =>
  cases get with
  | leaving raised => exact iff_of_true right (by simp [RefGet.Careful])
  | exchanging oldRefCnt raised =>
  have amount : slot.inFlight = _ := sum_map_eraseIdx found
  obtain ⟨loaded, once⟩ := right.gets _ (mem_of_getElem? found)
  simp only [RefGet.raised] at amount
  simp only [Option.mem_def, Option.some.injEq, forall_eq', RefGet.Careful]
  split
  next same =>
    obtain ⟨opened, counted⟩ := right.opened (.inl (same ▸ loaded))
    constructor
    · intro after
      have twice := (after.gets _ mem_cons_self).2
      have total := after.counted
      simp only [opened, Bool.false_eq_true, if_false, inFlight, map_cons, sum_cons] at total
      omega
    · rintro ⟨rfl, small⟩
      refine ofOpened ?_ opened (right.present opened) ?_ right.returned
      · simp only [inFlight, map_cons, sum_cons, RefGet.raised]
        omega
      · exact forall_mem_cons.2 ⟨⟨loaded, Nat.le_refl 1⟩, right.erase⟩
  next changed =>
    constructor
    · intro after
      exact (after.gets _ mem_cons_self).imp_right And.right
    · intro kept
      have same : ((.leaving raised :: slot.gets.eraseIdx index).map RefGet.raised).sum = slot.inFlight := by
        rw [amount, map_cons, sum_cons, RefGet.raised]
      refine ⟨?_, ?_, right.present, forall_mem_cons.2 ⟨?_, right.erase⟩, right.returned⟩
      · rw [inFlight, same]
        exact right.counted
      · rw [inFlight, same]
        exact right.idle
      · obtain one | absent := kept
        · exact .inl one
        · have none := right.idle (right.closed_of_absent absent)
          exact .inr ⟨by omega, absent⟩

theorem readTable {index : Nat} : (slot.step (.readTable index)).Right := by
  rw [step]
  cases found : slot.gets[index]? with
  | none => exact right
  | some get =>
  cases get with
  | exchanging oldRefCnt raised => exact right
  | leaving raised =>
  have amount : slot.inFlight = _ := sum_map_eraseIdx found
  have leaves := right.gets _ (mem_of_getElem? found)
  simp only [RefGet.raised] at amount
  simp only [leave, RefGet.raised]
  split
  next absent =>
    have closed := right.closed_of_absent absent
    have none := right.idle closed
    refine ⟨?_, fun _ => ⟨none.1, ?_⟩, right.present, right.erase, right.returned⟩
    · simpa only [closed, if_true] using right.counted
    · simp only [inFlight]
      omega
  next queue =>
    have one : raised = 1 := leaves.resolve_right fun absent => queue absent.2
    obtain ⟨opened, counted⟩ := right.opened (.inr (.inr (by omega)))
    refine ofOpened ?_ opened queue right.erase ?_
    · simp only [inFlight]
      omega
    · exact forall_mem_cons.2 ⟨by rw [one, opened], right.returned⟩

theorem put : (slot.step .put).Right := by
  refine guarded right fun held => ?_
  obtain ⟨opened, counted⟩ := right.opened (.inr (.inl held))
  refine ofOpened ?_ opened (right.present opened) right.gets right.returned
  simp only [inFlight] at counted ⊢
  rw [if_neg (by omega)]
  omega

theorem store : (slot.step .store).Right := by
  refine guarded right fun call => ?_
  have none := right.idle call.1
  refine ofOpened ?_ rfl call.2 right.gets right.returned
  simp only [inFlight] at none ⊢
  omega

theorem exclusive : (slot.step .exclusive).Right := by
  refine guarded right fun one => ?_
  obtain ⟨opened, counted⟩ := right.opened (.inl (by omega))
  refine ⟨rfl, fun _ => ?_, nofun, right.gets, right.returned⟩
  simp only [inFlight] at counted ⊢
  omega

theorem clear : (slot.step .clear).Right := by
  refine guarded right fun closed => ?_
  refine ⟨right.counted, right.idle, fun opened => ?_, fun get mem => ?_, right.returned⟩
  · simp [closed] at opened
  · have found := right.gets get mem
    cases get with
    | exchanging oldRefCnt raised => exact found
    | leaving raised => exact found.imp_right fun absent => ⟨absent.1, rfl⟩

theorem step_iff (action : QueueRefAction) : (slot.step action).Right ↔ slot.Careful action := by
  cases action with
  | load => exact iff_of_true right.load trivial
  | exchange index => exact right.exchange_iff
  | readTable index => exact iff_of_true right.readTable trivial
  | put => exact iff_of_true right.put trivial
  | store => exact iff_of_true right.store trivial
  | exclusive => exact iff_of_true right.exclusive trivial
  | clear => exact iff_of_true right.clear trivial

end Right

/-- Along careful steps the count is one more than the references that are out, a get that returned a queue raised it
once and before the queue was taken for destruction. -/
theorem refCnt_exact_of_careful_exchanges {queue : Nat} {finish : QueueRef} (present : queue ≠ 0)
    (run : Run step Careful (created queue) finish) :
    finish.Right ∧
      (finish.closed = false → finish.gets = [] → finish.refCnt = 1 + finish.held) ∧
      (finish.closed → finish.refCnt = 0 ∧ finish.held = 0) ∧
      ∀ action, (finish.step action).Right ↔ finish.Careful action := by
  have right : finish.Right :=
    run.invariant (Right.created present) fun _ action right careful => (right.step_iff action).2 careful
  refine ⟨right, fun opened quiet => ?_, fun closed => ?_, right.step_iff⟩
  · simpa [opened, inFlight, quiet] using right.counted
  · exact ⟨by simpa [closed] using right.counted, (right.idle closed).1⟩

/-- A second get starts and ends while the first is between its exchanges. -/
def nestedGets : List QueueRefAction :=
  [.load, .exchange 0, .load, .exchange 0, .exchange 0, .readTable 0, .exchange 0, .readTable 0, .put]

theorem refCnt_exact_nestedGets :
    (nestedGets.foldl step (created 7)).refCnt = 1 + (nestedGets.foldl step (created 7)).held ∧
      (nestedGets.foldl step (created 7)).held = 1 :=
  ⟨(refCnt_exact_of_careful_exchanges (by decide) (Run.ofList (by decide))).2.1 (by decide) (by decide), by decide⟩

/-- Two gets load the same value; the exchange of the second finds it changed. -/
def racingGets : List QueueRefAction :=
  [.load, .load, .exchange 0, .exchange 1, .readTable 0, .exchange 0, .readTable 0]

/-- One of them puts the queue back, and it is destroyed. -/
def destroyedUnderGet : List QueueRefAction := racingGets ++ [.put, .exclusive]

/-- The queue is destroyed between the load of a get and its exchange. -/
def lateGet : List QueueRefAction := [.load, .exclusive, .exchange 0, .readTable 0]

/-- Both racing gets return the queue and the count is raised once, so that the queue can be destroyed while one of
them has it; and a get returns a queue that is being destroyed. -/
theorem refCnt_racingGets :
    (racingGets.foldl step (created 7)).held = 2 ∧ (racingGets.foldl step (created 7)).refCnt = 2 ∧
      (destroyedUnderGet.foldl step (created 7)).closed = true ∧ (destroyedUnderGet.foldl step (created 7)).held = 1 ∧
      (lateGet.foldl step (created 7)).returned = [⟨0, true⟩] := by
  decide

end QueueRef

end UbsComm.Ub
