import UbsComm.FlowControl.RetryLists

/-! # Draining the retry lists

While the answer to an entry that waits for a jetty does not meet a full send queue, a drain
leaves every entry it cannot answer in place, so that it comes past each of them once.  An
answer that does meet one sends the entry to the end of the list being walked, with a type
whose entries belong into the other list: it stays there, or it is tried again. -/

namespace UbsComm.FlowControl

open Ub Library List

variable {N : Type} [DecidableEq N] {nodes kept left : List N} {node : N} {call : DrainCall N} {drain : Drain N}
  {fuel : Nat}

theorem after_append (fresh : node ∉ kept) {left : List N} : after node (kept ++ node :: left) = left.head? := by
  induction kept with
  | nil => simp [after]
  | cons other kept ih =>
    simp only [mem_cons, not_or] at fresh
    rw [cons_append, after, if_neg (Ne.symm fresh.1)]
    exact ih fresh.2

theorem erase_append (fresh : node ∉ kept) (left : List N) : (kept ++ node :: left).erase node = kept ++ left := by
  rw [erase_append_right _ fresh, erase_cons_head]

/-- The entries the walk over `no_jetty_list` comes to, as long as it neither runs out of room
nor out of jetties, do not meet a full send queue on their first try. -/
def DrainCall.Careful (call : DrainCall N) (qbufCnt tried : Nat) : List N → Prop
  | [] => True
  | node :: left =>
    call.bufCount ≤ qbufCnt ∨ call.hasAvail tried = false ∨
      (call.results node 0).again = false ∧ call.Careful (qbufCnt + (call.results node 0).bufs) (tried + 1) left

instance DrainCall.Careful.decidable (call : DrainCall N) :
    ∀ (left : List N) (qbufCnt tried : Nat), Decidable (call.Careful qbufCnt tried left)
  | [], _, _ => .isTrue trivial
  | node :: left, qbufCnt, tried =>
    have := DrainCall.Careful.decidable call left (qbufCnt + (call.results node 0).bufs) (tried + 1)
    inferInstanceAs (Decidable (_ ∨ _ ∨ _ ∧ _))

namespace Drain

omit [DecidableEq N] in
theorem stops_noJetty (call : DrainCall N) (drain : Drain N) :
    drain.stops call .noJetty = true ↔ call.bufCount ≤ drain.qbufCnt ∨ call.hasAvail drain.tried.length = false := by
  simp [stops]

/-- The state in which a walk is at the first entry of `left`: what it has come past is
`kept`, and nothing of what is ahead was tried. -/
structure At (nodes : List N) (name : WaitList) (kept left : List N) (drain : Drain N) : Prop where
  right : drain.lists.Right nodes
  split : drain.lists.list name = kept ++ left
  fresh : ∀ node ∈ left, node ∉ drain.tried

variable {name : WaitList} {first second : Bool} {result : Drain N}

section

variable (here : At nodes name kept (node :: left) drain)
include here

theorem At.notKept : node ∉ kept := by
  have nodup := here.right.nodup name
  rw [here.split] at nodup
  exact fun before => disjoint_of_nodup_append nodup before mem_cons_self

theorem At.notAhead : node ∉ left := by
  have nodup := here.right.nodup name
  rw [here.split] at nodup
  exact (nodup_cons.mp nodup.of_append_right).1

theorem At.listed : node ∈ drain.lists.list name := by
  rw [here.split]
  exact mem_append_right _ mem_cons_self

theorem At.next : after node (drain.lists.list name) = left.head? := by
  rw [here.split]
  exact after_append here.notKept

theorem At.firstTry {call : DrainCall N} :
    drain.visit call node =
      ⟨(drain.lists.dequeue node (call.results node 0)).1, drain.tried ++ [node],
        drain.qbufCnt + (drain.lists.dequeue node (call.results node 0)).2⟩ := by
  have untried : drain.tried.count node = 0 := count_eq_zero.mpr (here.fresh node mem_cons_self)
  rw [visit, untried]

/-- After a try the walk is at the next entry if the lists are right and the walked one only
lost the entry, or nothing. -/
theorem At.forward {drain' : Drain N} (right : drain'.lists.Right nodes) (tried : drain'.tried = drain.tried ++ [node])
    (list : drain'.lists.list name = drain.lists.list name ∨
      drain'.lists.list name = (drain.lists.list name).erase node) : ∃ kept', At nodes name kept' left drain' := by
  have fresh : ∀ other ∈ left, other ∉ drain'.tried := by
    intro other ahead
    rw [tried, mem_append, mem_singleton, not_or]
    refine ⟨here.fresh other (mem_cons_of_mem _ ahead), ?_⟩
    rintro rfl
    exact here.notAhead ahead
  cases list with
  | inl same => exact ⟨kept ++ [node], right, by rw [same, here.split, append_assoc]; rfl, fresh⟩
  | inr gone => exact ⟨kept, right, by rw [gone, here.split, erase_append here.notKept], fresh⟩

end

/-- A walk whose tries each take it to the next entry returns within one try for each entry,
and has tried the first ones in their order. -/
theorem walk_steady (Ok : Drain N → List N → Prop)
    (forward : ∀ {kept left : List N} {node : N} {drain : Drain N}, At nodes name kept (node :: left) drain →
      drain.stops call name = false → Ok drain (node :: left) →
      (∃ kept', At nodes name kept' left (drain.visit call node)) ∧ Ok (drain.visit call node) left)
    (here : At nodes name kept left drain) (ok : Ok drain left) (fuel : Nat) :
    (left.length ≤ fuel → (walk call name fuel left.head? drain).isSome) ∧
      ∀ result, walk call name fuel left.head? drain = some result →
        result.lists.Right nodes ∧ ∃ seen ahead, left = seen ++ ahead ∧ result.tried = drain.tried ++ seen ∧
          Ok result ahead := by
  induction left generalizing kept drain fuel with
  | nil =>
    refine ⟨fun _ => by simp [walk], fun result returned => ?_⟩
    simp only [head?_nil, walk, Option.some.injEq] at returned
    subst returned
    exact ⟨here.right, [], [], rfl, (append_nil _).symm, ok⟩
  | cons node left ih =>
    rw [head?_cons]
    cases stop : drain.stops call name with
    | true =>
      have returned : walk call name fuel (some node) drain = some drain := by
        cases fuel <;> simp [walk, stop]
      refine ⟨fun _ => by rw [returned]; rfl, fun result same => ?_⟩
      rw [returned, Option.some.injEq] at same
      subst same
      exact ⟨here.right, [], node :: left, rfl, (append_nil _).symm, ok⟩
    | false =>
      cases fuel with
      | zero => exact ⟨fun enough => by simp at enough, fun result returned => by simp [walk, stop] at returned⟩
      | succ fuel =>
        obtain ⟨⟨kept', there⟩, ok'⟩ := forward here stop ok
        rw [walk, stop, here.next]
        obtain ⟨returns, outcome⟩ := ih there ok' fuel
        refine ⟨fun enough => returns (Nat.le_of_succ_le_succ enough), fun result returned => ?_⟩
        obtain ⟨right, seen, ahead, split, tried, ok''⟩ := outcome result returned
        refine ⟨right, node :: seen, ahead, by rw [split, cons_append], ?_, ok''⟩
        rw [tried, visit, append_assoc]
        rfl

/-! ## The walk over `retry_list` -/

theorem At.visit_retry (here : At nodes .retry kept (node :: left) drain) (call : DrainCall N) :
    ∃ kept', At nodes .retry kept' left (drain.visit call node) := by
  have listed : node ∈ drain.lists.retryList := here.listed
  rw [here.firstTry]
  obtain result | result | ⟨retryType, known, changed, result⟩ := drain.lists.dequeue_cases node (call.results node 0)
  · refine here.forward ?_ rfl (.inr ?_) <;> rw [result]
    · exact here.right.release here.listed
    · exact drain.lists.release_list
  · refine here.forward ?_ rfl (.inl ?_) <;> rw [result]
    exact here.right
  · rw [here.right.eagainType listed] at changed
    obtain rfl : retryType = .noJetty := by cases retryType <;> trivial
    refine here.forward ?_ rfl (.inr ?_) <;> rw [result]
    · exact here.right.move listed
    · rfl

/-! ## The walk over `no_jetty_list` -/

/-- A try that meets no full send queue takes the walk to the next entry and leaves the other list alone. -/
theorem At.calm (here : At nodes .noJetty kept (node :: left) drain) (calm : (call.results node 0).again = false) :
    (∃ kept', At nodes .noJetty kept' left (drain.visit call node)) ∧
      (drain.visit call node).qbufCnt = drain.qbufCnt + (call.results node 0).bufs ∧
      (drain.visit call node).tried.length = drain.tried.length + 1 ∧
      (drain.visit call node).lists.retryList = drain.lists.retryList := by
  have listed : node ∈ drain.lists.noJettyList := here.listed
  rw [here.firstTry]
  obtain ⟨_, result | result⟩ | ⟨again, _⟩ :=
    drain.lists.dequeue_noJetty (call.results node 0) (here.right.noJettyType listed)
  · refine ⟨here.forward ?_ rfl (.inr ?_), ?_, length_append, ?_⟩ <;> rw [result]
    · exact here.right.release here.listed
    · exact drain.lists.release_list
    · exact erase_of_not_mem (here.right.apart listed)
  · refine ⟨here.forward ?_ rfl (.inl ?_), ?_, length_append, ?_⟩ <;> rw [result]
    exact here.right
  · cases calm.symm.trans again

/-- What the walk has to meet from here on, and that it has left the other list alone. -/
def Cautious (call : DrainCall N) (retryList : List N) (drain : Drain N) (left : List N) : Prop :=
  call.Careful drain.qbufCnt drain.tried.length left ∧ drain.lists.retryList = retryList

theorem At.visit_noJetty {retryList : List N} (here : At nodes .noJetty kept (node :: left) drain)
    (goesOn : drain.stops call .noJetty = false) (cautious : Cautious call retryList drain (node :: left)) :
    (∃ kept', At nodes .noJetty kept' left (drain.visit call node)) ∧
      Cautious call retryList (drain.visit call node) left := by
  obtain ⟨careful, same⟩ := cautious
  have room : ¬ (call.bufCount ≤ drain.qbufCnt ∨ call.hasAvail drain.tried.length = false) := by
    rw [← stops_noJetty, goesOn]
    exact Bool.false_ne_true
  simp only [not_or] at room
  obtain full | none | ⟨calm, careful⟩ := careful
  · exact absurd full room.1
  · exact absurd none room.2
  · obtain ⟨there, qbufCnt, tried, retry⟩ := here.calm calm
    exact ⟨there, by rwa [qbufCnt, tried], retry.trans same⟩

/-! ## An entry that meets a full send queue -/

/-- The entry was tried and is to be found in the wrong list, or it was tried twice. -/
def Spoiled (node : N) (drain : Drain N) : Prop :=
  1 ≤ drain.tried.count node ∧
    (2 ≤ drain.tried.count node ∨
      node ∈ drain.lists.noJettyList ∧ (drain.lists.entry node).retryType = .eagain)

theorem Spoiled.visit (spoiled : Spoiled node drain) {call : DrainCall N} {other : N} :
    Spoiled node (drain.visit call other) := by
  obtain ⟨tried, twice | ⟨listed, type⟩⟩ := spoiled <;> unfold Spoiled Drain.visit <;>
    simp [count_singleton]
  · exact ⟨by omega, .inl (by omega)⟩
  · by_cases same : other = node
    · exact ⟨by omega, .inl (by rw [if_pos same]; omega)⟩
    · obtain ⟨still, entry⟩ := drain.lists.dequeue_other
        (call.results other (drain.tried.count other)) (Ne.symm same)
      exact ⟨by omega, .inr ⟨still.mpr listed, by rw [entry, type]⟩⟩

theorem Spoiled.walk {next : Option N}
    (spoiled : Spoiled node drain) (returned : Drain.walk call name fuel next drain = some result) :
    Spoiled node result := by
  fun_induction Drain.walk call name fuel next drain with
  | case1 | case2 | case4 => exact Option.some.inj returned ▸ spoiled
  | case3 => cases returned
  | case5 _ _ _ _ ih => exact ih spoiled.visit returned

/-- A walk that is not careful comes to an entry whose answer meets a full send queue. -/
theorem walk_careless (here : At nodes .noJetty kept left drain)
    (careless : ¬ call.Careful drain.qbufCnt drain.tried.length left)
    (returned : walk call .noJetty fuel left.head? drain = some result) : ∃ node, Spoiled node result := by
  induction left generalizing kept drain fuel with
  | nil => exact absurd trivial careless
  | cons node left ih =>
    simp only [DrainCall.Careful, not_or, not_and] at careless
    obtain ⟨room, jetties, later⟩ := careless
    have goesOn : drain.stops call .noJetty = false := by
      rw [← Bool.not_eq_true, stops_noJetty]
      exact not_or.mpr ⟨room, jetties⟩
    cases fuel with
    | zero => simp [walk, goesOn] at returned
    | succ fuel =>
      rw [head?_cons, walk, goesOn, here.next] at returned
      obtain ⟨calm, -⟩ | ⟨again, moved⟩ :=
        drain.lists.dequeue_noJetty (call.results node 0) (here.right.noJettyType here.listed)
      · -- the try was harmless, so the careless one is still ahead
        obtain ⟨⟨kept', there⟩, qbufCnt, tried, -⟩ := here.calm calm
        refine ih there ?_ returned
        rw [qbufCnt, tried]
        exact later calm
      · refine ⟨node, Spoiled.walk ?_ returned⟩
        rw [here.firstTry, moved]
        refine ⟨by simp, .inr ⟨?_, ?_⟩⟩
        · simp [FcMsgRetryList.pushBack]
        · simp [FcMsgRetryList.pushBack, FcMsgRetryList.unlink, FcMsgRetryList.setType]

theorem Spoiled.wrong (spoiled : Spoiled node drain) (right : drain.lists.Right nodes) : ¬ drain.tried.Nodup := by
  obtain ⟨_, twice | ⟨listed, type⟩⟩ := spoiled
  · intro once
    have bound := nodup_iff_count_le_one.mp once node
    omega
  · have waits := right.noJettyType listed
    rw [type] at waits
    cases waits

end Drain

namespace FcMsgRetryList

variable {lists : FcMsgRetryList N}

/-- A drain that returns has made both walks. -/
theorem drain_eq_some {result : Drain N} : lists.drain call fuel = some result ↔
    ∃ middle, Drain.walk call .noJetty fuel lists.noJettyList.head? ⟨lists, [], 0⟩ = some middle ∧
      Drain.walk call .retry fuel middle.lists.retryList.head? middle = some result := by
  rw [FcMsgRetryList.drain]
  cases Drain.walk call .noJetty fuel lists.noJettyList.head? ⟨lists, [], 0⟩ <;> simp

theorem Right.start (right : lists.Right nodes) : Drain.At nodes .noJetty [] lists.noJettyList ⟨lists, [], 0⟩ :=
  ⟨right, rfl, fun _ _ => not_mem_nil⟩

/-- A careful drain returns, and whenever it does it has tried each entry at most once and
left the lists right. -/
theorem Right.drained (right : lists.Right nodes) (careful : call.Careful 0 0 lists.noJettyList) :
    (∃ fuel, (lists.drain call fuel).isSome) ∧
      ∀ fuel result, lists.drain call fuel = some result → result.tried.Nodup ∧ result.lists.Right nodes := by
  have first := Drain.walk_steady (Drain.Cautious call lists.retryList)
    (fun here goesOn cautious => here.visit_noJetty goesOn cautious) right.start ⟨careful, rfl⟩
  have second := fun {middle : Drain N} (there : Drain.At nodes .retry [] middle.lists.retryList middle) =>
    Drain.walk_steady (fun _ _ => True) (fun here _ _ => ⟨here.visit_retry call, trivial⟩) there trivial
  -- what the first walk tried waits for a jetty or is free, so the second one does not come to it
  have there : ∀ fuel middle, Drain.walk call .noJetty fuel lists.noJettyList.head? ⟨lists, [], 0⟩ = some middle →
      Drain.At nodes .retry [] middle.lists.retryList middle ∧ middle.lists.retryList = lists.retryList ∧
        middle.tried.Sublist lists.noJettyList := by
    intro fuel middle returned
    obtain ⟨rightThen, seen, ahead, split, tried, _, same⟩ := (first fuel).2 middle returned
    have sub : middle.tried.Sublist lists.noJettyList := by
      rw [tried, split]
      exact sublist_append_left _ _
    refine ⟨⟨rightThen, rfl, fun node waits already => ?_⟩, same, sub⟩
    rw [same] at waits
    exact right.apart (sub.subset already) waits
  constructor
  · refine ⟨lists.noJettyList.length + lists.retryList.length, ?_⟩
    obtain ⟨middle, returned⟩ := Option.isSome_iff_exists.mp ((first _).1 (Nat.le_add_right _ lists.retryList.length))
    obtain ⟨at', same, _⟩ := there _ middle returned
    rw [FcMsgRetryList.drain, returned]
    refine (second at' _).1 ?_
    rw [same]
    exact Nat.le_add_left _ _
  · intro fuel result returned
    obtain ⟨middle, walked, returned⟩ := drain_eq_some.mp returned
    obtain ⟨at', same, sub⟩ := there fuel middle walked
    obtain ⟨rightThen, seen, ahead, split, tried, _⟩ := (second at' fuel).2 result returned
    refine ⟨?_, rightThen⟩
    have seenSub : seen.Sublist lists.retryList := by
      rw [← same, split]
      exact sublist_append_left _ _
    rw [tried, nodup_append]
    refine ⟨(right.nodup .noJetty).sublist sub, (right.nodup .retry).sublist seenSub, ?_⟩
    intro node before other behind equal
    exact right.apart (sub.subset before) (equal ▸ seenSub.subset behind)

/-- The condition is exact: a drain that is not careful does not return, tries an entry
twice, or leaves one in the wrong list. -/
theorem Right.drain_iff (right : lists.Right nodes) :
    (∃ fuel result, lists.drain call fuel = some result ∧ result.tried.Nodup ∧ result.lists.Right nodes) ↔
      call.Careful 0 0 lists.noJettyList := by
  constructor
  · rintro ⟨fuel, result, returned, once, rightThen⟩
    by_contra careless
    obtain ⟨middle, walked, returned⟩ := drain_eq_some.mp returned
    obtain ⟨node, spoiled⟩ := Drain.walk_careless right.start careless walked
    exact (spoiled.walk returned).wrong rightThen once
  · intro careful
    obtain ⟨⟨fuel, returns⟩, outcome⟩ := right.drained careful
    obtain ⟨result, returned⟩ := Option.isSome_iff_exists.mp returns
    exact ⟨fuel, result, returned, outcome fuel result returned⟩

/-! ## Runs -/

/-- `umq_ub_fc_msg_retry_list_init`. -/
def init (nodes : List N) (entry : N → RetryEntry) : FcMsgRetryList N := ⟨nodes, [], [], entry⟩

theorem init_right (distinct : nodes.Nodup) {entry : N → RetryEntry} : (init nodes entry).Right nodes where
  once node := by
    exact distinct.count
  placed name node listed := by cases name <;> simp [init, list] at listed
  assigned name node listed := by cases name <;> simp [init, list] at listed

end FcMsgRetryList

/-- No entry that a drain comes to while it waits for a jetty meets a full send queue. -/
def RetryAction.Careful (lists : FcMsgRetryList N) : RetryAction N → Prop
  | .message .. => True
  | .drain call _ => call.Careful 0 0 lists.noJettyList

namespace FcMsgRetryList

variable {lists : FcMsgRetryList N}

theorem Right.step (right : lists.Right nodes) {action : RetryAction N} (careful : action.Careful lists) :
    (lists.step action).Right nodes := by
  cases action with
  | message imm ret now => exact right.message
  | drain call fuel =>
    rw [FcMsgRetryList.step]
    cases drained : lists.drain call fuel with
    | none => exact right
    | some result => exact ((right.drained careful).2 fuel result drained).2

/-! Whatever the tries meet, no node is lost or listed twice. -/

theorem Partitioned.dequeue (partitioned : Partitioned nodes lists) (known : node ∈ nodes) {attempt : RetryAttempt} :
    Partitioned nodes (lists.dequeue node attempt).1 := by
  have here : lists.total node = 1 := by rw [partitioned node, if_pos known]
  intro other
  rw [← partitioned other]
  obtain result | result | ⟨retryType, -, -, result⟩ := lists.dequeue_cases node attempt <;> rw [result]
  · exact total_release here other
  · have moved : (lists.setType node retryType).total node = 1 := here
    rw [total_pushBack, total_unlink moved, total_setType]

end FcMsgRetryList

theorem mem_of_after {list : List N} {next : N} (found : after node list = some next) : next ∈ list := by
  induction list with
  | nil => simp [after] at found
  | cons other rest ih =>
    rw [after] at found
    split at found
    · exact mem_cons_of_mem _ (mem_of_mem_head? found)
    · exact mem_cons_of_mem _ (ih found)

theorem FcMsgRetryList.Partitioned.walk {next : Option N}
    (partitioned : drain.lists.Partitioned nodes) (known : ∀ node, next = some node → node ∈ nodes)
    (returned : Drain.walk call name fuel next drain = some result) : result.lists.Partitioned nodes := by
  fun_induction Drain.walk call name fuel next drain with
  | case1 | case2 | case4 => exact Option.some.inj returned ▸ partitioned
  | case3 => cases returned
  | case5 _ other _ _ ih =>
    refine ih (partitioned.dequeue (known other rfl)) ?_ returned
    exact fun node found => partitioned.known (mem_of_after found)

namespace FcMsgRetryList

variable {lists : FcMsgRetryList N}

theorem Partitioned.step (partitioned : Partitioned nodes lists) {action : RetryAction N} :
    Partitioned nodes (lists.step action) := by
  cases action with
  | message imm ret now =>
    simp only [FcMsgRetryList.step, processWithRetry]
    split
    · exact partitioned
    · split
      · exact partitioned
      · exact partitioned.enqueue imm _ now
  | drain call fuel =>
    rw [FcMsgRetryList.step]
    cases drained : lists.drain call fuel with
    | none => exact partitioned
    | some result =>
      obtain ⟨middle, walked, returned⟩ := drain_eq_some.mp drained
      have between : middle.lists.Partitioned nodes := by
        refine Partitioned.walk (show Partitioned nodes lists from partitioned) ?_ walked
        exact fun node found => partitioned.known (show node ∈ lists.list .noJetty from mem_of_mem_head? found)
      refine Partitioned.walk between ?_ returned
      exact fun node found => between.known (show node ∈ middle.lists.list .retry from mem_of_mem_head? found)

/-- In every run each node is in exactly one list.  In every run of careful drains a waiting
node is in the list of its type; and from each state such a run reaches, a drain returns,
tries every entry at most once and leaves the lists so exactly when it is careful. -/
theorem retryLists_right_of_careful_drains (distinct : nodes.Nodup) (entry : N → RetryEntry) :
    (∀ finish, Run step (fun _ _ => True) (init nodes entry) finish → finish.Partitioned nodes) ∧
      ∀ finish, Run step (fun lists action => action.Careful lists) (init nodes entry) finish →
        finish.Right nodes ∧ ∀ call : DrainCall N,
          (∃ fuel result, finish.drain call fuel = some result ∧ result.tried.Nodup ∧ result.lists.Right nodes) ↔
            call.Careful 0 0 finish.noJettyList := by
  constructor
  · intro finish run
    exact run.invariant (motive := fun lists => lists.Partitioned nodes) (init_right distinct).once
      fun lists action partitioned _ => partitioned.step
  · intro finish run
    have right : finish.Right nodes :=
      run.invariant (motive := fun lists => lists.Right nodes) (init_right distinct)
        fun lists action right careful => right.step careful
    exact ⟨right, fun call => right.drain_iff⟩

/-! ### Two entries that wait for a jetty -/

def twoNodes : FcMsgRetryList Bool := init [false, true] fun _ => ⟨0, .other, 0⟩

/-- Two requests come in while no jetty is left. -/
def noJettyLeft : List (RetryAction Bool) := [.message 7 (.error .emlink) 0, .message 9 (.error .emlink) 0]

def answered : RetryAttempt := ⟨true, .ok 0, 0, 1⟩

def refused (err : UmqErr) : RetryAttempt := ⟨true, .error err, 0, 1⟩

/-- Both are answered on the next drain. -/
def quietDrain : DrainCall Bool := ⟨8, fun _ _ => answered, fun _ => true⟩

theorem retryLists_right_noJettyLeft :
    (noJettyLeft.foldl step twoNodes).noJettyList = [false, true] ∧
      (noJettyLeft.foldl step twoNodes).Right [false, true] ∧
      ∃ fuel result, (noJettyLeft.foldl step twoNodes).drain quietDrain fuel = some result ∧ result.tried.Nodup ∧
        result.lists.Right [false, true] := by
  have run : Run step (fun lists action => action.Careful lists) twoNodes (noJettyLeft.foldl step twoNodes) :=
    Run.ofList ⟨trivial, trivial, trivial⟩
  obtain ⟨right, returns⟩ := (retryLists_right_of_careful_drains (by decide) fun _ => ⟨0, .other, 0⟩).2 _ run
  exact ⟨by decide, right, (returns quietDrain).mpr (by decide)⟩

/-- The send queue is full for the first entry whenever it is tried. -/
def fullDrain : DrainCall Bool :=
  ⟨8, fun node _ => if node then answered else refused .eflowctlEagain, fun _ => true⟩

/-- Every entry finds the send queue full and the jetties used up by turns. -/
def endlessDrain : DrainCall Bool :=
  ⟨8, fun _ visit => refused (if visit % 2 = 0 then .eflowctlEagain else .emlink), fun _ => true⟩

end FcMsgRetryList

/-- Both entries wait in the list being walked, each with the type its last try gave it. -/
structure Drain.Cycling (first second : Bool) (drain : Drain Bool) : Prop where
  list : drain.lists.noJettyList = [first, second]
  different : first ≠ second
  types : ∀ node, (drain.lists.entry node).retryType = if drain.tried.count node % 2 = 0 then .noJetty else .eagain
  stamps : ∀ node, (drain.lists.entry node).enqueueUs = 0
  empty : drain.qbufCnt = 0

variable {drain : Drain Bool}

section

variable (cycling : drain.Cycling first second)
include cycling

theorem Drain.Cycling.visit : (drain.visit FcMsgRetryList.endlessDrain first).Cycling second first := by
  have lists : drain.lists.dequeue first (FcMsgRetryList.endlessDrain.results first (drain.tried.count first)) =
      (((drain.lists.setType first (if drain.tried.count first % 2 = 0 then .eagain else .noJetty)).unlink
        first).pushBack first .noJetty, 0) := by
    unfold FcMsgRetryList.dequeue RetryAttempt.expired FcMsgRetryList.endlessDrain FcMsgRetryList.refused
    rw [cycling.types first, cycling.stamps first]
    by_cases even : drain.tried.count first % 2 = 0
    · simp [even, FcMsgRetryList.requeue]
    · simp [even, FcMsgRetryList.requeue, fcMsgRetryTimeoutUs]
  rw [Drain.visit, lists]
  refine ⟨?_, cycling.different.symm, fun node => ?_, fun node => ?_, cycling.empty⟩
  · simp [FcMsgRetryList.pushBack, FcMsgRetryList.unlink, FcMsgRetryList.setType, cycling.list]
  · by_cases this : node = first
    · subst this
      simp only [FcMsgRetryList.pushBack, FcMsgRetryList.unlink, FcMsgRetryList.setType, Function.update_self,
        count_append, count_singleton_self]
      split <;> split <;> first | rfl | omega
    · have same := cycling.types node
      simpa [FcMsgRetryList.pushBack, FcMsgRetryList.unlink, FcMsgRetryList.setType, this, Ne.symm this] using same
  · by_cases this : node = first
    · subst this
      simpa [FcMsgRetryList.pushBack, FcMsgRetryList.unlink, FcMsgRetryList.setType] using cycling.stamps node
    · simpa [FcMsgRetryList.pushBack, FcMsgRetryList.unlink, FcMsgRetryList.setType, this] using cycling.stamps node

theorem Drain.Cycling.goesOn : drain.stops FcMsgRetryList.endlessDrain .noJetty = false := by
  simp [Drain.stops, FcMsgRetryList.endlessDrain, cycling.empty]

theorem Drain.Cycling.walk
    (fuel : Nat) : Drain.walk FcMsgRetryList.endlessDrain .noJetty fuel (some first) drain = none := by
  induction fuel generalizing first second drain with
  | zero => simp [Drain.walk, cycling.goesOn]
  | succ fuel ih =>
    have next : after first (drain.lists.list .noJetty) = some second := by
      simp [FcMsgRetryList.list, cycling.list, after]
    rw [Drain.walk, cycling.goesOn, next]
    exact ih cycling.visit

end

/-- With a full send queue for one entry, the drain tries that entry twice and leaves it,
typed as one of the retry list, in the list of those that wait for a jetty.  If send queue
and jetties run out by turns, the drain does not return. -/
theorem FcMsgRetryList.retryLists_fullDrain :
    (∃ result, (noJettyLeft.foldl step twoNodes).drain fullDrain 3 = some result ∧
      result.tried = [false, true, false] ∧ result.lists.noJettyList = [false] ∧
      (result.lists.entry false).retryType = .eagain ∧ firstList .eagain = .retry) ∧
      ∀ fuel, (noJettyLeft.foldl step twoNodes).drain endlessDrain fuel = none := by
  refine ⟨⟨_, rfl, by decide, by decide, by decide, rfl⟩, fun fuel => ?_⟩
  have cycling : Drain.Cycling false true ⟨noJettyLeft.foldl step twoNodes, [], 0⟩ :=
    ⟨by decide, by decide, by decide, by decide, rfl⟩
  have endless := cycling.walk fuel
  have first : (noJettyLeft.foldl step twoNodes).noJettyList.head? = some false := by decide
  rw [FcMsgRetryList.drain, first, endless]

end UbsComm.FlowControl
