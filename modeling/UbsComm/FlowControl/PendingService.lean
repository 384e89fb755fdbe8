import UbsComm.FlowControl.Pending
import UbsComm.Library.FifoPass

/-! # One service of the pending queue

`umq_ub_credit_pending_queue_process` takes as many requests off the list as were waiting
when it started, and puts back those it could not answer.  Each waiting queue is kept
alive by one reference, dropped when the request is answered.  The service below is the
one of the model with the reference counts; `tried` and `answered` log the requests it
took off the list and those whose response went out. -/

namespace UbsComm.FlowControl

open Ub Library List

variable {L P D : Type} [DecidableEq L] [DecidableEq P]

/-- The network with the reference counts of the receiving queues, and the log. -/
structure Service (L P D : Type) where
  net : Net L P D
  refCnt : L → Nat
  tried : List (PendingReq L)
  answered : List (PendingReq L)

def umqDecRef (refCnt : L → Nat) (link : L) : L → Nat := Function.update refCnt link (refCnt link - 1)

variable (topo : Topology L P D)

def Service.round (state : Service L P D) (pool : P) (env : SendEnv L) : Service L P D × Bool :=
  let net := state.net
  if (net.pool pool).idle = 0 then (state, false)
  else match (net.pool pool).pendingList with
    | [] => (state, false)
    | head :: rest =>
      let popped := net.modifyPool pool ({ · with pendingList := rest })
      let allocated := (availableCreditDec (popped.pool pool) head.requested).2
      if allocated = 0 then
        ({ state with
            net := popped.modifyPool pool fun p => (availableCreditDec p head.requested).1.pushBack head
            tried := state.tried ++ [head] }, false)
      else
        let granted := popped.grant pool head.link head.requested
        let ratio := umqUbFcRaitoToImm (granted.pool pool).allocated (topo.cfg head.link).localRxDepth
        match umqUbSharedCreditRespSend topo granted head.link allocated ratio head.seq head.stamp env with
        | (sent, .ok ()) =>
          ({ net := sent.modifyPool pool fun p => { p with pendingCount := p.pendingCount - 1 }
             refCnt := umqDecRef state.refCnt head.link
             tried := state.tried ++ [head]
             answered := state.answered ++ [head] }, true)
        | (sent, .error _) =>
          ({ state with
              net := (sent.giveBack pool head.link allocated).modifyPool pool (·.pushBack head)
              tried := state.tried ++ [head] }, true)

def Service.loop (pool : P) (envs : Nat → SendEnv L) : Nat → Service L P D → Service L P D
  | 0, state => state
  | rounds + 1, state =>
    match state.round topo pool (envs rounds) with
    | (served, true) => Service.loop pool envs rounds served
    | (served, false) => served

def Service.process (state : Service L P D) (pool : P) (envs : Nat → SendEnv L) : Service L P D :=
  if !(state.net.pool pool).isLimited then state
  else Service.loop topo pool envs (state.net.pool pool).pendingCount state

/-! ## The same service -/

variable {topo} {pool : P}

theorem Service.round_net (topo : Topology L P D) (state : Service L P D) (pool : P) (env : SendEnv L) :
    ((state.round topo pool env).1.net, (state.round topo pool env).2) =
      umqUbPendingRound topo state.net pool env := by
  unfold Service.round umqUbPendingRound
  by_cases drained : (state.net.pool pool).idle = 0
  · simp [drained]
  · cases waiting : (state.net.pool pool).pendingList with
    | nil => simp only [drained, if_false, waiting]
    | cons head rest =>
      simp only [drained, if_false, waiting]
      generalize umqUbSharedCreditRespSend topo _ _ _ _ _ _ env = result
      obtain ⟨sent, err | _⟩ := result <;> split <;> rfl

theorem Service.loop_net (pool : P) (envs : Nat → SendEnv L) (rounds : Nat) (state : Service L P D) :
    (Service.loop topo pool envs rounds state).net = umqUbPendingLoop topo pool envs rounds state.net := by
  induction rounds generalizing state with
  | zero => rfl
  | succ rounds ih =>
    have round := state.round_net topo pool (envs rounds)
    unfold Service.loop umqUbPendingLoop
    rcases result : state.round topo pool (envs rounds) with ⟨served, goesOn⟩
    rw [result] at round
    rw [← round]
    cases goesOn with
    | true => exact ih served
    | false => rfl

/-- The log and the references do not change what the service does to the network. -/
theorem Service.process_net {state : Service L P D} {envs : Nat → SendEnv L} :
    (state.process topo pool envs).net = umqUbCreditPendingQueueProcess topo state.net pool envs := by
  unfold Service.process umqUbCreditPendingQueueProcess
  split
  · rfl
  · exact Service.loop_net pool envs _ state

/-! ## What a round does to the list -/

variable {net net' : Net L P D} {other : P} {count : Nat}

def Net.waiting (net : Net L P D) (pool : P) : List (PendingReq L) × Nat :=
  ((net.pool pool).pendingList, (net.pool pool).pendingCount)

section

omit [DecidableEq L]

theorem Net.waiting_modifyPool {f : UbCreditPool L → UbCreditPool L}
    (list : (f (net.pool pool)).pendingList = (net.pool pool).pendingList)
    (count : (f (net.pool pool)).pendingCount = (net.pool pool).pendingCount) :
    (net.modifyPool pool f).waiting other = net.waiting other :=
  Net.forall_modifyPool (motive := fun other p => (p.pendingList, p.pendingCount) = net.waiting other)
    (by rw [list, count]; rfl) (fun _ => rfl) other

theorem availableCreditDec_pendingCount {pool : UbCreditPool L} :
    (availableCreditDec pool count).1.pendingCount = pool.pendingCount := by
  unfold availableCreditDec
  split <;> rfl

theorem availableCreditReturn_pendingCount {pool : UbCreditPool L} :
    (availableCreditReturn pool count).pendingCount = pool.pendingCount := by
  unfold availableCreditReturn
  split <;> rfl

theorem FcRep.failPool_pendingCount {rep : FcRep} {pool : UbCreditPool L} :
    (rep.failPool pool).pendingCount = pool.pendingCount := by
  unfold FcRep.failPool
  split
  · exact availableCreditReturn_pendingCount
  · rfl

end

/-- The completions a send reaps may return credit, but nobody leaves the list for it. -/
theorem Reaped.waiting {crs : List (FcCr L)} (reaped : Reaped topo crs net net') :
    net'.waiting pool = net.waiting pool := by
  refine reaped.keeps (motive := fun other => other.waiting pool = net.waiting pool) ?_ rfl
  intro other cr _ same
  rw [← same]
  obtain step | ⟨_, _, _, _, _, step⟩ | ⟨link, index, _, rep, _, _, _, step⟩ :=
    umqUbFcProcessTxError_cases topo other cr <;> rw [step]
  · rfl
  · exact other.waiting_modifyPool rep.failPool_pendingList rep.failPool_pendingCount

section

variable (net : Net L P D) {link : L}

theorem umqUbSharedCreditRespSend_waiting (link : L) (notify ratio seq stamp : Nat) (env : SendEnv L) (pool : P) :
    (umqUbSharedCreditRespSend topo net link notify ratio seq stamp env).1.waiting pool = net.waiting pool := by
  unfold umqUbSharedCreditRespSend
  obtain ⟨_, result⟩ | ⟨reached, err, reaped, _, result⟩ := umqUbFcSend_cases topo net link env
    fun _ l => l.postRep .creditReq notify ratio seq stamp env.fate <;> rw [result]
  · rfl
  · exact reaped.waiting

omit [DecidableEq P] in
theorem Net.waiting_modify {f : Link → Link} :
    (net.modify link f).waiting pool = net.waiting pool := rfl

theorem Net.waiting_grant {requested : Nat} :
    (net.grant pool link requested).waiting other = net.waiting other := by
  rw [Net.grant, Net.waiting_modify]
  exact net.waiting_modifyPool (availableCreditDec_pendingList _) availableCreditDec_pendingCount

theorem Net.waiting_giveBack {credit : Nat} :
    (net.giveBack pool link credit).waiting other = net.waiting other := by
  rw [Net.giveBack, Net.waiting_modify]
  exact net.waiting_modifyPool (availableCreditReturn_pendingList _)
    availableCreditReturn_pendingCount

omit [DecidableEq L]

theorem Net.waiting_pushBack {req : PendingReq L} :
    (net.modifyPool pool (·.pushBack req)).waiting pool = ((net.waiting pool).1 ++ [req], (net.waiting pool).2) := by
  simp [Net.waiting, UbCreditPool.pushBack]

theorem Net.waiting_countDown :
    (net.modifyPool pool fun p => { p with pendingCount := p.pendingCount - 1 }).waiting pool =
      ((net.waiting pool).1, (net.waiting pool).2 - 1) := by
  simp [Net.waiting]

theorem Net.waiting_popped {rest : List (PendingReq L)} :
    (net.modifyPool pool ({ · with pendingList := rest })).waiting pool = (rest, (net.pool pool).pendingCount) := by
  simp [Net.waiting]

end

/-- A round stops where it is, puts the first request to the end, or answers it. -/
theorem Service.round_cases (topo : Topology L P D) (state : Service L P D) (pool : P) (env : SendEnv L) :
    state.round topo pool env = (state, false) ∨
      ∃ head rest, (state.net.pool pool).pendingList = head :: rest ∧
        ((∃ net goesOn, state.round topo pool env = ({ state with net, tried := state.tried ++ [head] }, goesOn) ∧
            net.waiting pool = (rest ++ [head], (state.net.pool pool).pendingCount)) ∨
          ∃ net, state.round topo pool env =
              ({ net, refCnt := umqDecRef state.refCnt head.link, tried := state.tried ++ [head],
                 answered := state.answered ++ [head] }, true) ∧
            net.waiting pool = (rest, (state.net.pool pool).pendingCount - 1)) := by
  unfold Service.round
  by_cases drained : (state.net.pool pool).idle = 0
  · exact .inl (by simp only [drained, if_true])
  · cases waiting : (state.net.pool pool).pendingList with
    | nil => exact .inl (by simp only [drained, if_false, waiting])
    | cons head rest =>
      refine .inr ⟨head, rest, rfl, ?_⟩
      simp only [drained, if_false, waiting]
      split
      · refine .inl ⟨_, _, rfl, ?_⟩
        simp [Net.waiting, UbCreditPool.pushBack, availableCreditDec_pendingCount]
      · generalize computed : umqUbFcRaitoToImm _ _ = ratio
        generalize (availableCreditDec _ head.requested).2 = allocated
        have kept : (umqUbSharedCreditRespSend topo _ head.link allocated ratio head.seq head.stamp env).1.waiting
            pool = _ := umqUbSharedCreditRespSend_waiting
              ((state.net.modifyPool pool ({ · with pendingList := rest })).grant pool head.link head.requested)
              head.link allocated ratio head.seq head.stamp env pool
        rw [Net.waiting_grant, Net.waiting_popped] at kept
        rcases result : umqUbSharedCreditRespSend topo _ head.link allocated ratio head.seq head.stamp env with
          ⟨sent, err | _⟩ <;> rw [result] at kept
        · refine .inl ⟨_, _, rfl, ?_⟩
          rw [Net.waiting_pushBack, Net.waiting_giveBack, kept]
        · refine .inr ⟨_, rfl, ?_⟩
          rw [Net.waiting_countDown, kept]

/-! ## List, count and references -/

/-- The count is the length of the list, a queue waits at most once, and each waiting queue
has one reference besides those `others` hold. -/
structure Books (others : L → Nat) (pool : P) (state : Service L P D) : Prop where
  counted : (state.net.waiting pool).2 = (state.net.waiting pool).1.length
  once : ((state.net.waiting pool).1.map PendingReq.link).Nodup
  held : ∀ link,
    state.refCnt link = others link + if link ∈ (state.net.waiting pool).1.map PendingReq.link then 1 else 0

variable {others : L → Nat} {pool : P} {state : Service L P D} {head : PendingReq L} {rest : List (PendingReq L)}

omit [DecidableEq P] in
theorem Books.keep (books : Books others pool state) (first : (state.net.pool pool).pendingList = head :: rest)
    (list : net.waiting pool = (rest ++ [head], (state.net.pool pool).pendingCount)) (tried : List (PendingReq L)) :
    Books others pool { state with net, tried } := by
  have moved : (rest ++ [head]).Perm (state.net.pool pool).pendingList := by
    rw [first]
    exact perm_append_comm
  refine ⟨?_, ?_, ?_⟩
  · rw [list, moved.length_eq]
    exact books.counted
  · rw [list, (moved.map _).nodup_iff]
    exact books.once
  · intro link
    rw [list]
    simp only [(moved.map PendingReq.link).mem_iff]
    exact books.held link

omit [DecidableEq P] in
/-- The first request is answered: its queue was listed once, and gives up the reference. -/
theorem Books.answer (books : Books others pool state) (first : (state.net.pool pool).pendingList = head :: rest)
    (list : net.waiting pool = (rest, (state.net.pool pool).pendingCount - 1)) (tried answered : List (PendingReq L)) :
    Books others pool { net, refCnt := umqDecRef state.refCnt head.link, tried, answered } := by
  have counted : (state.net.pool pool).pendingCount = (state.net.pool pool).pendingList.length := books.counted
  have once : ((state.net.pool pool).pendingList.map PendingReq.link).Nodup := books.once
  rw [first, map_cons, nodup_cons] at once
  refine ⟨?_, ?_, ?_⟩
  · rw [list, counted, first]
    rfl
  · rw [list]
    exact once.2
  · intro link
    have held : state.refCnt link = others link + if link ∈ (state.net.pool pool).pendingList.map PendingReq.link
        then 1 else 0 := books.held link
    rw [list]
    simp only [first] at held
    by_cases here : link = head.link
    · subst here
      simp [umqDecRef, held, once.1]
    · simp [umqDecRef, here, held]

/-! ## The pass -/

/-- The service in the middle of a pass over the requests that were waiting. -/
structure Passing (waiting : List (PendingReq L)) (others : L → Nat) (pool : P) (left : List (PendingReq L))
    (state : Service L P D) : Prop where
  pass : FifoPass waiting state.tried state.answered left
  list : (state.net.pool pool).pendingList = requeued state.tried state.answered left
  books : Books others pool state

variable {waiting left : List (PendingReq L)}

/-- A round that goes on has come past one more request; a round may also be the last one. -/
theorem Passing.round (topo : Topology L P D) {next : PendingReq L}
    (passing : Passing waiting others pool (next :: left) state) (once : waiting.Nodup) (env : SendEnv L) :
    Passing waiting others pool left (state.round topo pool env).1 ∨
      state.round topo pool env = (state, false) := by
  obtain same | ⟨head, rest, first, ⟨net, goesOn, result, list⟩ | ⟨net, result, list⟩⟩ :=
    state.round_cases topo pool env
  · exact .inr same
  all_goals
    -- the request at the front is the next one of the pass, not one that was put back
    have front := passing.list.symm.trans first
    rw [requeued, cons_append, cons.injEq] at front
    obtain ⟨rfl, tail⟩ := front
    refine .inl ?_
    rw [result]
  · refine ⟨passing.pass.keep, ?_, passing.books.keep first list _⟩
    rw [requeued_keep passing.pass once, tail]
    exact congrArg Prod.fst list
  · refine ⟨passing.pass.answer, ?_, passing.books.answer first list _ _⟩
    rw [requeued_answer passing.pass once, tail]
    exact congrArg Prod.fst list

theorem Passing.loop (passing : Passing waiting others pool left state) (once : waiting.Nodup)
    (envs : Nat → SendEnv L) :
    ∃ unseen, Passing waiting others pool unseen (Service.loop topo pool envs left.length state) := by
  induction left generalizing state with
  | nil => exact ⟨[], passing⟩
  | cons next left ih =>
    rw [length_cons]
    unfold Service.loop
    obtain advanced | stopped := passing.round topo once (envs left.length)
    · rcases result : state.round topo pool (envs left.length) with ⟨served, goesOn⟩
      rw [result] at advanced
      cases goesOn with
      | true => exact ih advanced
      | false => exact ⟨left, advanced⟩
    · rw [stopped]
      exact ⟨next :: left, passing⟩

/-- One service of a pool, for every list, every amount of idle credit and every outcome of
the sends.  The requests it takes are the first ones of the list, in their order and each
once; exactly those whose response went out leave the list; and the list stays in step
with its count and the references. -/
theorem pendingService_exact (topo : Topology L P D) (net : Net L P D) (refCnt others : L → Nat) (pool : P)
    (envs : Nat → SendEnv L) (books : Books others pool ⟨net, refCnt, [], []⟩) :
    let served := Service.process topo ⟨net, refCnt, [], []⟩ pool envs
    served.net = umqUbCreditPendingQueueProcess topo net pool envs ∧
    served.tried <+: (net.pool pool).pendingList ∧ (served.tried.map PendingReq.link).Nodup ∧
    served.answered.Sublist served.tried ∧
    (served.net.pool pool).pendingList =
      (net.pool pool).pendingList.drop served.tried.length ++ served.tried.filter (· ∉ served.answered) ∧
    (∀ req, req ∈ (served.net.pool pool).pendingList ↔ req ∈ (net.pool pool).pendingList ∧ req ∉ served.answered) ∧
    Books others pool served := by
  intro served
  have links : ((net.pool pool).pendingList.map PendingReq.link).Nodup := books.once
  have once : (net.pool pool).pendingList.Nodup := links.of_map _
  have counted : (net.pool pool).pendingCount = (net.pool pool).pendingList.length := books.counted
  have passing : ∃ unseen, Passing (net.pool pool).pendingList others pool unseen served := by
    have start : Passing (net.pool pool).pendingList others pool (net.pool pool).pendingList ⟨net, refCnt, [], []⟩ :=
      ⟨.start, by simp [requeued], books⟩
    simp only [served, Service.process]
    split
    · exact ⟨_, start⟩
    · rw [counted]
      exact start.loop once envs
  obtain ⟨unseen, passing⟩ := passing
  have order := passing.pass.order
  refine ⟨Service.process_net, ⟨unseen, order.symm⟩, ?_, passing.pass.listed, ?_, ?_, passing.books⟩
  · rw [order, map_append] at links
    exact links.of_append_left
  · rw [passing.list, requeued, order, drop_left]
  · intro req
    rw [passing.list, (passing.pass.requeued_perm once).mem_iff, mem_filter, decide_eq_true_iff]

/-! ### A service that stops half way

Two queues wait and three credits came in: the first response goes out and takes them all. -/

def twoWaiting : Net Bool Unit Unit :=
  sharedStart.modifyPool () fun pool =>
    { pool with idle := 3, pendingList := [⟨true, 3, 1, 0⟩, ⟨false, 4, 1, 0⟩], pendingCount := 2 }

theorem pendingService_twoWaiting :
    Books (fun _ => 1) () ⟨twoWaiting, fun _ => 2, [], []⟩ ∧
      ((umqUbCreditPendingQueueProcess sharedTopology twoWaiting () fun _ => smooth).pool ()).pendingList =
        [⟨false, 4, 1, 0⟩] ∧
      Books (fun _ => 1) () (Service.process sharedTopology ⟨twoWaiting, fun _ => 2, [], []⟩ () fun _ => smooth) := by
  have books : Books (fun _ => 1) () ⟨twoWaiting, fun _ => 2, [], []⟩ := by
    refine ⟨by decide, by decide, fun link => ?_⟩
    cases link <;> decide
  have served := pendingService_exact sharedTopology twoWaiting (fun _ => 2) (fun _ => 1) () (fun _ => smooth) books
  exact ⟨books, by decide, served.2.2.2.2.2.2⟩

end UbsComm.FlowControl
