import UbsComm.FlowControl.Model

/-! # The credit protocol of one link

A call into the library touches several links: its polls reap completions of any of
them, and refilling a pool answers whoever waits.  Seen from a single link, though,
every call is a sequence of small moves.  `View` is what one link consists of in the
middle of a call, `LinkMove` the moves, and `Evolves` says that a change of the whole
network is, on each link, a sequence of them.  The lemmas below show it for every
flow-control function; invariants then only have to look at the moves. -/

namespace UbsComm.FlowControl

open Ub List Function

/-- What the receiver keeps of a request it has accepted. -/
structure Ticket where
  kind : ReqKind
  requested : Nat
  seq : Nat
  stamp : Nat

def FcReq.ticket (req : FcReq) : Ticket := ⟨req.kind, req.window.val, req.seq, req.stamp⟩

def FcReq.carried (req : FcReq) : Nat :=
  match req.kind with
  | .creditReq => 0
  | .returnReq => req.window.val

def FcRep.carried (rep : FcRep) : Nat :=
  match rep.kind with
  | .creditReq => rep.window.val
  | .returnReq => 0

/-- What the running call holds of a link: the permission to ask, credit taken out of
the window, or an accepted request and the credit that goes with it. -/
inductive Hold where
  | asking
  | returning (credit : Nat)
  | serving (ticket : Ticket) (credit : Nat)

structure View where
  link : Link
  pending : List Ticket
  consumed : Nat
  hold : Option Hold

/-- The moves on one link.  With `lossy` an accepted return request may be dropped. -/
inductive LinkMove (lossy : Prop) : View → View → Prop where
  | failReq {view : View} {index : Nat} {req : FcReq} (found : view.link.reqs[index]? = some req)
      (failed : req.fate = .failed) :
      LinkMove lossy view { view with link := view.link.failReq index req }
  | failRep {view : View} {index : Nat} {rep : FcRep} (found : view.link.reps[index]? = some rep)
      (failed : rep.fate = .failed) :
      LinkMove lossy view { view with link := view.link.failRep index rep }
  | acquire {view : View} (free : view.hold = none) (released : view.link.isCreditApplying = false) :
      LinkMove lossy view
        { view with link := { view.link with isCreditApplying := true }, hold := some .asking }
  | release {view : View} (held : view.hold = some .asking) :
      LinkMove lossy view { view with link := { view.link with isCreditApplying := false }, hold := none }
  | tune {view : View} (count : Nat) (held : view.hold = some .asking) :
      LinkMove lossy view { view with link := { view.link with creditsPerRequest := max 1 count } }
  | debit {view : View} (required : Nat) (held : view.hold = some .asking) (small : required ≤ umqUbFcMaxImmData) :
      LinkMove lossy view
        { view with
          link := { view.link with remoteRxWindow := (remoteRxWindowDec view.link.remoteRxWindow required).1 }
          hold := some (.returning (remoteRxWindowDec view.link.remoteRxWindow required).2) }
  | refund {view : View} {credit : Nat} (held : view.hold = some (.returning credit)) :
      LinkMove lossy view
        { view with
          link := { view.link with
            isCreditApplying := false
            remoteRxWindow := remoteRxWindowInc view.link.remoteRxWindow credit }
          hold := none }
  | postCreditReq {view : View} (fate : Fate) (held : view.hold = some .asking) :
      LinkMove lossy view
        { view with
          link := view.link.postReq .creditReq (min view.link.creditsPerRequest umqUbFcMaxImmData) fate
          hold := none }
  | postReturnReq {view : View} {credit : Nat} (fate : Fate) (held : view.hold = some (.returning credit)) :
      LinkMove lossy view { view with link := view.link.postReq .returnReq credit fate, hold := none }
  | wait {view : View} {ticket : Ticket} (held : view.hold = some (.serving ticket 0))
    (kind : ticket.kind = .creditReq) :
      LinkMove lossy view { view with pending := view.pending ++ [ticket], hold := none }
  | next {view : View} {ticket : Ticket} {rest : List Ticket} (free : view.hold = none)
      (first : view.pending = ticket :: rest) :
      LinkMove lossy view { view with pending := rest, hold := some (.serving ticket 0) }
  | park {view : View} {req : FcReq} {credit : Nat} (held : view.hold = some (.serving req.ticket credit))
      (settled : req.kind = .creditReq → credit = 0) :
      LinkMove lossy view { view with link := { view.link with retry := view.link.retry ++ [req] }, hold := none }
  | resume {view : View} {index : Nat} {req : FcReq} (free : view.hold = none)
      (found : view.link.retry[index]? = some req) :
      LinkMove lossy view
        { view with
          link := { view.link with retry := view.link.retry.eraseIdx index }
          hold := some (.serving req.ticket req.carried) }
  | grant {view : View} {ticket : Ticket} (credit : Nat) (held : view.hold = some (.serving ticket 0))
      (kind : ticket.kind = .creditReq) (bounded : credit ≤ ticket.requested) :
      LinkMove lossy view
        { view with
          link := { view.link with allocatedSuccess := view.link.allocatedSuccess + credit }
          hold := some (.serving ticket credit) }
  | revoke {view : View} {ticket : Ticket} {credit : Nat} (held : view.hold = some (.serving ticket credit))
      (kind : ticket.kind = .creditReq) :
      LinkMove lossy view
        { view with
          link := { view.link with allocatedSuccess := view.link.allocatedSuccess - credit }
          hold := some (.serving ticket 0) }
  | reply {view : View} {ticket : Ticket} {credit : Nat} (ratio : Nat) (fate : Fate)
      (held : view.hold = some (.serving ticket credit)) (kind : ticket.kind = .creditReq)
      (reported : ratio < creditRatio.length) :
      LinkMove lossy view
        { view with
          link := view.link.postRep .creditReq credit ratio ticket.seq ticket.stamp fate
          hold := none }
  | clamp {view : View} {ticket : Ticket} {credit : Nat} (held : view.hold = some (.serving ticket credit))
      (kind : ticket.kind = .returnReq) :
      LinkMove lossy view
        { view with hold := some (.serving ticket (min credit (view.link.allocatedSuccess - view.consumed))) }
  | acknowledge {view : View} {ticket : Ticket} {credit : Nat} (ratio : Nat) (fate : Fate)
      (held : view.hold = some (.serving ticket credit)) (kind : ticket.kind = .returnReq)
      (reported : ratio < creditRatio.length) :
      LinkMove lossy view
        { view with
          link := { view.link.postRep .returnReq credit ratio ticket.seq ticket.stamp fate with
            allocatedSuccess := view.link.allocatedSuccess - credit }
          hold := none }
  | drop {view : View} {ticket : Ticket} {credit : Nat} (held : view.hold = some (.serving ticket credit))
      (settled : ticket.kind = .creditReq → credit = 0) (returned : ticket.kind = .returnReq → lossy) :
      LinkMove lossy view { view with hold := none }

/-! ## The network seen from a link -/

variable {L P D : Type} [DecidableEq L]

def PendingReq.ticket (req : PendingReq L) : Ticket := ⟨.creditReq, req.requested, req.seq, req.stamp⟩

/-- The link the running call is busy with, and what it holds of it. -/
abbrev Hand (L : Type) := Option (L × Hold)

def Hand.on (hand : Hand L) (link : L) : Option Hold :=
  hand.bind fun held => if held.1 = link then some held.2 else none

variable (link : L) {hold : Hold} {other : L}

@[simp]
theorem Hand.on_none : Hand.on none link = none := rfl

@[simp]
theorem Hand.on_self : Hand.on (some (link, hold)) link = some hold := by
  simp [Hand.on]

theorem Hand.on_other {link : L} (ne : other ≠ link) :
    Hand.on (some (link, hold)) other = none := by
  simp [Hand.on, ne.symm]

variable (topo : Topology L P D)

def Net.view (net : Net L P D) (hand : Hand L) (link : L) : View where
  link := net.link link
  pending := ((net.pool (topo.poolOf link)).pendingList.filter (·.link = link)).map PendingReq.ticket
  consumed := net.consumed topo link
  hold := hand.on link

/-- A waiting request stands in the list of its own pool. -/
def Net.Homed (net : Net L P D) : Prop :=
  ∀ pool, ∀ req ∈ (net.pool pool).pendingList, topo.poolOf req.link = pool

section

variable (net : Net L P D)
include net

section

variable (f : Link → Link)

@[simp]
theorem Net.modify_link_self : (net.modify link f).link link = f (net.link link) := by
  simp [Net.modify]

theorem Net.modify_link_other {link : L} (ne : other ≠ link) :
    (net.modify link f).link other = net.link other := by
  simp [Net.modify, ne]

@[simp]
theorem Net.modify_pool : (net.modify link f).pool = net.pool := rfl

@[simp]
theorem Net.modify_consumed :
    (net.modify link f).consumed topo other = net.consumed topo other := rfl

@[simp]
theorem Net.modify_retryFree : (net.modify link f).retryFree = net.retryFree := rfl

end

section

omit [DecidableEq L]
variable [DecidableEq P] (f : UbCreditPool L → UbCreditPool L) {pool : P}

@[simp]
theorem Net.modifyPool_link :
    (net.modifyPool pool f).link = net.link := rfl

@[simp]
theorem Net.modifyPool_consumed :
    (net.modifyPool pool f).consumed topo link = net.consumed topo link := rfl

@[simp]
theorem Net.modifyPool_retryFree :
    (net.modifyPool pool f).retryFree = net.retryFree := rfl

@[simp]
theorem Net.modifyPool_pool_self : (net.modifyPool pool f).pool pool = f (net.pool pool) := by
  simp [Net.modifyPool]

theorem Net.modifyPool_pool_other {other : P}
    (ne : other ≠ pool) : (net.modifyPool pool f).pool other = net.pool other := by
  simp [Net.modifyPool, ne]

end

end

/-- The two configurations differ by a sequence of moves on each link. -/
structure Evolves (lossy : Prop) (hand : Hand L) (net : Net L P D) (hand' : Hand L) (net' : Net L P D) : Prop where
  homed : net.Homed topo → net'.Homed topo
  moves : net.Homed topo → ∀ link,
    Relation.ReflTransGen (LinkMove lossy) (net.view topo hand link) (net'.view topo hand' link)

variable {topo} {lossy : Prop} {hand hand' hand'' : Hand L} {net net' net'' : Net L P D}
  {f : Link → Link}

theorem Evolves.refl : Evolves topo lossy hand net hand net :=
  ⟨id, fun _ _ => .refl⟩

theorem Evolves.trans (first : Evolves topo lossy hand net hand' net')
    (second : Evolves topo lossy hand' net' hand'' net'') : Evolves topo lossy hand net hand'' net'' :=
  ⟨second.homed ∘ first.homed,
    fun homed link => (first.moves homed link).trans (second.moves (first.homed homed) link)⟩

theorem Evolves.of_homed (evolves : net.Homed topo → Evolves topo lossy hand net hand' net') :
    Evolves topo lossy hand net hand' net' :=
  ⟨fun homed => (evolves homed).homed homed, fun homed => (evolves homed).moves homed⟩

theorem Evolves.keeps {Invariant : View → Prop}
    (preserved : ∀ {view view' : View}, LinkMove lossy view view' → Invariant view → Invariant view')
    (evolves : Evolves topo lossy hand net hand' net') (homed : net.Homed topo) {link : L}
    (start : Invariant (net.view topo hand link)) : Invariant (net'.view topo hand' link) := by
  have moves := evolves.moves homed link
  generalize net'.view topo hand' link = view' at moves ⊢
  induction moves with
  | refl => exact start
  | tail _ move ih => exact preserved move ih

/-- Everything a view shows agrees, up to a move on one link. -/
theorem Evolves.one (homed : net.Homed topo → net'.Homed topo)
    (others : ∀ other, other ≠ link → net'.view topo hand' other = net.view topo hand other)
    (move : net.Homed topo → LinkMove lossy (net.view topo hand link) (net'.view topo hand' link)) :
    Evolves topo lossy hand net hand' net' := by
  refine ⟨homed, ?_⟩
  intro isHomed other
  by_cases same : other = link
  · exact same ▸ .single (move isHomed)
  · rw [others other same]

theorem Evolves.same (homed : net.Homed topo → net'.Homed topo)
    (views : ∀ link, net'.view topo hand link = net.view topo hand link) : Evolves topo lossy hand net hand net' :=
  ⟨homed, fun _ link => views link ▸ .refl⟩

theorem Net.view_modify_self :
    (net.modify link f).view topo hand link = { net.view topo hand link with link := f (net.link link) } := by
  simp [Net.view]

theorem Net.view_modify_other {link : L} (ne : other ≠ link) :
    (net.modify link f).view topo hand other = net.view topo hand other := by
  simp [Net.view, Net.modify_link_other _ _ ne]

theorem Net.view_hand {link : L} (same : Hand.on hand' link = Hand.on hand link) :
    net.view topo hand' link = net.view topo hand link := by
  simp [Net.view, same]

theorem Net.modify_modify {g : Link → Link} :
    (net.modify link f).modify link g = net.modify link fun l => g (f l) := by
  simp [Net.modify]

/-- What the changed record of a link has, and those of the others, all links have. -/
theorem Net.forall_modify {motive : L → Link → Prop} (f : Link → Link) (self : motive link (f (net.link link)))
    (others : ∀ other, motive other (net.link other)) : ∀ other, motive other ((net.modify link f).link other) :=
  (forall_update_iff net.link motive).mpr ⟨self, fun other _ => others other⟩

/-- A move that changes one link's record, and the hand on that link only. -/
theorem Evolves.modify
    (others : ∀ other, other ≠ link → Hand.on hand' other = Hand.on hand other)
    (move : LinkMove lossy (net.view topo hand link)
      { net.view topo hand link with link := f (net.link link), hold := Hand.on hand' link }) :
    Evolves topo lossy hand net hand' (net.modify link f) := by
  refine .one link id ?_ fun _ => ?_
  · intro other ne
    rw [Net.view_modify_other ne, Net.view_hand (others other ne)]
  · rw [Net.view_modify_self]
    exact move

theorem Evolves.retryFree (free : P → Nat) : Evolves topo lossy hand net hand { net with retryFree := free } :=
  .same id fun _ => rfl

variable [DecidableEq P] {f : UbCreditPool L → UbCreditPool L} {count : Nat}

omit [DecidableEq L] in
theorem Net.forall_modifyPool {motive : P → UbCreditPool L → Prop} {pool : P} (self : motive pool (f (net.pool pool)))
    (others : ∀ other, motive other (net.pool other)) : ∀ other, motive other ((net.modifyPool pool f).pool other) :=
  (forall_update_iff net.pool motive).mpr ⟨self, fun other _ => others other⟩

omit [DecidableEq L] in
theorem Net.pendingList_modifyPool {pool other : P}
    (keeps : (f (net.pool pool)).pendingList = (net.pool pool).pendingList) :
    ((net.modifyPool pool f).pool other).pendingList = (net.pool other).pendingList :=
  Net.forall_modifyPool (motive := fun other p => p.pendingList = (net.pool other).pendingList) keeps
    (fun _ => rfl) other

/-- Counters of a pool do not show on any link. -/
theorem Evolves.pool (pool : P) (f : UbCreditPool L → UbCreditPool L)
    (keeps : (f (net.pool pool)).pendingList = (net.pool pool).pendingList) :
    Evolves topo lossy hand net hand (net.modifyPool pool f) := by
  refine .same ?_ ?_
  · intro homed other req waiting
    rw [Net.pendingList_modifyPool keeps] at waiting
    exact homed other req waiting
  · intro link
    simp [Net.view, Net.pendingList_modifyPool keeps]

section

omit [DecidableEq L]
variable (pool : UbCreditPool L)

@[simp]
theorem availableCreditDec_pendingList :
    (availableCreditDec pool count).1.pendingList = pool.pendingList := by
  unfold availableCreditDec
  split <;> rfl

@[simp]
theorem availableCreditReturn_pendingList :
    (availableCreditReturn pool count).pendingList = pool.pendingList := by
  unfold availableCreditReturn
  split <;> rfl

theorem allocatedCreditDec_pendingList :
    (allocatedCreditDec pool count).pendingList = pool.pendingList := by
  unfold allocatedCreditDec
  split <;> rfl

theorem availableCreditDec_le : (availableCreditDec pool count).2 ≤ count := by
  unfold availableCreditDec
  split
  · exact Nat.min_le_right _ _
  · exact Nat.le_refl _

/-! ## Sends

A completion with an error fails the send that reaps it.  So a send that succeeds has done
nothing to the network before its message is posted, one that fails has processed
completions its polls reaped, and which of the two happens depends on the environment
alone. -/

end

variable (topo) in
/-- The second network is the first one after some of the given completions. -/
def Reaped (crs : List (FcCr L)) (net net' : Net L P D) : Prop :=
  ∃ reaped, reaped ⊆ crs ∧ net' = reaped.foldl (umqUbFcProcessTxError topo) net

theorem Reaped.refl {crs : List (FcCr L)} : Reaped topo crs net net :=
  ⟨[], nil_subset _, rfl⟩

theorem Reaped.mono {crs crs' : List (FcCr L)} (reaped : Reaped topo crs net net') (more : crs ⊆ crs') :
    Reaped topo crs' net net' := by
  obtain ⟨list, covered, result⟩ := reaped
  exact ⟨list, List.Subset.trans covered more, result⟩

/-- A property of the network that every completion keeps is kept by a send. -/
theorem Reaped.keeps {crs : List (FcCr L)} {motive : Net L P D → Prop} (reaped : Reaped topo crs net net')
    (step : ∀ net cr, cr ∈ crs → motive net → motive (umqUbFcProcessTxError topo net cr))
    (start : motive net) : motive net' := by
  obtain ⟨list, covered, rfl⟩ := reaped
  exact list.foldlRecOn _ start fun net kept cr mem => step net cr (covered mem) kept

def FcPoll.crs : FcPoll L → List (FcCr L)
  | .skipped | .broken => []
  | .polled crs => crs.take umqUbFlowControlJettyDepth

def FcPoll.ret : FcPoll L → UmqRet
  | .skipped => .ok ()
  | .broken => .error .fail
  | .polled crs => (crs.take umqUbFlowControlJettyDepth).foldl (fun ret cr => cr.ret ret) (.ok ())

theorem foldl_processTxError (crs : List (FcCr L)) (net : Net L P D) (ret : UmqRet) :
    crs.foldl (fun state cr => (umqUbFcProcessTxError topo state.1 cr, cr.ret state.2)) (net, ret) =
      (crs.foldl (umqUbFcProcessTxError topo) net, crs.foldl (fun ret cr => cr.ret ret) ret) := by
  induction crs generalizing net ret with
  | nil => rfl
  | cons cr crs ih => exact ih _ _

omit [DecidableEq L] in
theorem foldl_ret_error (crs : List (FcCr L)) (err : UmqErr) :
    ∃ err', crs.foldl (fun ret cr => cr.ret ret) (.error err : UmqRet) = .error err' := by
  induction crs generalizing err with
  | nil => exact ⟨err, rfl⟩
  | cons cr crs ih => cases cr <;> exact ih _

theorem foldl_processTxError_ok {crs : List (FcCr L)} (ok : crs.foldl (fun ret cr => cr.ret ret) (.ok ()) = .ok ()) :
    crs.foldl (umqUbFcProcessTxError topo) net = net := by
  induction crs with
  | nil => rfl
  | cons cr crs ih =>
    cases cr with
    | done => exact ih ok
    | failedReq link index fatal | failedRep link index fatal =>
      obtain ⟨err, failed⟩ := foldl_ret_error crs (if fatal then .eflowctlFatal else .eflowctl)
      rw [foldl_cons, FcCr.ret, failed] at ok
      cases ok

variable (topo) in
/-- A call that returns `ret`: it succeeds and changes nothing, or it fails after some of
the given completions. -/
def Ends {E : Type} (crs : List (FcCr L)) (net : Net L P D) (ret : Except E Unit) (result : Net L P D × Except E Unit) :
    Prop :=
  (ret = .ok () ∧ result = (net, .ok ())) ∨
    ∃ reached err, Reaped topo crs net reached ∧ ret = .error err ∧ result = (reached, .error err)

variable {E : Type} {result : Net L P D × Except E Unit} {credit : Nat} {ticket : Ticket}
  {env : SendEnv L} {envs : Nat → SendEnv L}

theorem Ends.same {crs : List (FcCr L)} {ret : Except E Unit} : Ends topo crs net ret (net, ret) := by
  rcases ret with err | _
  · exact .inr ⟨net, err, .refl, rfl, rfl⟩
  · exact .inl ⟨rfl, rfl⟩

theorem Ends.mono {crs crs' : List (FcCr L)} {ret : Except E Unit}
    (ends : Ends topo crs net ret result) (more : crs ⊆ crs') : Ends topo crs' net ret result := by
  obtain done | ⟨reached, err, reaped, failed⟩ := ends
  · exact .inl done
  · exact .inr ⟨reached, err, reaped.mono more, failed⟩

theorem Ends.reaped {crs : List (FcCr L)} {ret : Except E Unit}
    (ends : Ends topo crs net ret result) : Reaped topo crs net result.1 := by
  obtain ⟨_, rfl⟩ | ⟨reached, err, reaped, _, rfl⟩ := ends
  · exact .refl
  · exact reaped

theorem umqUbPollFcTx_ends (topo : Topology L P D) (net : Net L P D) (poll : FcPoll L) :
    Ends topo poll.crs net poll.ret (umqUbPollFcTx topo net poll) := by
  cases poll with
  | skipped | broken => exact .same
  | polled crs =>
    rw [umqUbPollFcTx, foldl_processTxError, FcPoll.ret, FcPoll.crs]
    generalize crs.take umqUbFlowControlJettyDepth = reaped
    cases ret : reaped.foldl (fun ret cr => cr.ret ret) (.ok ()) with
    | ok _ => exact .inl ⟨rfl, by rw [foldl_processTxError_ok ret]⟩
    | error err => exact .inr ⟨_, err, ⟨reaped, List.Subset.refl _, rfl⟩, rfl, rfl⟩

/-- What `umq_ub_flow_control_try_post_send` makes of one attempt. -/
def PostAttempt.outcome (attempt : PostAttempt L) : Except UrmaError Unit × Bool :=
  if !retriable attempt.status then (attempt.status, false)
  else match attempt.poll.ret with
    | .error _ => (.error .fail, false)
    | .ok () => (attempt.status, true)

def postStatus (attempt : PostAttempt L) : List (PostAttempt L) → Except UrmaError Unit
  | [] => attempt.outcome.1
  | next :: rest => if attempt.outcome.2 then postStatus next rest else attempt.outcome.1

/-- An attempt that posts, or that is worth another try, leaves the network alone. -/
theorem umqUbTryPostOnce_cases (topo : Topology L P D) (net : Net L P D) (attempt : PostAttempt L) :
    umqUbTryPostOnce topo net attempt = (net, attempt.outcome) ∨
      ∃ reached, Reaped topo attempt.poll.crs net reached ∧ attempt.outcome = (.error .fail, false) ∧
        umqUbTryPostOnce topo net attempt = (reached, .error .fail, false) := by
  unfold umqUbTryPostOnce PostAttempt.outcome
  split
  · exact .inl rfl
  · obtain ⟨ret, result⟩ | ⟨reached, err, reaped, ret, result⟩ := umqUbPollFcTx_ends topo net attempt.poll <;>
      rw [ret, result]
    · exact .inl rfl
    · exact .inr ⟨reached, reaped, rfl, rfl⟩

theorem umqUbFlowControlTryPostSend_ends (topo : Topology L P D) (net : Net L P D) (attempt : PostAttempt L)
    (more : List (PostAttempt L)) :
    Ends topo ((attempt :: more).flatMap (·.poll.crs)) net (postStatus attempt more)
      (umqUbFlowControlTryPostSend topo net attempt more) := by
  induction more generalizing attempt with
  | nil =>
    obtain result | ⟨reached, reaped, outcome, result⟩ := umqUbTryPostOnce_cases topo net attempt
    · rw [umqUbFlowControlTryPostSend, result]
      exact .same
    · rw [umqUbFlowControlTryPostSend, postStatus, result, outcome]
      exact .inr ⟨reached, .fail, reaped.mono (subset_append_left _ _), rfl, rfl⟩
  | cons next rest ih =>
    obtain result | ⟨reached, reaped, outcome, result⟩ := umqUbTryPostOnce_cases topo net attempt
    · rw [umqUbFlowControlTryPostSend, postStatus, result]
      rcases attempt.outcome with ⟨status, _ | _⟩
      · exact .same
      · exact (ih next).mono (subset_append_right _ _)
    · rw [umqUbFlowControlTryPostSend, postStatus, result, outcome]
      exact .inr ⟨reached, .fail, reaped.mono (subset_append_left _ _), rfl, rfl⟩

/-- Every completion a send may reap. -/
def SendEnv.crs (env : SendEnv L) : List (FcCr L) :=
  env.poll.crs ++ (env.attempt :: env.retries.take umqUbFlowControlPollMaxRetry).flatMap (·.poll.crs)

def SendEnv.prepareRet (env : SendEnv L) : UmqRet :=
  match env.poll.ret with
  | .error err => .error err
  | .ok () => env.jettyNode

def SendEnv.postRet (env : SendEnv L) : UmqRet :=
  match postStatus env.attempt (env.retries.take umqUbFlowControlPollMaxRetry) with
  | .ok () => .ok ()
  | .error status => .error (if retriable (.error status) then .eflowctlEagain else .eflowctl)

def SendEnv.ret (env : SendEnv L) : UmqRet :=
  if !env.bound then .error .emlink
  else match env.prepareRet with
    | .error err => .error err
    | .ok () => env.postRet

theorem umqUbFcPrepare_ends (topo : Topology L P D) (net : Net L P D) (env : SendEnv L) :
    Ends topo env.poll.crs net env.prepareRet (umqUbFcPrepare topo net env) := by
  unfold umqUbFcPrepare SendEnv.prepareRet
  obtain ⟨ret, result⟩ | ⟨reached, err, reaped, ret, result⟩ := umqUbPollFcTx_ends topo net env.poll <;>
    rw [ret, result]
  · exact .same
  · exact .inr ⟨reached, err, reaped, rfl, rfl⟩

theorem umqUbFcPost_ends (topo : Topology L P D) (net : Net L P D) (env : SendEnv L) :
    Ends topo ((env.attempt :: env.retries.take umqUbFlowControlPollMaxRetry).flatMap (·.poll.crs)) net env.postRet
      (umqUbFcPost topo net env) := by
  unfold umqUbFcPost SendEnv.postRet
  obtain ⟨ret, result⟩ | ⟨reached, err, reaped, ret, result⟩ :=
      umqUbFlowControlTryPostSend_ends topo net env.attempt (env.retries.take umqUbFlowControlPollMaxRetry) <;>
    rw [ret, result]
  · exact .inl ⟨rfl, rfl⟩
  · exact .inr ⟨reached, _, reaped, rfl, rfl⟩

omit [DecidableEq L] in
theorem FcRep.failPool_pendingList {rep : FcRep} {pool : UbCreditPool L} :
    (rep.failPool pool).pendingList = pool.pendingList := by
  unfold FcRep.failPool
  split <;> simp

/-- A completion changes nothing, or takes one failed message off the books. -/
theorem umqUbFcProcessTxError_cases (topo : Topology L P D) (net : Net L P D) (cr : FcCr L) :
    umqUbFcProcessTxError topo net cr = net ∨
      (∃ link index req, (net.link link).reqs[index]? = some req ∧ req.fate = .failed ∧
        umqUbFcProcessTxError topo net cr = net.modify link (·.failReq index req)) ∨
      ∃ link index fatal rep, cr = .failedRep link index fatal ∧ (net.link link).reps[index]? = some rep ∧
        rep.fate = .failed ∧
        umqUbFcProcessTxError topo net cr =
          (net.modifyPool (topo.poolOf link) rep.failPool).modify link (·.failRep index rep) := by
  cases cr with
  | done => exact .inl rfl
  | failedReq link index fatal =>
    simp only [umqUbFcProcessTxError]
    cases found : (net.link link).reqs[index]? with
    | none => exact .inl rfl
    | some req =>
      by_cases failed : req.fate = .failed
      · exact .inr (.inl ⟨link, index, req, found, failed, by simp only [failed, if_true]⟩)
      · exact .inl (by simp only [failed, if_false])
  | failedRep link index fatal =>
    simp only [umqUbFcProcessTxError]
    cases found : (net.link link).reps[index]? with
    | none => exact .inl rfl
    | some rep =>
      by_cases failed : rep.fate = .failed
      · exact .inr (.inr ⟨link, index, fatal, rep, rfl, found, failed, by simp only [failed, if_true]⟩)
      · exact .inl (by simp only [failed, if_false])

theorem umqUbFcProcessTxError_evolves {cr : FcCr L} :
    Evolves topo lossy hand net hand (umqUbFcProcessTxError topo net cr) := by
  obtain same | ⟨link, index, req, found, failed, same⟩ | ⟨link, index, fatal, rep, _, found, failed, same⟩ :=
    umqUbFcProcessTxError_cases topo net cr <;> rw [same]
  · exact .refl
  · exact .modify link (fun _ _ => rfl) (.failReq found failed)
  · refine (Evolves.pool (topo.poolOf link) rep.failPool rep.failPool_pendingList).trans ?_
    exact .modify link (fun _ _ => rfl) (.failRep found failed)

theorem Reaped.evolves {crs : List (FcCr L)} (reaped : Reaped topo crs net net') :
    Evolves topo lossy hand net hand net' :=
  reaped.keeps (fun _ _ _ evolves => evolves.trans umqUbFcProcessTxError_evolves) .refl

/-! ## Requests -/

/-- Taking a link into the hand, and letting go of it, leaves the others alone. -/
theorem Hand.taken : ∀ other, other ≠ link → Hand.on (some (link, hold)) other = Hand.on none other :=
  fun _ ne => Hand.on_other ne

theorem Hand.released : ∀ other, other ≠ link → Hand.on none other = Hand.on (some (link, hold)) other :=
  fun _ ne => (Hand.on_other ne).symm

theorem Hand.changed {hold' : Hold} :
    ∀ other, other ≠ link → Hand.on (some (link, hold')) other = Hand.on (some (link, hold)) other :=
  fun _ ne => (Hand.on_other ne).trans (Hand.on_other ne).symm

section

omit [DecidableEq P]

theorem evolves_acquire {link : L} (released : (net.link link).isCreditApplying = false) :
    Evolves topo lossy none net (some (link, .asking)) (net.modify link ({ · with isCreditApplying := true })) := by
  refine .modify link (Hand.taken link) ?_
  rw [Hand.on_self]
  exact .acquire rfl released

theorem umqUbPermissionRelease_evolves :
    Evolves topo lossy (some (link, .asking)) net none (umqUbPermissionRelease net link) :=
  .modify link (Hand.released link) (.release (Hand.on_self _))

theorem evolves_tune (count : Nat → Nat) :
    Evolves topo lossy (some (link, .asking)) net (some (link, .asking))
      (net.modify link fun l => { l with creditsPerRequest := max 1 (count l.creditsPerRequest) }) := by
  refine .modify link (fun _ _ => rfl) ?_
  exact .tune (count (net.link link).creditsPerRequest) (Hand.on_self _)

theorem evolves_debit {required : Nat} (small : required ≤ umqUbFcMaxImmData) :
    Evolves topo lossy (some (link, .asking)) net
      (some (link, .returning (remoteRxWindowDec (net.link link).remoteRxWindow required).2))
      (net.modify link
        ({ · with remoteRxWindow := (remoteRxWindowDec (net.link link).remoteRxWindow required).1 })) := by
  refine .modify link (Hand.changed link) ?_
  rw [Hand.on_self]
  exact .debit required (Hand.on_self _) small

theorem evolves_refund :
    Evolves topo lossy (some (link, .returning credit)) net none
      ((umqUbPermissionRelease net link).modify link fun l =>
        { l with remoteRxWindow := remoteRxWindowInc l.remoteRxWindow credit }) := by
  rw [umqUbPermissionRelease, Net.modify_modify]
  refine .modify link (Hand.released link) ?_
  exact .refund (Hand.on_self _)

end

theorem umqUbSharedCreditReqSend_evolves :
    Evolves topo lossy none net none (umqUbSharedCreditReqSend topo net link env).1 := by
  unfold umqUbSharedCreditReqSend
  split
  · exact .refl
  next skipped =>
    simp only [not_or, Bool.not_eq_true] at skipped
    refine (evolves_acquire skipped.2).trans ?_
    generalize net.modify link ({ · with isCreditApplying := true }) = acquired
    obtain ⟨_, result⟩ | ⟨prepared, err, reaped, _, result⟩ := umqUbFcPrepare_ends topo acquired env <;>
      simp only [result]
    · obtain ⟨_, result⟩ | ⟨posted, err, reaped, _, result⟩ := umqUbFcPost_ends topo acquired env <;>
        simp only [result]
      · exact .modify link (Hand.released link) (.postCreditReq env.fate (Hand.on_self _))
      · exact reaped.evolves.trans (umqUbPermissionRelease_evolves link)
    · exact reaped.evolves.trans (umqUbPermissionRelease_evolves link)

theorem returnCredit_le (cfg : LinkCfg) (remoteCredit threshold : Nat) :
    returnCredit cfg remoteCredit threshold ≤ umqUbFcMaxImmData :=
  Nat.min_le_right _ _

theorem umqUbSharedCreditReturnReqSend_evolves {due : Bool} :
    Evolves topo lossy none net none (umqUbSharedCreditReturnReqSend topo net link due env).1 := by
  unfold umqUbSharedCreditReturnReqSend
  generalize (net.link link).remoteRxWindow = remoteCredit
  generalize (net.link link).returnThreshold (topo.cfg link) = threshold
  simp only
  split
  · exact .refl
  next skipped =>
    simp only [not_or, Bool.not_eq_true] at skipped
    refine (evolves_acquire skipped.2.2.2).trans ?_
    generalize net.modify link ({ · with isCreditApplying := true }) = acquired
    obtain ⟨_, result⟩ | ⟨polled, err, reaped, _, result⟩ := umqUbPollFcTx_ends topo acquired env.poll <;>
      simp only [result]
    · refine (evolves_tune link fun count => (topo.cfg link).divMultiple count % 2 ^ 16).trans ?_
      generalize acquired.modify link _ = tuned
      cases env.jettyNode with
      | error err => exact umqUbPermissionRelease_evolves link
      | ok =>
        -- the credit leaves the window before the post, and comes back if the post fails
        refine (evolves_debit link (returnCredit_le (topo.cfg link) remoteCredit threshold)).trans ?_
        generalize remoteRxWindowDec (tuned.link link).remoteRxWindow _ = taken
        generalize tuned.modify link _ = debited
        obtain ⟨_, result⟩ | ⟨posted, err, reaped, _, result⟩ := umqUbFcPost_ends topo debited env <;> rw [result]
        · dsimp only
          refine .modify link (Hand.released link) ?_
          exact .postReturnReq env.fate (Hand.on_self _)
        · exact reaped.evolves.trans (evolves_refund link)
    · exact reaped.evolves.trans (umqUbPermissionRelease_evolves link)

/-! ## Replies -/

/-- A send that succeeds lets go of what it was sent for. -/
def Hand.after (ret : UmqRet) (hand : Hand L) : Hand L :=
  match ret with
  | .ok () => none
  | .error _ => hand

/-- A reply is on the link and nothing else happened, or completions are all that happened. -/
theorem umqUbFcSend_cases (topo : Topology L P D) (net : Net L P D) (link : L) (env : SendEnv L)
    (build : Net L P D → Link → Link) :
    (env.ret = .ok () ∧ umqUbFcSend topo net link env build = (net.modify link (build net), .ok ())) ∨
      ∃ reached err, Reaped topo env.crs net reached ∧ env.ret = .error err ∧
        umqUbFcSend topo net link env build = (reached, .error err) := by
  unfold umqUbFcSend SendEnv.ret
  cases env.bound with
  | false => exact .inr ⟨net, .emlink, .refl, rfl, rfl⟩
  | true =>
    simp only [Bool.not_true, Bool.false_eq_true, if_false]
    obtain ⟨ret, result⟩ | ⟨prepared, err, reaped, ret, result⟩ := umqUbFcPrepare_ends topo net env <;>
      simp only [ret, result]
    · obtain ⟨ret, result⟩ | ⟨posted, err, reaped, ret, result⟩ := umqUbFcPost_ends topo net env <;>
        simp only [ret, result]
      · exact .inl ⟨trivial, trivial⟩
      · exact .inr ⟨posted, err, reaped.mono (subset_append_right _ _), rfl, rfl⟩
    · exact .inr ⟨prepared, err, reaped.mono (subset_append_left _ _), rfl, rfl⟩

/-- Every ratio a reply reports is an index into the table. -/
theorem umqUbFcRaitoToImm_lt {available total : Nat} : umqUbFcRaitoToImm available total < creditRatio.length := by
  have table : 0 < creditRatio.length := Nat.succ_pos _
  unfold umqUbFcRaitoToImm
  split
  · exact table
  · simp only
    cases found : creditRatio.findIdx? ((total - available) * 10 / total ≤ ·) with
    | none => exact Nat.sub_lt table Nat.one_pos
    | some index => exact (findIdx?_eq_some_iff_getElem.mp found).1

theorem umqUbSharedCreditRespSend_evolves (ratio : Nat)
    (kind : ticket.kind = .creditReq) (reported : ratio < creditRatio.length) (env : SendEnv L) :
    Evolves topo lossy (some (link, .serving ticket credit)) net
      (Hand.after (umqUbSharedCreditRespSend topo net link credit ratio ticket.seq ticket.stamp env).2
        (some (link, .serving ticket credit)))
      (umqUbSharedCreditRespSend topo net link credit ratio ticket.seq ticket.stamp env).1 := by
  unfold umqUbSharedCreditRespSend
  obtain ⟨_, result⟩ | ⟨reached, err, reaped, _, result⟩ := umqUbFcSend_cases topo net link env
    fun _ l => l.postRep .creditReq credit ratio ticket.seq ticket.stamp env.fate <;> rw [result]
  · dsimp only [Hand.after]
    refine .modify link (Hand.released link) ?_
    exact .reply ratio env.fate (Hand.on_self _) kind reported
  · exact reaped.evolves

theorem evolves_grant (pool : P) (link : L) (kind : ticket.kind = .creditReq) :
    Evolves topo lossy (some (link, .serving ticket 0)) net
      (some (link, .serving ticket (availableCreditDec (net.pool pool) ticket.requested).2))
      (net.grant pool link ticket.requested) := by
  refine (Evolves.pool pool (fun p => (availableCreditDec p ticket.requested).1)
    (availableCreditDec_pendingList _)).trans ?_
  refine .modify link (Hand.changed link) ?_
  rw [Hand.on_self]
  exact .grant _ (Hand.on_self _) kind (availableCreditDec_le _)

theorem evolves_giveBack (pool : P) {link : L} (kind : ticket.kind = .creditReq) :
    Evolves topo lossy (some (link, .serving ticket credit)) net (some (link, .serving ticket 0))
      (net.giveBack pool link credit) := by
  refine (Evolves.pool pool (availableCreditReturn · credit) (availableCreditReturn_pendingList _)).trans ?_
  refine .modify link (Hand.changed link) ?_
  rw [Hand.on_self]
  exact .revoke (Hand.on_self _) kind

theorem umqUbSharedCreditReqHandle_evolves (kind : ticket.kind = .creditReq) :
    Evolves topo lossy (some (link, .serving ticket 0)) net
      (Hand.after (umqUbSharedCreditReqHandle topo net link ticket.requested ticket.seq ticket.stamp env).2
        (some (link, .serving ticket 0)))
      (umqUbSharedCreditReqHandle topo net link ticket.requested ticket.seq ticket.stamp env).1 := by
  unfold umqUbSharedCreditReqHandle
  have granted : Evolves topo lossy _ net _ _ := evolves_grant (topo.poolOf link) link kind
  simp only
  generalize (availableCreditDec (net.pool (topo.poolOf link)) ticket.requested).2 = allocated at granted ⊢
  generalize net.grant (topo.poolOf link) link ticket.requested = grantedNet at granted ⊢
  refine granted.trans ?_
  have send : Evolves topo lossy (some (link, .serving ticket allocated)) grantedNet _ _ :=
    umqUbSharedCreditRespSend_evolves link (net.ratio topo link) kind
      umqUbFcRaitoToImm_lt env
  rcases sendResult : umqUbSharedCreditRespSend topo grantedNet link allocated (net.ratio topo link)
    ticket.seq ticket.stamp env with ⟨sent, err | _⟩ <;> rw [sendResult] at send
  · exact send.trans (evolves_giveBack _ kind)
  · exact send

/-! ## The pending queue -/

omit [DecidableEq L] in
theorem Net.Homed.modifyPool {pool : P} (homed : net.Homed topo)
    (new : ∀ req ∈ (f (net.pool pool)).pendingList, topo.poolOf req.link = pool) : (net.modifyPool pool f).Homed topo :=
  Net.forall_modifyPool (motive := fun other p => ∀ req ∈ p.pendingList, topo.poolOf req.link = other) new homed

/-- Requests of other links pass a link's view unseen. -/
theorem Net.view_modifyPool_other {pool : P}
    (same : (f (net.pool pool)).pendingList.filter (·.link = other) =
      (net.pool pool).pendingList.filter (·.link = other)) (hands : Hand.on hand' other = Hand.on hand other) :
    (net.modifyPool pool f).view topo hand' other = net.view topo hand other := by
  unfold Net.view
  by_cases home : topo.poolOf other = pool
  · subst home
    simp [same, hands]
  · simp [Net.modifyPool_pool_other _ _ home, hands]

theorem evolves_wait (req : PendingReq L)
    (pushed : ∀ pool, (f pool).pendingList = pool.pendingList ++ [req]) :
    Evolves topo lossy (some (req.link, .serving req.ticket 0)) net none
      (net.modifyPool (topo.poolOf req.link) f) := by
  refine .one req.link ?_ ?_ ?_
  · intro homed
    refine homed.modifyPool ?_
    intro waiting mem
    rw [pushed, mem_append, mem_singleton] at mem
    rcases mem with old | rfl
    · exact homed _ _ old
    · rfl
  · intro other ne
    refine Net.view_modifyPool_other ?_ (Hand.released req.link other ne)
    rw [pushed]
    simp [ne.symm]
  · intro _
    have view : (net.modifyPool (topo.poolOf req.link) f).view topo none req.link =
        { net.view topo (some (req.link, .serving req.ticket 0)) req.link with
          pending := (net.view topo (some (req.link, .serving req.ticket 0)) req.link).pending ++ [req.ticket]
          hold := none } := by
      simp [Net.view, pushed]
    rw [view]
    exact .wait (Hand.on_self _) rfl

theorem evolves_next {pool : P} {req : PendingReq L} {rest : List (PendingReq L)}
    (first : (net.pool pool).pendingList = req :: rest) (home : topo.poolOf req.link = pool) :
    Evolves topo lossy none net (some (req.link, .serving req.ticket 0))
      (net.modifyPool pool ({ · with pendingList := rest })) := by
  subst home
  refine .one req.link ?_ ?_ ?_
  · intro homed
    refine homed.modifyPool ?_
    intro waiting mem
    exact homed _ waiting (first ▸ mem_cons_of_mem _ mem)
  · intro other ne
    refine Net.view_modifyPool_other ?_ (Hand.taken req.link other ne)
    simp [first, ne.symm]
  · intro _
    have view : (net.modifyPool (topo.poolOf req.link) ({ · with pendingList := rest })).view topo
        (some (req.link, .serving req.ticket 0)) req.link =
        { net.view topo none req.link with
          pending := (rest.filter (·.link = req.link)).map PendingReq.ticket
          hold := some (.serving req.ticket 0) } := by
      simp [Net.view]
    rw [view]
    refine .next rfl ?_
    simp [Net.view, first]

theorem umqUbPendingRound_evolves (pool : P) (env : SendEnv L) :
    Evolves topo lossy none net none (umqUbPendingRound topo net pool env).1 := by
  refine .of_homed fun homed => ?_
  unfold umqUbPendingRound
  by_cases empty : (net.pool pool).idle = 0
  · simp only [empty]
    exact .refl
  · simp only [empty, if_false]
    cases waiting : (net.pool pool).pendingList with
    | nil => exact .refl
    | cons head rest =>
      have home : topo.poolOf head.link = pool := homed pool head (by simp [waiting])
      refine (evolves_next waiting home).trans ?_
      subst home
      simp only
      generalize net.modifyPool (topo.poolOf head.link) ({ · with pendingList := rest }) = popped
      have granted : Evolves topo lossy (some (head.link, .serving head.ticket 0)) popped _ _ :=
        evolves_grant (topo.poolOf head.link) head.link rfl
      change Evolves topo lossy _ popped (some (head.link, .serving head.ticket
        (availableCreditDec (popped.pool (topo.poolOf head.link)) head.requested).2))
        (popped.grant (topo.poolOf head.link) head.link head.requested) at granted
      generalize (availableCreditDec (popped.pool (topo.poolOf head.link)) head.requested).2 = allocated
        at granted ⊢
      by_cases nothing : allocated = 0
      · simp only [nothing, if_true]
        exact evolves_wait head fun _ => by simp [UbCreditPool.pushBack]
      · simp only [nothing, if_false]
        refine granted.trans ?_
        generalize popped.grant (topo.poolOf head.link) head.link head.requested = grantedNet
        generalize computed : umqUbFcRaitoToImm _ _ = ratio
        have reported : ratio < creditRatio.length := computed ▸ umqUbFcRaitoToImm_lt
        have send : Evolves topo lossy (some (head.link, .serving head.ticket allocated)) grantedNet _ _ :=
          umqUbSharedCreditRespSend_evolves head.link ratio rfl reported env
        rcases sendResult : umqUbSharedCreditRespSend topo grantedNet head.link allocated ratio
          head.ticket.seq head.ticket.stamp env with ⟨sent, err | _⟩ <;> rw [sendResult] at send
        · simp only [PendingReq.ticket] at sendResult
          simp only [sendResult]
          refine send.trans ((evolves_giveBack (topo.poolOf head.link) rfl).trans ?_)
          exact evolves_wait head fun _ => rfl
        · simp only [PendingReq.ticket] at sendResult
          simp only [sendResult]
          exact send.trans (.pool _ _ rfl)

theorem umqUbPendingLoop_evolves {pool : P} {rounds : Nat} :
    Evolves topo lossy none net none (umqUbPendingLoop topo pool envs rounds net) := by
  induction rounds generalizing net with
  | zero => exact .refl
  | succ rounds ih =>
    have round : Evolves topo lossy none net none _ := umqUbPendingRound_evolves pool (envs rounds)
    unfold umqUbPendingLoop
    split <;> rename_i result <;> rw [result] at round
    · exact round.trans ih
    · exact round

theorem umqUbCreditPendingQueueProcess_evolves {pool : P} :
    Evolves topo lossy none net none (umqUbCreditPendingQueueProcess topo net pool envs) := by
  unfold umqUbCreditPendingQueueProcess
  split
  · exact .refl
  · exact umqUbPendingLoop_evolves

/-! ## Returns and retries -/

omit [DecidableEq P] in
theorem evolves_clamp (kind : ticket.kind = .returnReq) :
    Evolves topo lossy (some (link, .serving ticket credit)) net
      (some (link, .serving ticket
        (min credit ((net.link link).allocatedSuccess - net.consumed topo link)))) net := by
  refine .one link id ?_ fun _ => ?_
  · intro other ne
    exact Net.view_hand (Hand.changed link other ne)
  · have move : LinkMove lossy (net.view topo (some (link, .serving ticket credit)) link) _ :=
      .clamp (Hand.on_self _) kind
    simpa [Net.view] using move

/-- The acknowledgement is posted first, and the credit goes back to the pool after it. -/
theorem evolves_acknowledge {pool : P} {link : L} {ratio : Nat} {fate : Fate}
    (kind : ticket.kind = .returnReq) (reported : ratio < creditRatio.length) :
    Evolves topo lossy (some (link, .serving ticket credit)) net none
      ((net.modify link (·.postRep .returnReq credit ratio ticket.seq ticket.stamp fate)).giveBack pool link
        credit) := by
  have commute : (net.modify link (·.postRep .returnReq credit ratio ticket.seq ticket.stamp fate)).giveBack pool link
      credit = (net.modifyPool pool (availableCreditReturn · credit)).modify link fun l =>
        { l.postRep .returnReq credit ratio ticket.seq ticket.stamp fate with
          allocatedSuccess := l.allocatedSuccess - credit } := by
    simp [Net.giveBack, Net.modify, Net.modifyPool, Link.postRep]
  rw [commute]
  refine (Evolves.pool pool (availableCreditReturn · credit) (availableCreditReturn_pendingList _)).trans ?_
  refine .modify link (Hand.released link) ?_
  exact .acknowledge ratio fate (Hand.on_self _) kind reported

variable (topo) in
/-- What a return request can give back: its link keeps what its receiver has consumed. -/
def Net.returnable (net : Net L P D) (link : L) (req : FcReq) : Nat :=
  min req.window.val ((net.link link).allocatedSuccess - net.consumed topo link)

/-- A return request is acknowledged with nothing to give back, acknowledged with credit
that then serves those who wait, or not acknowledged. -/
theorem umqUbSharedCreditReturnReqHandle_cases (topo : Topology L P D) (net : Net L P D) (link : L) (req : FcReq)
    (env : SendEnv L) (pending : Nat → SendEnv L) :
    (env.ret = .ok () ∧ ∃ acked, acked = net.modify link (·.postRep .returnReq (net.returnable topo link req)
        (net.ratio topo link) req.seq req.stamp env.fate) ∧
      ((net.returnable topo link req = 0 ∧
          umqUbSharedCreditReturnReqHandle topo net link req env pending = (acked, .ok ())) ∨
        umqUbSharedCreditReturnReqHandle topo net link req env pending =
          (umqUbCreditPendingQueueProcess topo (acked.giveBack (topo.poolOf link) link (net.returnable topo link req))
            (topo.poolOf link) pending, .ok ()))) ∨
      ∃ reached err, Reaped topo env.crs net reached ∧ env.ret = .error err ∧
        umqUbSharedCreditReturnReqHandle topo net link req env pending = (reached, .error err) := by
  have zero : (net.link link).allocatedSuccess < net.consumed topo link → net.returnable topo link req = 0 := by
    unfold Net.returnable
    omega
  unfold umqUbSharedCreditReturnReqHandle umqUbSharedCreditReturnAck
  simp only
  rw [← Net.returnable]
  obtain ⟨ret, sent⟩ | ⟨reached, err, reaped, ret, sent⟩ := umqUbFcSend_cases topo net link env fun prepared l =>
    l.postRep .returnReq (net.returnable topo link req) (prepared.ratio topo link) req.seq req.stamp env.fate
  · refine .inl ⟨ret, _, rfl, ?_⟩
    split
    · rename_i short
      rw [zero short] at sent ⊢
      exact .inl ⟨rfl, sent⟩
    · rw [sent]
      exact .inr rfl
  · refine .inr ⟨reached, err, reaped, ret, ?_⟩
    split
    · rename_i short
      rw [zero short] at sent
      exact sent
    · rw [sent]

variable {req : FcReq} {index umqId : Nat} {pending : Nat → SendEnv L} {timedOut : Bool} {dev : D}

theorem umqUbSharedCreditReturnReqHandle_evolves (topo : Topology L P D) (lossy : Prop) (net : Net L P D)
    (link : L) (kind : req.kind = .returnReq) (env : SendEnv L) (pending : Nat → SendEnv L) :
    ∃ credit, Evolves topo lossy (some (link, .serving req.ticket req.window.val)) net
      (Hand.after (umqUbSharedCreditReturnReqHandle topo net link req env pending).2
        (some (link, .serving req.ticket credit)))
      (umqUbSharedCreditReturnReqHandle topo net link req env pending).1 := by
  refine ⟨net.returnable topo link req, (evolves_clamp link kind).trans ?_⟩
  rw [← Net.returnable]
  obtain ⟨_, acked, rfl, ⟨zero, result⟩ | result⟩ | ⟨reached, err, reaped, _, result⟩ :=
    umqUbSharedCreditReturnReqHandle_cases topo net link req env pending <;> rw [result]
  · rw [zero]
    -- without anything to give back the acknowledgement is the whole effect
    dsimp only [Hand.after]
    refine .modify link (Hand.released link) ?_
    exact @LinkMove.acknowledge lossy _ req.ticket 0 _ env.fate (Hand.on_self _) kind umqUbFcRaitoToImm_lt
  · refine Evolves.trans ?_ umqUbCreditPendingQueueProcess_evolves
    exact evolves_acknowledge kind umqUbFcRaitoToImm_lt
  · exact reaped.evolves

omit [DecidableEq P] in
theorem evolves_drop (settled : ticket.kind = .creditReq → credit = 0)
    (returned : ticket.kind = .returnReq → lossy) :
    Evolves topo lossy (some (link, .serving ticket credit)) net none net := by
  refine .one link id ?_ fun _ => ?_
  · intro other ne
    exact Net.view_hand (Hand.released link other ne)
  · exact .drop (Hand.on_self _) settled returned

theorem umqUbFcMsgRetryEnqueue_evolves (settled : req.kind = .creditReq → credit = 0)
    (returned : req.kind = .returnReq → net.retryFree (topo.poolOf link) = 0 → lossy) :
    Evolves topo lossy (some (link, .serving req.ticket credit)) net none
      (umqUbFcMsgRetryEnqueue topo net link req) := by
  unfold umqUbFcMsgRetryEnqueue
  dsimp only
  split
  next full => exact evolves_drop link settled fun kind => returned kind full
  · refine (Evolves.retryFree
      (update net.retryFree (topo.poolOf link) (net.retryFree (topo.poolOf link) - 1))).trans ?_
    refine .modify link (Hand.released link) ?_
    exact .park (Hand.on_self _) settled

/-- One try at an accepted request leaves it answered, or as it was. -/
theorem umqUbProcessFcReq_evolves (topo : Topology L P D) (lossy : Prop) (net : Net L P D) (link : L)
    (req : FcReq) (env : SendEnv L) (pending : Nat → SendEnv L) :
    ∃ credit, (req.kind = .creditReq → credit = 0) ∧
      Evolves topo lossy (some (link, .serving req.ticket req.carried)) net
        (Hand.after (umqUbProcessFcReq topo net link req env pending).2
          (some (link, .serving req.ticket credit)))
        (umqUbProcessFcReq topo net link req env pending).1 := by
  unfold umqUbProcessFcReq FcReq.carried
  cases kind : req.kind with
  | creditReq => exact ⟨0, fun _ => rfl, umqUbSharedCreditReqHandle_evolves link kind⟩
  | returnReq =>
    obtain ⟨credit, evolves⟩ := umqUbSharedCreditReturnReqHandle_evolves topo lossy net link kind env pending
    exact ⟨credit, nofun, evolves⟩

/-- Whether an accepted return request survives its acknowledgement: it is answered, or
there is a reason and a free node to keep it. -/
def SendEnv.Keeps (env : SendEnv L) (timedOut : Bool) (free : Nat) : Prop :=
  env.ret = .ok () ∨ ∃ err, env.ret = .error err ∧ keptForRetry err = true ∧ timedOut = false ∧ 0 < free

theorem Reaped.retryFree {crs : List (FcCr L)} (reaped : Reaped topo crs net net') :
    net'.retryFree = net.retryFree := by
  refine reaped.keeps (motive := fun other => other.retryFree = net.retryFree) ?_ rfl
  intro other cr _ same
  rw [← same]
  obtain step | ⟨_, _, _, _, _, step⟩ | ⟨_, _, _, _, _, _, _, step⟩ :=
    umqUbFcProcessTxError_cases topo other cr <;> rw [step] <;> rfl

/-- A return request that was not answered: the code says so, and nothing but completions
happened. -/
theorem umqUbSharedCreditReturnReqHandle_error {link : L} {err : UmqErr}
    (result : umqUbSharedCreditReturnReqHandle topo net link req env pending = (net', .error err)) :
    env.ret = .error err ∧ net'.retryFree = net.retryFree := by
  obtain ⟨_, acked, _, ⟨_, handled⟩ | handled⟩ | ⟨reached, failure, reaped, ret, handled⟩ :=
    umqUbSharedCreditReturnReqHandle_cases topo net link req env pending <;> rw [handled] at result <;> cases result
  exact ⟨ret, reaped.retryFree⟩

/-- The end of one try: done, kept for later, or given up. -/
theorem umqUbProcessFcReq_settled
    (returned : req.kind = .returnReq → ¬ env.Keeps timedOut (net.retryFree (topo.poolOf link)) → lossy) :
    Evolves topo lossy (some (link, .serving req.ticket req.carried)) net none
      (umqUbAfterTry topo link req timedOut (umqUbProcessFcReq topo net link req env pending)) := by
  obtain ⟨credit, settled, evolves⟩ := umqUbProcessFcReq_evolves topo lossy net link req env pending
  rcases result : umqUbProcessFcReq topo net link req env pending with ⟨processed, err | _⟩ <;>
    rw [result] at evolves
  · -- an unanswered return request is kept exactly if the environment says so
    have lost : req.kind = .returnReq →
        (timedOut = true ∨ keptForRetry err = false ∨ processed.retryFree (topo.poolOf link) = 0) → lossy := by
      intro kind gone
      refine returned kind ?_
      simp only [umqUbProcessFcReq, kind] at result
      obtain ⟨ret, free⟩ := umqUbSharedCreditReturnReqHandle_error result
      rintro (answered | ⟨failure, failed, keep, inTime, node⟩)
      · rw [ret] at answered
        cases answered
      · rw [ret] at failed
        cases failed
        rw [free] at gone
        rcases gone with late | final | full
        · rw [inTime] at late
          cases late
        · rw [keep] at final
          cases final
        · omega
    refine evolves.trans ?_
    simp only [umqUbAfterTry]
    split
    · rename_i gone
      refine evolves_drop link settled fun kind => lost kind ?_
      simpa [← or_assoc] using Or.inl gone
    · exact umqUbFcMsgRetryEnqueue_evolves link settled fun kind full => lost kind (.inr (.inr full))
  · exact evolves

/-! ## Received requests -/

def Net.accepted (net : Net L P D) (link : L) (index : Nat) : Net L P D :=
  (net.modify link fun l => { l with reqs := l.reqs.eraseIdx index }).modify link Link.accept

omit [DecidableEq P] in
theorem Net.view_accepted {motive : View → Prop} {link : L}
    (self : motive { net.view topo none link with
      link := { net.link link with reqs := (net.link link).reqs.eraseIdx index }.accept, hold := some hold })
    (others : ∀ other, motive (net.view topo none other)) (other : L) :
    motive ((net.accepted link index).view topo (some (link, hold)) other) := by
  rw [Net.accepted, Net.modify_modify]
  by_cases this : other = link
  · subst this
    simpa [Net.view] using self
  · rw [Net.view_modify_other this, Net.view_hand (Hand.taken link other this)]
    exact others other

section

variable (pending)

theorem umqUbPollFcRxReq_accepted (env : SendEnv L)
    (returned : req.kind = .returnReq → ¬ env.Keeps false (net.retryFree (topo.poolOf link)) → lossy) :
    Evolves topo lossy (some (link, .serving req.ticket req.carried)) (net.accepted link index) none
      (if umqUbReqWaits topo (net.accepted link index) link req then
        umqUbCreditPendingReqEnqueue topo (net.accepted link index) link req
      else umqUbProcessFcMsgWithRetry topo (net.accepted link index) link req env pending) := by
  split
  · rename_i waits
    have kind : req.kind = .creditReq := by
      simp only [umqUbReqWaits, Bool.and_eq_true, beq_iff_eq] at waits
      exact waits.1.1.1.2
    have ticket : (⟨link, req.window.val, req.seq, req.stamp⟩ : PendingReq L).ticket = req.ticket := by
      simp [PendingReq.ticket, FcReq.ticket, kind]
    have nothing : req.carried = 0 := by simp [FcReq.carried, kind]
    rw [nothing, ← ticket]
    exact evolves_wait ⟨link, req.window.val, req.seq, req.stamp⟩ fun _ => rfl
  · exact umqUbProcessFcReq_settled link returned

/-- A request on arrival: still under way or lost, out of sequence, or accepted. -/
theorem umqUbPollFcRxReq_cases (net : Net L P D) (link : L) (index : Nat) (env : SendEnv L) :
    umqUbPollFcRxReq topo net link index env pending = net ∨
      ∃ req, (net.link link).reqs[index]? = some req ∧ req.fate = .delivered ∧
        ((req.seq ≠ (net.link link).remoteExpectSeq ∧
            umqUbPollFcRxReq topo net link index env pending =
              net.modify link fun l => { l with reqs := l.reqs.eraseIdx index }) ∨
          (req.seq = (net.link link).remoteExpectSeq ∧
            umqUbPollFcRxReq topo net link index env pending =
              if umqUbReqWaits topo (net.accepted link index) link req then
                umqUbCreditPendingReqEnqueue topo (net.accepted link index) link req
              else umqUbProcessFcMsgWithRetry topo (net.accepted link index) link req env pending)) := by
  unfold umqUbPollFcRxReq
  cases found : (net.link link).reqs[index]? with
  | none => exact .inl rfl
  | some req =>
    cases fate : req.fate with
    | failed => exact .inl (by simp only [fate, if_true])
    | delivered =>
      refine .inr ⟨req, rfl, fate, ?_⟩
      by_cases expected : req.seq = (net.link link).remoteExpectSeq
      · exact .inr ⟨expected, by simp only [fate, expected, ne_eq]; rfl⟩
      · exact .inl ⟨expected, by simp only [fate, expected, reduceCtorEq, ne_eq, not_false_eq_true, if_false, if_true]⟩

theorem umqUbFcMsgRetryDequeue_evolves
    (returned : ∀ req, (net.link link).retry[index]? = some req → req.kind = .returnReq →
      ¬ env.Keeps timedOut (net.retryFree (topo.poolOf link) + 1) → lossy) :
    Evolves topo lossy none net none (umqUbFcMsgRetryDequeue topo net link index timedOut env pending) := by
  unfold umqUbFcMsgRetryDequeue
  cases found : (net.link link).retry[index]? with
  | none => exact .refl
  | some req =>
    refine (Evolves.retryFree
      (update net.retryFree (topo.poolOf link) (net.retryFree (topo.poolOf link) + 1))).trans ?_
    refine Evolves.trans (.modify link (Hand.taken link) ?_) (umqUbProcessFcReq_settled link ?_)
    · rw [Hand.on_self]
      exact .resume rfl found
    intro kind lost
    refine returned req found kind ?_
    simpa using lost

theorem umqUbSharedCreditRecharge_evolves {pool : P} :
    Evolves topo lossy none net none (umqUbSharedCreditRecharge topo net pool count pending) := by
  unfold umqUbSharedCreditRecharge
  split
  · exact .refl
  · refine (Evolves.pool pool (availableCreditInc · count) rfl).trans ?_
    exact umqUbCreditPendingQueueProcess_evolves

end

/-! ## Receive completions -/

variable [DecidableEq D]

/-- Seen from a link, a receive completion is counted or not; nothing else changes. -/
theorem umqUbPollRxAccount_view {pool : P} {link : L} :
    (umqUbPollRxAccount net pool dev umqId).view topo none link =
      { net.view topo none link with
        consumed := (umqUbPollRxAccount net pool dev umqId).consumed topo link } := by
  have pending : ((net.modifyPool pool (allocatedCreditDec · 1)).pool (topo.poolOf link)).pendingList = _ :=
    Net.pendingList_modifyPool (allocatedCreditDec_pendingList _)
  have same : (umqUbPollRxAccount net pool dev umqId).pool = (net.modifyPool pool (allocatedCreditDec · 1)).pool := rfl
  simp only [Net.view, same, pending]
  rfl

omit [DecidableEq L] in
theorem umqUbPollRxAccount_homed (homed : net.Homed topo) {pool : P} :
    (umqUbPollRxAccount net pool dev umqId).Homed topo := by
  change (net.modifyPool pool (allocatedCreditDec · 1)).Homed topo
  refine homed.modifyPool ?_
  simp only [allocatedCreditDec_pendingList]
  exact homed pool

end UbsComm.FlowControl
