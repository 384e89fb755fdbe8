import UbsComm.FlowControl.Invariant
import UbsComm.Library.Lists
import UbsComm.Library.Run
import UbsComm.Library.StopAndWait
import Mathlib.Algebra.Order.Group.Multiset
import Mathlib.Tactic.Abel

/-! # Sequence numbers and duplicates

The fabric may copy a request or a reply and keep the copies for long.  Every request
carries `local_req_seq`, and the two ends drop what does not carry the number they
expect.  A link is an instance of stop-and-wait with 255 sequence numbers: the ghosts
of the model are its log, and the invariant says that every message under way belongs
to a request in the log. -/

namespace UbsComm.FlowControl

open Ub Library List

def fcSeqCount : Nat := 255

theorem umqUbFcSeqInc_wrapSeq {turn : Nat} :
    umqUbFcSeqInc (wrapSeq fcSeqCount turn) = wrapSeq fcSeqCount (turn + 1) := by
  unfold umqUbFcSeqInc wrapSeq fcSeqCount
  split <;> omega

def Fate.arrives (fate : Fate) : Bool := fate == .delivered

def Posted.request (posted : Posted) : Request := ⟨posted.turn, posted.fate.arrives⟩

def Link.log (link : Link) : List Request := link.history.map Posted.request

def Hold.tickets : Option Hold → Multiset Ticket
  | some (.serving ticket _) => {ticket}
  | _ => 0

/-- The accepted requests the receiver still has to answer. -/
def View.tickets (view : View) : Multiset Ticket :=
  view.link.retry.map FcReq.ticket + view.pending.map id + Hold.tickets view.hold

/-- The running call has the permission to send a request. -/
def Hold.Asks : Option Hold → Prop
  | some .asking | some (.returning _) => True
  | _ => False

structure Numbered (view : View) : Prop where
  discipline : StopAndWait view.link.log view.link.openReqs view.link.accepted view.link.appliedReps.length
  localSeq : view.link.localReqSeq = wrapSeq fcSeqCount view.link.appliedReps.length
  expectSeq : view.link.remoteExpectSeq = wrapSeq fcSeqCount view.link.accepted
  reqs : ∀ req ∈ view.link.reqs, Logged fcSeqCount view.link.log req.fate.arrives req.stamp req.seq
  lost : ∀ req ∈ view.link.reqs, req.fate = .failed → req.stamp ∈ view.link.openReqs
  single : view.link.reqs.countP (·.fate = .failed) ≤ view.link.openReqs.length
  reps : ∀ rep ∈ view.link.reps, Logged fcSeqCount view.link.log true rep.stamp rep.seq ∧
    Passed view.link.log view.link.accepted rep.stamp
  tickets : ∀ ticket ∈ view.tickets, Logged fcSeqCount view.link.log true ticket.stamp ticket.seq
  taken : Spent view.link.log view.link.accepted (view.link.appliedReqs + view.tickets.map (·.stamp))
  applied : Spent view.link.log view.link.appliedReps.length view.link.appliedReps
  idle : view.link.isCreditApplying = false → view.link.openReqs = []
  asking : Hold.Asks view.hold → view.link.openReqs = [] ∧ view.link.isCreditApplying = true

section Moves

variable {lossy : Prop} {view view' : View}

/-- The part of a link that only sending and receiving change. -/
def Link.numbering (link : Link) :=
  (link.history, link.openReqs, link.accepted, link.appliedReps, link.appliedReqs, link.localReqSeq,
    link.remoteExpectSeq, link.reqs)

section

variable (numbered : Numbered view)
include numbered

/-- Nothing is sent or received; tickets may get lost. -/
theorem Numbered.quiet {after : View} {retry : List FcReq} {applying : Bool} {window allocated : Nat}
    {pending : List Ticket} {hold : Option Hold}
    (same : after = { view with
      link := { view.link with
        retry, isCreditApplying := applying, remoteRxWindow := window, allocatedSuccess := allocated }
      pending, hold })
    (tickets : after.tickets ≤ view.tickets) (idle : applying = false → view.link.openReqs = [])
    (asking : Hold.Asks hold → view.link.openReqs = [] ∧ applying = true) : Numbered after := by
  subst same
  exact
    { numbered with
      tickets := fun ticket mem => numbered.tickets ticket (Multiset.mem_of_le tickets mem)
      taken := numbered.taken.mono (add_le_add_right (Multiset.map_le_map tickets) _)
      idle, asking }

/-- A ticket is exchanged for a reply. -/
theorem Numbered.postRep {ticket : Ticket} {credit : Nat}
    (held : view.hold = some (.serving ticket credit)) {kind : ReqKind} {notify ratio : Nat} {fate : Fate}
    {allocated : Nat} :
    Numbered { view with
      link := { view.link.postRep kind notify ratio ticket.seq ticket.stamp fate with allocatedSuccess := allocated }
      hold := none } := by
  have tickets : view.tickets = ticket ::ₘ
      View.tickets { view with
        link := { view.link.postRep kind notify ratio ticket.seq ticket.stamp fate with allocatedSuccess := allocated }
        hold := none } := by
    simp only [View.tickets, held, Link.postRep, ← Multiset.singleton_add]
    abel
  have mine : ticket ∈ view.tickets := tickets ▸ Multiset.mem_cons_self ticket _
  refine { numbered with reps := ?_, tickets := ?_, taken := ?_, asking := fun asks => asks.elim }
  · refine forall_mem_append.mpr ⟨numbered.reps, forall_mem_singleton.mpr ⟨numbered.tickets ticket mine, ?_⟩⟩
    exact numbered.taken.passed _ (Multiset.mem_add.mpr (.inr (Multiset.mem_map_of_mem _ mine)))
  · intro other mem
    exact numbered.tickets other (tickets ▸ Multiset.mem_cons_of_mem mem)
  · have taken := numbered.taken
    rw [tickets] at taken
    refine taken.mono (le_of_eq ?_)
    simp only [Link.postRep, ← Multiset.coe_add]
    abel

theorem Numbered.postReq (asks : Hold.Asks view.hold) {kind : ReqKind} {window : Nat}
    {fate : Fate} : Numbered { view with link := view.link.postReq kind window fate, hold := none } := by
  obtain ⟨quiet, applying⟩ := numbered.asking asks
  have log : (view.link.postReq kind window fate).log =
      view.link.log ++ [⟨view.link.appliedReps.length, fate.arrives⟩] := by
    simp [Link.log, Link.postReq, Posted.request]
  have stamp : view.link.history.length = view.link.log.length := by simp [Link.log]
  have tickets : View.tickets { view with link := view.link.postReq kind window fate, hold := none } ≤ view.tickets :=
    add_le_add_right (Multiset.zero_le _) _
  constructor
  · have discipline := numbered.discipline
    rw [quiet] at discipline
    simp only [Link.postReq, quiet, stamp]
    exact log ▸ discipline.post
  · exact numbered.localSeq
  · exact numbered.expectSeq
  · rw [log]
    refine forall_mem_append.mpr ⟨fun req old => (numbered.reqs req old).extend, forall_mem_singleton.mpr ?_⟩
    exact ⟨view.link.appliedReps.length, by simp [stamp], numbered.localSeq⟩
  · intro req mem failed
    simp only [Link.postReq, mem_append, mem_singleton] at mem ⊢
    obtain old | rfl := mem
    · exact .inl (numbered.lost req old failed)
    · exact .inr rfl
  · have single := numbered.single
    simp only [Link.postReq, countP_append, countP_singleton, length_append, length_singleton]
    split <;> omega
  · intro rep mem
    rw [log]
    exact ⟨(numbered.reps rep mem).1.extend, (numbered.reps rep mem).2.extend⟩
  · intro ticket mem
    rw [log]
    exact (numbered.tickets ticket (Multiset.mem_of_le tickets mem)).extend
  · rw [log]
    exact (numbered.taken.mono (add_le_add_right (Multiset.map_le_map tickets) _)).extend
  · rw [log]
    exact numbered.applied.extend
  · intro released
    rw [Link.postReq] at released
    simp only [applying, Bool.true_eq_false] at released
  · exact fun asks => asks.elim

variable {req : FcReq} {index : Nat}

/-- A failed request is the one that is waited for, and no other one failed. -/
theorem Numbered.failed (found : view.link.reqs[index]? = some req) (failed : req.fate = .failed) :
    view.link.openReqs = [req.stamp] ∧ (view.link.reqs.eraseIdx index).countP (·.fate = .failed) = 0 := by
  have waits := numbered.lost req (mem_of_getElem? found) failed
  have alone := (numbered.discipline.waits req.stamp waits).1
  have single := numbered.single
  rw [countP_eraseIdx found, alone] at single
  simp only [failed, decide_true, if_true, length_singleton] at single
  exact ⟨alone, by omega⟩

theorem Numbered.failReq (found : view.link.reqs[index]? = some req) (failed : req.fate = .failed) :
    Numbered { view with link := view.link.failReq index req } := by
  obtain ⟨alone, others⟩ := numbered.failed found failed
  have openReqs : (view.link.failReq index req).openReqs = [] := by simp [Link.failReq, alone]
  refine { numbered with
    discipline := ?_, reqs := ?_, lost := ?_, single := ?_, idle := fun _ => openReqs, asking := ?_ }
  · obtain ⟨turn, logged, _⟩ := numbered.reqs req (mem_of_getElem? found)
    have discipline := numbered.discipline
    rw [alone] at discipline
    have closed := discipline.fail logged (by simp [failed, Fate.arrives])
    rw [← openReqs] at closed
    exact closed
  · exact fun other mem => numbered.reqs other (mem_of_mem_eraseIdx mem)
  · intro other mem failed'
    have none := countP_eq_zero.mp others other mem
    simp [failed'] at none
  · exact Nat.le_of_eq (others.trans (by rw [openReqs]; rfl))
  · intro asks
    have nothing := (numbered.asking asks).1
    rw [alone] at nothing
    cases nothing

end

theorem LinkMove.numbered (move : LinkMove lossy view view') (numbered : Numbered view) : Numbered view' := by
  cases move with
  | failReq found failed => exact numbered.failReq found failed
  | failRep found failed =>
    exact { numbered with reps := fun rep mem => numbered.reps rep (mem_of_mem_eraseIdx mem) }
  | acquire free released =>
    refine numbered.quiet rfl ?_ ?_ fun _ => ⟨numbered.idle released, rfl⟩
    · simp [View.tickets, Hold.tickets, free]
    · simp
  | release held | refund held =>
    have asks := numbered.asking (by rw [held]; trivial)
    refine numbered.quiet rfl ?_ (fun _ => asks.1) fun asks => asks.elim
    simp [View.tickets, Hold.tickets, held]
  | tune count held => exact { numbered with }
  | debit required held small =>
    have asks := numbered.asking (by rw [held]; trivial)
    refine numbered.quiet rfl ?_ numbered.idle fun _ => asks
    simp [View.tickets, Hold.tickets, held]
  | postCreditReq fate held => exact numbered.postReq (by rw [held]; trivial)
  | postReturnReq fate held => exact numbered.postReq (by rw [held]; trivial)
  | wait held kind =>
    refine numbered.quiet rfl (le_of_eq ?_) numbered.idle fun asks => asks.elim
    simp only [View.tickets, Hold.tickets, held, coe_map_snoc, id_eq, add_zero, add_assoc]
  | next free first =>
    refine numbered.quiet rfl (le_of_eq ?_) numbered.idle fun asks => asks.elim
    simp only [View.tickets, free, first, map_cons, ← Multiset.cons_coe, ← Multiset.singleton_add]
    abel
  | park held settled =>
    refine numbered.quiet rfl (le_of_eq ?_) numbered.idle fun asks => asks.elim
    simp only [View.tickets, Hold.tickets, held, coe_map_snoc]
    abel
  | resume free found =>
    refine numbered.quiet rfl (le_of_eq ?_) numbered.idle fun asks => asks.elim
    simp only [View.tickets, free, coe_map_eraseIdx found]
    abel
  | grant _ held | revoke held | clamp held =>
    refine numbered.quiet rfl (le_of_eq ?_) numbered.idle fun asks => asks.elim
    simp only [View.tickets, Hold.tickets, held]
  | reply ratio fate held kind reported => exact numbered.postRep held
  | acknowledge ratio fate held kind reported => exact numbered.postRep held
  | drop held settled returned =>
    refine numbered.quiet rfl ?_ numbered.idle fun asks => asks.elim
    exact add_le_add_right (Multiset.zero_le _) _

section

variable (numbered : Numbered view)
include numbered

/-- A copy that arrives and is taken off the wire. -/
theorem Numbered.forgetReq (index : Nat) :
    Numbered { view with link := { view.link with reqs := view.link.reqs.eraseIdx index } } := by
  have fewer := eraseIdx_sublist view.link.reqs index
  exact
    { numbered with
      reqs := fun req mem => numbered.reqs req (fewer.subset mem)
      lost := fun req mem => numbered.lost req (fewer.subset mem)
      single := (fewer.countP_le).trans numbered.single }

theorem Numbered.forgetRep {index : Nat} :
    Numbered { view with link := { view.link with reps := view.link.reps.eraseIdx index } } :=
  { numbered with reps := fun rep mem => numbered.reps rep (mem_of_mem_eraseIdx mem) }

theorem Numbered.copyReq (mem : req ∈ view.link.reqs) (arrives : req.fate = .delivered) :
    Numbered { view with link := { view.link with reqs := view.link.reqs ++ [req] } } := by
  exact
    { numbered with
      reqs := forall_mem_append.mpr ⟨numbered.reqs, forall_mem_singleton.mpr (numbered.reqs req mem)⟩
      lost := forall_mem_append.mpr ⟨numbered.lost, forall_mem_singleton.mpr (numbered.lost req mem)⟩
      single := by simpa [arrives] using numbered.single }

theorem Numbered.copyRep {rep : FcRep} (mem : rep ∈ view.link.reps) :
    Numbered { view with link := { view.link with reps := view.link.reps ++ [rep] } } :=
  { numbered with reps := forall_mem_append.mpr ⟨numbered.reps, forall_mem_singleton.mpr (numbered.reps rep mem)⟩ }

/-- A request that carries the expected number is the one the sender waits for. -/
theorem Numbered.accept {credit : Nat}
    (free : view.hold = none) (found : view.link.reqs[index]? = some req) (arrives : req.fate = .delivered)
    (timely : view.link.history.length < req.stamp + fcSeqCount) (expected : req.seq = view.link.remoteExpectSeq) :
    Numbered { view with
      link := { view.link with reqs := view.link.reqs.eraseIdx index }.accept
      hold := some (.serving req.ticket credit) } := by
  obtain ⟨turn, logged, seq⟩ := numbered.reqs req (mem_of_getElem? found)
  simp only [arrives] at logged
  have length : view.link.log.length = view.link.history.length := by simp [Link.log]
  rw [seq, numbered.expectSeq] at expected
  obtain ⟨isTurn, agreed, waiting⟩ :=
    numbered.discipline.accept_current logged rfl (length ▸ timely) expected
  have remaining := numbered.forgetReq index
  have tickets : View.tickets { view with
      link := { view.link with reqs := view.link.reqs.eraseIdx index }.accept
      hold := some (.serving req.ticket credit) } = req.ticket ::ₘ view.tickets := by
    simp only [View.tickets, free, Link.accept, ← Multiset.singleton_add]
    abel
  refine { remaining with
    discipline := ?_, expectSeq := ?_, reps := ?_, tickets := ?_, taken := ?_, asking := fun asks => asks.elim }
  · exact numbered.discipline.accept logged rfl agreed waiting
  · simp only [Link.accept, numbered.expectSeq, umqUbFcSeqInc_wrapSeq]
  · intro rep mem
    obtain ⟨known, request, found', below⟩ := numbered.reps rep mem
    exact ⟨known, request, found', Nat.lt_succ_of_lt below⟩
  · intro ticket mem
    rw [tickets] at mem
    cases Multiset.mem_cons.mp mem with
    | inl same =>
      subst same
      exact ⟨turn, logged, seq⟩
    | inr old => exact numbered.tickets ticket old
  · rw [tickets]
    have spent := numbered.taken.spend logged isTurn
    refine spent.mono (le_of_eq ?_)
    rw [Multiset.map_cons, Multiset.add_cons]
    rfl

end

theorem Link.applyRep_numbering (link : Link) (cfg : LinkCfg) (rep : FcRep) :
    (link.applyRep cfg rep).numbering =
      (link.history, link.openReqs.erase rep.stamp, link.accepted, link.appliedReps ++ [rep.stamp], link.appliedReqs,
        umqUbFcSeqInc link.localReqSeq, link.remoteExpectSeq, link.reqs) ∧
    (link.applyRep cfg rep).reps = link.reps ∧ (link.applyRep cfg rep).retry = link.retry := by
  unfold Link.applyRep
  cases rep.kind <;> exact ⟨rfl, rfl, rfl⟩

/-- A reply with the number of the open request answers that request. -/
theorem Numbered.applyRep (numbered : Numbered view) {rep : FcRep} {cfg : LinkCfg}
    (free : view.hold = none) (found : view.link.reps[index]? = some rep)
    (timely : view.link.history.length < rep.stamp + fcSeqCount) (expected : rep.seq = view.link.localReqSeq) :
    Numbered { view with link := { view.link with reps := view.link.reps.eraseIdx index }.applyRep cfg rep } := by
  obtain ⟨⟨turn, logged, seq⟩, request, found', below⟩ := numbered.reps rep (mem_of_getElem? found)
  rw [logged] at found'
  cases found'
  have length : view.link.log.length = view.link.history.length := by simp [Link.log]
  rw [seq, numbered.localSeq] at expected
  obtain ⟨isTurn, ahead, waiting⟩ :=
    numbered.discipline.answer_current logged rfl (length ▸ timely) expected below
  obtain ⟨same, reps, retry⟩ :=
    Link.applyRep_numbering { view.link with reps := view.link.reps.eraseIdx index } cfg rep
  generalize { view.link with reps := view.link.reps.eraseIdx index }.applyRep cfg rep = answered at *
  simp only [Link.numbering, Prod.mk.injEq, waiting, erase_cons_head] at same
  obtain ⟨history, openReqs, accepted, appliedReps, appliedReqs, localReqSeq, remoteExpectSeq, reqs⟩ := same
  have log : answered.log = view.link.log := by rw [Link.log, history, Link.log]
  have count : answered.appliedReps.length = view.link.appliedReps.length + 1 := by simp [appliedReps]
  have tickets : View.tickets { view with link := answered } = view.tickets := by simp only [View.tickets, retry]
  -- the request that is answered was delivered, so none of those still on the wire failed
  have delivered : ∀ req ∈ view.link.reqs, req.fate ≠ .failed := by
    intro req mem failed
    have same : req.stamp = rep.stamp := by simpa [waiting] using numbered.lost req mem failed
    have answered : Logged fcSeqCount view.link.log true req.stamp rep.seq := ⟨turn, same ▸ logged, seq⟩
    have arrives := (numbered.reqs req mem).fate_unique answered
    simp [failed, Fate.arrives] at arrives
  constructor <;> simp only [log, openReqs, accepted, count, localReqSeq, remoteExpectSeq, reqs, tickets, appliedReqs]
  · exact numbered.discipline.answer ahead (by simp [waiting])
  · rw [numbered.localSeq, umqUbFcSeqInc_wrapSeq]
  · exact numbered.expectSeq
  · exact numbered.reqs
  · exact fun req mem failed => absurd failed (delivered req mem)
  · have none : view.link.reqs.countP (·.fate = .failed) = 0 := by
      simpa using delivered
    exact none ▸ Nat.zero_le _
  · exact fun other mem => numbered.reps other (mem_of_mem_eraseIdx (reps ▸ mem))
  · exact numbered.tickets
  · exact numbered.taken
  · refine (numbered.applied.spend logged isTurn).mono (le_of_eq ?_)
    simp only [appliedReps, ← Multiset.coe_add, ← Multiset.singleton_add]
    abel
  · exact fun _ => trivial
  · intro asks
    simp [free, Hold.Asks] at asks

end Moves

/-! ## The network -/

variable {L P D : Type} [DecidableEq L] {topo : Topology L P D}
  {net : Net L P D}

/-- A message that fewer than a whole round of requests have overtaken. -/
theorem numbered_viewInvariant :
    ViewInvariant (fun link req => link.history.length < req.stamp + fcSeqCount)
      (fun link rep => link.history.length < rep.stamp + fcSeqCount) Numbered where
  move move numbered := move.numbered numbered
  data _ _ _ numbered := { numbered with }
  forgetReq index numbered := numbered.forgetReq index
  forgetRep _ numbered := numbered.forgetRep
  accept free found arrives ready expected numbered := numbered.accept free found arrives ready expected
  applyRep _ free found ready expected numbered := numbered.applyRep free found ready expected

/-! ## Runs with duplicates -/

/-- A step of the library, or the fabric copying a message it delivers. -/
inductive Event (L P D : Type) where
  | call (step : Step L P D)
  | duplicateReq (link : L) (index : Nat)
  | duplicateRep (link : L) (index : Nat)

def Net.duplicateReq (net : Net L P D) (link : L) (index : Nat) : Net L P D :=
  match (net.link link).reqs[index]? with
  | some req => if req.fate = .delivered then net.modify link fun l => { l with reqs := l.reqs ++ [req] } else net
  | none => net

def Net.duplicateRep (net : Net L P D) (link : L) (index : Nat) : Net L P D :=
  match (net.link link).reps[index]? with
  | some rep => if rep.fate = .delivered then net.modify link fun l => { l with reps := l.reps ++ [rep] } else net
  | none => net

variable [DecidableEq P] [DecidableEq D]

variable (topo) in
def Net.event (net : Net L P D) : Event L P D → Net L P D
  | .call step => net.step topo step
  | .duplicateReq link index => net.duplicateReq link index
  | .duplicateRep link index => net.duplicateRep link index

def Link.laterReqs (link : Link) (stamp : Nat) : Nat := link.history.length - (stamp + 1)

/-- A message that arrives was overtaken by fewer than 254 requests. -/
def Event.Timely (net : Net L P D) : Event L P D → Prop
  | .call (.recvReq link index _ _) => ∀ req, (net.link link).reqs[index]? = some req →
      (net.link link).laterReqs req.stamp < 254
  | .call (.recvRep link index) => ∀ rep, (net.link link).reps[index]? = some rep →
      (net.link link).laterReqs rep.stamp < 254
  | _ => True

theorem Link.laterReqs_lt {link : Link} {stamp : Nat} (few : link.laterReqs stamp < 254) :
    link.history.length < stamp + fcSeqCount := by
  unfold Link.laterReqs at few
  unfold fcSeqCount
  omega

theorem Event.Timely.keeps {event : Event L P D} (timely : event.Timely net) (numbered : net.All topo Numbered) :
    (net.event topo event).All topo Numbered := by
  cases event with
  | call step =>
    refine numbered_viewInvariant.step numbered ?_
    cases step with
    | recvReq link index env pending => exact fun req found => Link.laterReqs_lt (timely req found)
    | recvRep link index => exact fun rep found => Link.laterReqs_lt (timely rep found)
    | _ => trivial
  | duplicateReq link index =>
    simp only [Net.event, Net.duplicateReq]
    split
    · rename_i req found
      exact guarded numbered fun arrives =>
        numbered.modify link _ ((numbered.links link).copyReq (mem_of_getElem? found) arrives)
    · exact numbered
  | duplicateRep link index =>
    simp only [Net.event, Net.duplicateRep]
    split
    · rename_i rep found
      exact guarded numbered fun _ => numbered.modify link _ ((numbered.links link).copyRep (mem_of_getElem? found))
    · exact numbered

/-- A link as `umq_ub_flow_control_init` leaves it. -/
structure Link.Fresh (link : Link) : Prop where
  localSeq : link.localReqSeq = 1
  expectSeq : link.remoteExpectSeq = 1
  released : link.isCreditApplying = false
  quiet : link.reqs = [] ∧ link.reps = [] ∧ link.retry = []
  unused : link.history = [] ∧ link.accepted = 0 ∧ link.openReqs = [] ∧ link.appliedReqs = [] ∧ link.appliedReps = []

structure Net.Fresh (net : Net L P D) : Prop where
  links : ∀ link, (net.link link).Fresh
  pools : ∀ pool, (net.pool pool).pendingList = []

omit [DecidableEq P] [DecidableEq D] in
theorem Net.Fresh.numbered (fresh : net.Fresh) : net.All topo Numbered := by
  refine ⟨fun pool req waiting => ?_, fun link => ?_⟩
  · simp [fresh.pools pool] at waiting
  · obtain ⟨localSeq, expectSeq, released, ⟨reqs, reps, retry⟩, history, accepted, openReqs, appliedReqs,
      appliedReps⟩ :=
      fresh.links link
    have log : (net.link link).log = [] := by simp [Link.log, history]
    have tickets : (net.view topo none link).tickets = 0 := by
      simp [View.tickets, Net.view, retry, fresh.pools, Hold.tickets]
    refine ⟨?_, ?_, ?_, ?_, ?_, ?_, ?_, ?_, ?_, ?_, fun _ => openReqs, fun asks => asks.elim⟩
    · simpa [Net.view, log, openReqs, accepted, appliedReps] using StopAndWait.initial
    · simp [Net.view, localSeq, appliedReps, wrapSeq]
    · simp [Net.view, expectSeq, accepted, wrapSeq]
    · simp [Net.view, reqs]
    · simp [Net.view, reqs]
    · simp [Net.view, reqs]
    · simp [Net.view, reps]
    · simp [tickets]
    · rw [tickets]
      simpa [Net.view, appliedReqs] using Spent.none
    · simpa [Net.view, appliedReps] using Spent.none

/-- What the sequence numbers are for. -/
structure Link.Orderly (link : Link) : Prop where
  reqs_once : link.appliedReqs.Nodup
  reps_once : link.appliedReps.Nodup
  outstanding : link.openReqs.length ≤ 1
  localSeq_ne_zero : link.localReqSeq ≠ 0
  expectSeq_ne_zero : link.remoteExpectSeq ≠ 0
  wire_ne_zero : (∀ req ∈ link.reqs, req.seq ≠ 0) ∧ ∀ rep ∈ link.reps, rep.seq ≠ 0

theorem Numbered.orderly {view : View} (numbered : Numbered view) : view.link.Orderly where
  reqs_once := Multiset.coe_nodup.mp (Multiset.nodup_of_le (Multiset.le_add_right _ _) numbered.taken.nodup)
  reps_once := Multiset.coe_nodup.mp numbered.applied.nodup
  outstanding := numbered.discipline.waiting_length
  localSeq_ne_zero := by simp [numbered.localSeq, wrapSeq]
  expectSeq_ne_zero := by simp [numbered.expectSeq, wrapSeq]
  wire_ne_zero := by
    constructor
    · intro req mem
      obtain ⟨turn, _, seq⟩ := numbered.reqs req mem
      simp [seq, wrapSeq]
    · intro rep mem
      obtain ⟨⟨turn, _, seq⟩, _⟩ := numbered.reps rep mem
      simp [seq, wrapSeq]

/-- Whatever is duplicated and however late it arrives, as long as fewer than 254
requests overtake it, every link stays orderly. -/
theorem flowControl_orderly (topo : Topology L P D) {start finish : Net L P D} (fresh : start.Fresh)
    (run : Run (Net.event topo) (fun net event => event.Timely net) start finish) (link : L) :
    (finish.link link).Orderly := by
  have numbered : finish.All topo Numbered :=
    run.invariant fresh.numbered fun _ _ numbered timely => timely.keeps numbered
  exact (numbered.links link).orderly

theorem pairStart_fresh : pairStart.Fresh :=
  ⟨fun _ => ⟨rfl, rfl, rfl, ⟨rfl, rfl, rfl⟩, rfl, rfl, rfl, rfl, rfl⟩, fun _ => rfl⟩

/-- A request and its reply both arrive twice, the second copy of the request after the
next request was posted. -/
def pairDuplicates : List (Event Unit Unit Unit) :=
  [.call (.creditReq () smooth), .duplicateReq () 0, .call (.recvReq () 0 smooth fun _ => smooth), .duplicateRep () 0,
    .call (.recvRep () 0), .call (.recvRep () 0), .call (.creditReq () smooth),
    .call (.recvReq () 0 smooth fun _ => smooth), .call (.recvReq () 0 smooth fun _ => smooth)]

theorem pairDuplicates_orderly :
    pairStart.Fresh ∧ ((pairDuplicates.foldl (Net.event pairTopology) pairStart).link ()).Orderly := by
  refine ⟨pairStart_fresh, flowControl_orderly pairTopology pairStart_fresh (Run.ofList ?_) ()⟩
  have timely : ∀ {α : Type} (list : List α) (index : Nat) (later : α → Nat),
      (∀ msg ∈ list, later msg < 254) → ∀ msg, list[index]? = some msg → later msg < 254 :=
    fun list _ later all msg found => all msg (mem_of_getElem? found)
  refine ⟨trivial, trivial, timely _ 0 _ ?_, trivial, timely _ 0 _ ?_, timely _ 0 _ ?_, trivial, timely _ 0 _ ?_,
    timely _ 0 _ ?_, trivial⟩
  all_goals decide

end UbsComm.FlowControl
