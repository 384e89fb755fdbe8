import UbsComm.FlowControl.Protocol

/-! # Invariants of single links

A property of views that every move keeps, and that survives the arrival of messages,
holds of every link throughout a run.  `ViewInvariant` lists what has to be shown about
one view, and `Net.All.step` is what follows for a step of the whole network.  A message
may have to be `ready` for its arrival to be harmless. -/

namespace UbsComm.FlowControl

open Ub

structure ViewInvariant (readyReq : Link → FcReq → Prop) (readyRep : Link → FcRep → Prop)
    (Invariant : View → Prop) : Prop where
  move {view view' : View} (move : LinkMove True view view') : Invariant view → Invariant view'
  data {view : View} (window : Nat) (data : List DataMsg) (consumed : Nat) :
    Invariant view →
      Invariant { view with link := { view.link with remoteRxWindow := window, data := data }, consumed := consumed }
  forgetReq {view : View} (index : Nat) :
    Invariant view → Invariant { view with link := { view.link with reqs := view.link.reqs.eraseIdx index } }
  forgetRep {view : View} (index : Nat) :
    Invariant view → Invariant { view with link := { view.link with reps := view.link.reps.eraseIdx index } }
  accept {view : View} {index : Nat} {req : FcReq} (free : view.hold = none)
    (found : view.link.reqs[index]? = some req) (arrives : req.fate = .delivered) (ready : readyReq view.link req)
    (expected : req.seq = view.link.remoteExpectSeq) :
    Invariant view →
      Invariant { view with
        link := { view.link with reqs := view.link.reqs.eraseIdx index }.accept
        hold := some (.serving req.ticket req.carried) }
  applyRep {view : View} {index : Nat} {rep : FcRep} (cfg : LinkCfg) (free : view.hold = none)
    (found : view.link.reps[index]? = some rep) (ready : readyRep view.link rep)
    (expected : rep.seq = view.link.localReqSeq) :
    Invariant view →
      Invariant { view with link := { view.link with reps := view.link.reps.eraseIdx index }.applyRep cfg rep }

variable {L P D : Type} [DecidableEq L] {topo : Topology L P D}
  {net net' : Net L P D} {Invariant : View → Prop} {readyReq : Link → FcReq → Prop} {readyRep : Link → FcRep → Prop}

variable (topo) in
/-- Every link has the property between two calls. -/
structure Net.All (Invariant : View → Prop) (net : Net L P D) : Prop where
  homed : net.Homed topo
  links : ∀ link, Invariant (net.view topo none link)

theorem Net.All.modify (all : net.All topo Invariant) (link : L) (f : Link → Link)
    (changed : Invariant { net.view topo none link with link := f (net.link link) }) :
    (net.modify link f).All topo Invariant :=
  ⟨all.homed, Net.forall_modify (motive := fun other l => Invariant { net.view topo none other with link := l })
    link f changed all.links⟩

namespace ViewInvariant

variable (keeps : ViewInvariant readyReq readyRep Invariant)
include keeps

variable (all : net.All topo Invariant) {link : L} {index : Nat}
include all

theorem evolves (evolves : Evolves topo True none net none net') : net'.All topo Invariant :=
  ⟨evolves.homed all.homed, fun link => evolves.keeps keeps.move all.homed (all.links link)⟩

theorem modifyData (link : L) (window : Link → Nat) (data : Link → List DataMsg) :
    (net.modify link fun l => { l with remoteRxWindow := window l, data := data l }).All topo Invariant :=
  all.modify link _ (keeps.data _ _ _ (all.links link))

theorem recvRep (ready : ∀ rep, (net.link link).reps[index]? = some rep → readyRep (net.link link) rep) :
    (umqUbPollFcRxRep topo net link index).All topo Invariant := by
  have before := all.links link
  unfold umqUbPollFcRxRep
  cases found : (net.link link).reps[index]? with
  | none => exact all
  | some rep =>
    simp only
    split_ifs with failed unexpected
    · exact all
    · exact all.modify link _ (keeps.forgetRep index before)
    · rw [Net.modify_modify]
      refine all.modify link _ ?_
      exact keeps.applyRep (topo.cfg link) rfl found (ready rep found) (not_not.mp unexpected) before

variable [DecidableEq P]

theorem recvReq {env : SendEnv L} {pending : Nat → SendEnv L}
    (ready : ∀ req, (net.link link).reqs[index]? = some req → readyReq (net.link link) req) :
    (umqUbPollFcRxReq topo net link index env pending).All topo Invariant := by
  have before := all.links link
  obtain same | ⟨req, found, arrives, ⟨_, result⟩ | ⟨expected, result⟩⟩ :=
    umqUbPollFcRxReq_cases pending net link index env
  · rw [same]
    exact all
  · rw [result]
    exact all.modify link _ (keeps.forgetReq index before)
  · have evolves : Evolves topo True (some (link, .serving req.ticket req.carried)) (net.accepted link index) none _ :=
      umqUbPollFcRxReq_accepted link pending env fun _ _ => trivial
    rw [← result] at evolves
    have homed : (net.accepted link index).Homed topo := all.homed
    refine ⟨evolves.homed homed, fun other => evolves.keeps keeps.move homed ?_⟩
    exact Net.view_accepted (keeps.accept rfl found arrives (ready req found) expected before) all.links other

variable [DecidableEq D]

theorem account {pool : P} {dev : D} {umqId : Nat} : (umqUbPollRxAccount net pool dev umqId).All topo Invariant := by
  refine ⟨umqUbPollRxAccount_homed all.homed, fun link => ?_⟩
  rw [umqUbPollRxAccount_view]
  exact keeps.data _ _ _ (all.links link)

end ViewInvariant

variable [DecidableEq P] [DecidableEq D]

def Step.Ready (readyReq : Link → FcReq → Prop) (readyRep : Link → FcRep → Prop) (net : Net L P D) :
    Step L P D → Prop
  | .recvReq link index _ _ => ∀ req, (net.link link).reqs[index]? = some req → readyReq (net.link link) req
  | .recvRep link index => ∀ rep, (net.link link).reps[index]? = some rep → readyRep (net.link link) rep
  | _ => True

theorem ViewInvariant.step (keeps : ViewInvariant readyReq readyRep Invariant) (all : net.All topo Invariant)
    {step : Step L P D} (ready : step.Ready readyReq readyRep net) : (net.step topo step).All topo Invariant := by
  cases step with
  | creditReq link env => exact keeps.evolves all (umqUbSharedCreditReqSend_evolves link)
  | creditReturn link due env => exact keeps.evolves all (umqUbSharedCreditReturnReqSend_evolves link)
  | recvReq link index env pending => exact keeps.recvReq all ready
  | recvRep link index => exact keeps.recvRep all ready
  | retry link index timedOut env pending =>
    exact keeps.evolves all (umqUbFcMsgRetryDequeue_evolves link pending fun _ _ _ _ => trivial)
  | pollFcTx poll => exact keeps.evolves all (umqUbPollFcTx_ends _ net poll).reaped.evolves
  | postTx link call =>
    simp only [Net.step, Net.postTx]
    split
    · exact keeps.modifyData all link (fun l => (umqUbPostTx call).window.getD l.remoteRxWindow)
        fun l => l.data ++ postedMessages call
    · exact all
  | recvData link index =>
    simp only [Net.step, Net.recvData]
    split
    · exact all
    · have arrived := keeps.modifyData all link (·.remoteRxWindow) (·.data.eraseIdx index)
      split
      · exact keeps.account arrived
      · exact arrived
  | recvFailed pool dev umqId => exact keeps.account all
  | dataFailed link index flushed =>
    simp only [Net.step, Net.dataFailed]
    split
    · exact all
    · exact keeps.modifyData all link _ (·.data.eraseIdx index)
  | recharge pool count pending => exact keeps.evolves all (umqUbSharedCreditRecharge_evolves pending)

end UbsComm.FlowControl
