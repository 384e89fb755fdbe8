import UbsComm.FlowControl.Protocol

/-! # The settings of a queue's flow control, and the credit it returns

`umq_ub_flow_control_init` clamps what the user asks for.  The return ratio is never
zero afterwards, and that is all the arithmetic of a credit return needs: the share of
the window that goes back is at least one, fits the ten-bit field, and never digs into
the credit below the return threshold. -/

namespace UbsComm.FlowControl

open Ub

/-- `umq_flow_control_cfg_t`; the credit multiple is a float, and a link only sees its two
roundings. -/
structure UmqFlowControlCfg where
  initialCredit : UInt16
  maxCreditsRequest : UInt16
  returnRatio : UInt16
  minReservedCredit : UInt16

/-- The part of `ub_flow_control_t` that initialisation fills from the configuration. -/
structure UbFlowControl where
  localRxDepth : Nat
  initialCredit : Nat
  returnRatio : Nat
  minReservedCredit : Nat
  maxCreditsRequest : Nat
  creditsPerRequest : Nat
  localReqSeq : Nat
  remoteExpectSeq : Nat

def umqUbInitialCreditsPerUmq : Nat := 4
def umqUbReturnCreditRatio : Nat := 2
def umqUbMinReservedCredit : Nat := 2
def umqUbMinCreditsPerRequest : Nat := 2
def umqUbDefaultMaxCreditsRequest : Nat := 512

/-- A value of zero or beyond the receive depth is replaced. -/
def orDefault (asked : UInt16) (rxDepth : UInt32) (default : Nat) : Nat :=
  if asked.toNat = 0 ∨ asked.toNat > rxDepth.toNat then default else asked.toNat

/-- The depth is narrowed to sixteen bits on the way into `ub_flow_control_t`, but the
configuration is compared with the full one. -/
def umqUbFlowControlInit (cfg : UmqFlowControlCfg) (rxDepth : UInt32) : UbFlowControl :=
  let localRxDepth := rxDepth.toNat % 2 ^ 16
  let initialCredit := orDefault cfg.initialCredit rxDepth (localRxDepth >>> umqUbInitialCreditsPerUmq)
  let initialCredit := min (max 1 initialCredit) umqUbFcMaxImmData
  let maxCreditsRequest :=
    if cfg.maxCreditsRequest.toNat < umqUbMinCreditsPerRequest ∨ cfg.maxCreditsRequest.toNat > localRxDepth then
      umqUbDefaultMaxCreditsRequest
    else cfg.maxCreditsRequest.toNat
  { localRxDepth
    initialCredit
    returnRatio := orDefault cfg.returnRatio rxDepth umqUbReturnCreditRatio
    minReservedCredit := orDefault cfg.minReservedCredit rxDepth umqUbMinReservedCredit
    maxCreditsRequest := min maxCreditsRequest (min umqUbFcMaxImmData localRxDepth)
    creditsPerRequest := initialCredit
    localReqSeq := 1
    remoteExpectSeq := 1 }

/-- The settings of a link are those some initialisation produced. -/
def LinkCfg.Initialised (cfg : LinkCfg) : Prop :=
  ∃ (asked : UmqFlowControlCfg) (rxDepth : UInt32),
    cfg.localRxDepth = (umqUbFlowControlInit asked rxDepth).localRxDepth ∧
    cfg.returnRatio = (umqUbFlowControlInit asked rxDepth).returnRatio ∧
    cfg.minReservedCredit = (umqUbFlowControlInit asked rxDepth).minReservedCredit ∧
    cfg.maxCreditsRequest = (umqUbFlowControlInit asked rxDepth).maxCreditsRequest

theorem orDefault_pos {asked : UInt16} {rxDepth : UInt32} {default : Nat} (some : 0 < default) :
    0 < orDefault asked rxDepth default := by
  rw [orDefault]
  split
  · exact some
  · omega

theorem LinkCfg.Initialised.returnRatio_pos {cfg : LinkCfg} (initialised : cfg.Initialised) : 0 < cfg.returnRatio := by
  obtain ⟨asked, rxDepth, _, ratio, _⟩ := initialised
  rw [ratio]
  exact orDefault_pos (Nat.succ_pos 1)

/-! ## The amount -/

/-- A ratio of one would return the whole window; the threshold then decides. -/
theorem returnCredit_bounds (cfg : LinkCfg) {remoteCredit threshold : Nat} (above : threshold < remoteCredit) :
    1 ≤ returnCredit cfg remoteCredit threshold ∧
      threshold + returnCredit cfg remoteCredit threshold ≤ remoteCredit := by
  rw [returnCredit]
  simp only [umqUbFcMaxImmData]
  split <;> omega

variable {L P D : Type} [DecidableEq L] [DecidableEq P]

/-- A queue that may return credit and whose call succeeds has put a return request on the
link.  The division by the return ratio is defined, the request carries between one and
1023 credits, no more than the window had, and what stays in the window covers the
threshold. -/
theorem returnReq_amount (topo : Topology L P D) (net : Net L P D) (link : L) (env : SendEnv L)
    (initialised : (topo.cfg link).Initialised)
    (above : (net.link link).returnThreshold (topo.cfg link) < (net.link link).remoteRxWindow)
    (bound : env.bound = true) (released : (net.link link).isCreditApplying = false)
    (sent : (umqUbSharedCreditReturnReqSend topo net link true env).2 = .ok ()) :
    0 < (topo.cfg link).returnRatio ∧
    ∃ req, ((umqUbSharedCreditReturnReqSend topo net link true env).1.link link).reqs.getLast? = some req ∧
      req.kind = .returnReq ∧ req.window.val = req.notify ∧ 1 ≤ req.notify ∧ req.notify ≤ umqUbFcMaxImmData ∧
      req.notify ≤ (net.link link).remoteRxWindow ∧
      (net.link link).returnThreshold (topo.cfg link) ≤
        ((umqUbSharedCreditReturnReqSend topo net link true env).1.link link).remoteRxWindow := by
  refine ⟨initialised.returnRatio_pos, ?_⟩
  have amount := returnCredit_bounds (topo.cfg link) above
  have small := returnCredit_le (topo.cfg link) (net.link link).remoteRxWindow
    ((net.link link).returnThreshold (topo.cfg link))
  unfold umqUbSharedCreditReturnReqSend at sent ⊢
  generalize (net.link link).returnThreshold (topo.cfg link) = threshold at above amount small sent ⊢
  simp only [bound, released, Bool.not_true, Bool.false_eq_true, Nat.not_le.mpr above, or_self, if_false] at sent ⊢
  obtain ⟨_, result⟩ | ⟨polled, err, _, _, result⟩ :=
      umqUbPollFcTx_ends topo (net.modify link ({ · with isCreditApplying := true })) env.poll <;>
    simp only [result] at sent ⊢
  · cases jetty : env.jettyNode with
    | error err => simp only [jetty] at sent; cases sent
    | ok =>
      simp only [jetty, Net.modify_link_self, Net.modify_modify, remoteRxWindowDec] at sent ⊢
      generalize returnCredit (topo.cfg link) (net.link link).remoteRxWindow threshold = asked at *
      have whole : min (net.link link).remoteRxWindow asked = asked := by omega
      rw [whole] at sent ⊢
      generalize debit : net.modify link _ = debited at sent ⊢
      have left : (debited.link link).remoteRxWindow = (net.link link).remoteRxWindow - asked := by
        rw [← debit, Net.modify_link_self]
      obtain ⟨_, result⟩ | ⟨posted, err, _, _, result⟩ := umqUbFcPost_ends topo debited env <;>
        simp only [result] at sent ⊢
      · have fits : asked ≤ (net.link link).remoteRxWindow := by omega
        refine ⟨⟨.returnReq, Fin.ofNat 1024 asked, asked, (debited.link link).localReqSeq,
          (debited.link link).history.length, env.fate⟩, ?_, rfl, ?_, amount.1, small, fits, ?_⟩
        · rw [Net.modify_link_self]
          exact List.getLast?_concat ..
        · exact Nat.mod_eq_of_lt (Nat.lt_succ_of_le small)
        · rw [Net.modify_link_self]
          show threshold ≤ (debited.link link).remoteRxWindow
          omega
      · cases sent
  · cases sent

theorem returnReq_amount_pair :
    ∃ req, ((umqUbSharedCreditReturnReqSend pairTopology pairStart () true smooth).1.link ()).reqs.getLast? = some req ∧
      req.notify = 2 ∧ 1 ≤ req.notify := by
  obtain ⟨_, req, last, _, _, pos, _⟩ := returnReq_amount pairTopology pairStart () smooth
    ⟨⟨4, 16, 2, 2⟩, 64, by decide⟩ (by decide) rfl rfl rfl
  exact ⟨req, last, by cases last; rfl, pos⟩

end UbsComm.FlowControl
