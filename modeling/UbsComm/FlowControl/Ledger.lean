import UbsComm.FlowControl.Protocol
import UbsComm.Library.Lists
import UbsComm.Library.Run
import UbsComm.Ub.PostTxWindow
import Mathlib.Algebra.Order.Group.Multiset
import Mathlib.Tactic.Abel

/-! # The credit ledger

For every link the sender's window, the credit in replies under way, the data messages
under way and the credit in return requests under way add up to what the receiver has
allocated and not seen consumed.  The sum can only be right if no request or reply is
ever mistaken for a duplicate, so the ledger is proved together with the exchange
discipline: a link has at most one request or reply outstanding, and its sequence
number is the expected one. -/

namespace UbsComm.FlowControl

open Ub Library List

/-! ## The exchange discipline -/

inductive Stage where
  | asked | accepted

/-- The one message a link may have outstanding, wherever it is at the moment. -/
structure Token where
  stage : Stage
  seq : Nat

def FcReq.token (req : FcReq) : Token := ⟨.asked, req.seq⟩

def Hold.tokens (localReqSeq : Nat) : Option Hold → Multiset Token
  | none => 0
  | some .asking | some (.returning _) => {⟨.asked, localReqSeq⟩}
  | some (.serving ticket _) => {⟨.accepted, ticket.seq⟩}

variable (view : View)

def View.tokens : Multiset Token :=
  view.link.reqs.map FcReq.token + view.link.retry.map (fun req => Token.mk .accepted req.seq) +
    view.link.reps.map (fun rep => Token.mk .accepted rep.seq) +
    view.pending.map (fun ticket => Token.mk .accepted ticket.seq) + Hold.tokens view.link.localReqSeq view.hold

/-- What the receiver expects next while the token is where it is. -/
def Token.expects (token : Token) : Nat :=
  match token.stage with
  | .asked => token.seq
  | .accepted => umqUbFcSeqInc token.seq

structure Exchange : Prop where
  single : view.tokens.card ≤ if view.link.isCreditApplying then 1 else 0
  inSequence : ∀ token ∈ view.tokens,
    token.seq = view.link.localReqSeq ∧ view.link.remoteExpectSeq = token.expects
  released : view.link.isCreditApplying = false → view.link.remoteExpectSeq = view.link.localReqSeq

section Exchange

variable {lossy : Prop} {view view' : View} {token : Token}

section

variable (exchange : Exchange view)
include exchange

theorem Exchange.moved (tokens : view'.tokens = view.tokens)
    (applying : view'.link.isCreditApplying = view.link.isCreditApplying)
    (localSeq : view'.link.localReqSeq = view.link.localReqSeq)
    (remoteSeq : view'.link.remoteExpectSeq = view.link.remoteExpectSeq) : Exchange view' := by
  refine ⟨?_, ?_, ?_⟩
  · rw [tokens, applying]
    exact exchange.single
  · rw [tokens, localSeq, remoteSeq]
    exact exchange.inSequence
  · rw [applying, localSeq, remoteSeq]
    exact exchange.released

/-- The token disappears and the permission stays taken. -/
theorem Exchange.lost {token : Token} (tokens : view.tokens = {token} + view'.tokens)
    (applying : view'.link.isCreditApplying = view.link.isCreditApplying)
    (localSeq : view'.link.localReqSeq = view.link.localReqSeq)
    (remoteSeq : view'.link.remoteExpectSeq = view.link.remoteExpectSeq) : Exchange view' := by
  have single := exchange.single
  rw [tokens, Multiset.card_add] at single
  refine ⟨?_, ?_, ?_⟩
  · rw [applying]
    omega
  · intro other mem
    rw [localSeq, remoteSeq]
    exact exchange.inSequence other (tokens ▸ Multiset.mem_add.mpr (.inr mem))
  · rw [applying, localSeq, remoteSeq]
    exact exchange.released

variable {index : Nat} {rest : Multiset Token}

theorem Exchange.alone (tokens : view.tokens = {token} + rest) : view.link.isCreditApplying = true ∧ rest = 0 := by
  have single := exchange.single
  rw [tokens, Multiset.card_add, Multiset.card_singleton] at single
  cases applying : view.link.isCreditApplying with
  | false => simp [applying] at single
  | true =>
    simp only [applying, if_true] at single
    exact ⟨rfl, Multiset.card_eq_zero.mp (by omega)⟩

theorem Exchange.current (tokens : view.tokens = {token} + rest) :
    token.seq = view.link.localReqSeq ∧ view.link.remoteExpectSeq = token.expects :=
  exchange.inSequence token (by rw [tokens]; exact Multiset.mem_add.mpr (.inl (Multiset.mem_singleton_self token)))

/-- A request that was not accepted yet is given up with the permission. -/
theorem Exchange.closed (seq : Nat) (tokens : view.tokens = {⟨.asked, seq⟩} + view'.tokens)
    (localSeq : view'.link.localReqSeq = view.link.localReqSeq)
    (remoteSeq : view'.link.remoteExpectSeq = view.link.remoteExpectSeq) : Exchange view' := by
  obtain ⟨_, nothing⟩ := exchange.alone tokens
  obtain ⟨sameSeq, expects⟩ := exchange.current tokens
  refine ⟨by simp [nothing], by simp [nothing], fun _ => ?_⟩
  rw [localSeq, remoteSeq, expects, ← sameSeq, Token.expects]

theorem Exchange.opened (released : view.link.isCreditApplying = false)
    (tokens : view'.tokens = view.tokens + {⟨.asked, view.link.localReqSeq⟩})
    (applying : view'.link.isCreditApplying = true) (localSeq : view'.link.localReqSeq = view.link.localReqSeq)
    (remoteSeq : view'.link.remoteExpectSeq = view.link.remoteExpectSeq) : Exchange view' := by
  have single := exchange.single
  simp only [released, Bool.false_eq_true, if_false, Nat.le_zero, Multiset.card_eq_zero] at single
  rw [single, zero_add] at tokens
  refine ⟨by simp [tokens, applying], ?_, by simp [applying]⟩
  intro token mem
  rw [tokens, Multiset.mem_singleton] at mem
  subst mem
  exact ⟨localSeq.symm, by rw [remoteSeq, exchange.released released]; rfl⟩

end

theorem tokens_failReq {req : FcReq} (found : view.link.reqs[index]? = some req) :
    view.tokens = {⟨.asked, req.seq⟩} + { view with link := view.link.failReq index req }.tokens := by
  simp only [View.tokens, Link.failReq, coe_map_eraseIdx found FcReq.token, FcReq.token]
  abel

theorem tokens_returning {credit : Nat} (held : view.hold = some (.returning credit)) :
    view.tokens = {⟨.asked, view.link.localReqSeq⟩} + { view with hold := none }.tokens := by
  simp only [View.tokens, held]
  abel

theorem tokens_serving {ticket : Ticket} {credit : Nat} (held : view.hold = some (.serving ticket credit)) :
    view.tokens = {⟨.accepted, ticket.seq⟩} + { view with hold := none }.tokens := by
  simp only [View.tokens, held]
  abel

theorem tokens_reps {rep : FcRep} (found : view.link.reps[index]? = some rep) :
    view.tokens = {⟨.accepted, rep.seq⟩} +
      { view with link := { view.link with reps := view.link.reps.eraseIdx index } }.tokens := by
  simp only [View.tokens, coe_map_eraseIdx found]
  abel

theorem LinkMove.exchange (move : LinkMove lossy view view') (exchange : Exchange view) : Exchange view' := by
  cases move with
  | @failReq index req found failed => exact exchange.closed req.seq (tokens_failReq found) rfl rfl
  | @failRep index rep found failed => exact exchange.lost (tokens_reps found) rfl rfl rfl
  | acquire free released =>
    refine exchange.opened released ?_ rfl rfl rfl
    simp [View.tokens, Hold.tokens, free]
  | release held =>
    refine exchange.closed view.link.localReqSeq ?_ rfl rfl
    simp only [View.tokens, held]
    abel
  | refund held => exact exchange.closed view.link.localReqSeq (tokens_returning held) rfl rfl
  | tune | debit | grant | revoke | clamp =>
    -- what the call holds keeps its token
    refine exchange.moved ?_ rfl rfl rfl
    simp_all [View.tokens, Hold.tokens]
  | postCreditReq | postReturnReq | wait | park | reply | acknowledge =>
    refine exchange.moved ?_ rfl rfl rfl
    simp_all only [View.tokens, Hold.tokens, Link.postReq, Link.postRep, coe_map_snoc, FcReq.token, FcReq.ticket]
    abel
  | next free first =>
    refine exchange.moved ?_ rfl rfl rfl
    simp only [View.tokens, free, first, map_cons, ← Multiset.cons_coe, ← Multiset.singleton_add]
    abel
  | resume free found =>
    refine exchange.moved ?_ rfl rfl rfl
    simp only [View.tokens, free, coe_map_eraseIdx found]
    abel
  | @drop ticket credit held settled returned =>
    exact exchange.lost (tokens_serving held) rfl rfl rfl

end Exchange

/-! ## The sum -/

def Link.responseCredit (link : Link) : Nat := (link.reps.map FcRep.carried).sum

/-- A return request that was received but not answered yet is still under way. -/
def Link.returningCredit (link : Link) : Nat :=
  (link.reqs.map FcReq.carried).sum + (link.retry.map FcReq.carried).sum

def Link.dataInFlight (link : Link) : Nat := link.data.countP (·.opcode.consumesRqe)

def Hold.credit : Option Hold → Nat
  | none | some .asking => 0
  | some (.returning credit) | some (.serving _ credit) => credit

def View.outstanding : Nat :=
  view.link.remoteRxWindow + view.link.responseCredit + view.link.dataInFlight + view.link.returningCredit +
    Hold.credit view.hold

theorem View.outstanding_eq {view : View} : view.outstanding =
    view.link.remoteRxWindow + (view.link.reps.map FcRep.carried).sum + view.link.data.countP (·.opcode.consumesRqe) +
      ((view.link.reqs.map FcReq.carried).sum + (view.link.retry.map FcReq.carried).sum) + Hold.credit view.hold := by
  simp only [View.outstanding, Link.responseCredit, Link.dataInFlight, Link.returningCredit]

/-- What the running call holds fits the ten-bit field of the message it is for. -/
def Hold.Sized : Option Hold → Prop
  | none | some .asking => True
  | some (.returning credit) => credit ≤ umqUbFcMaxImmData
  | some (.serving ticket credit) => ticket.requested ≤ umqUbFcMaxImmData ∧
      (ticket.kind = .creditReq → credit ≤ ticket.requested) ∧ (ticket.kind = .returnReq → credit = ticket.requested)

/-- What keeps a link's sum right. -/
structure Steady : Prop where
  exchange : Exchange view
  balance : view.outstanding + view.consumed = view.link.allocatedSuccess
  reqs : ∀ req ∈ view.link.reqs, req.notify = req.window.val
  reps : ∀ rep ∈ view.link.reps, rep.notify = rep.window.val
  pending : ∀ ticket ∈ view.pending, ticket.requested ≤ umqUbFcMaxImmData ∧ ticket.kind = .creditReq
  hold : Hold.Sized view.hold

/-- During a call: while the receiver waits for a new request its total fits the
sixteen-bit window, so that no refund is refused. -/
structure Sound : Prop extends Steady view where
  fits : view.link.remoteExpectSeq = view.link.localReqSeq →
    view.link.allocatedSuccess ≤ view.consumed + uint16Max

theorem umqUbFcSeqInc_ne {seq : Nat} : umqUbFcSeqInc seq ≠ seq := by
  unfold umqUbFcSeqInc
  split <;> omega

theorem val_ofNat_small {value : Nat} (small : value ≤ umqUbFcMaxImmData) : (Fin.ofNat 1024 value).val = value := by
  simp only [Fin.ofNat, umqUbFcMaxImmData] at *
  omega

section Sum

variable {view view' : View}

/-- Credit on its way back to the window finds room there. -/
theorem Sound.refund (sound : Sound view) (credit : Nat) {seq : Nat}
    (asked : view.tokens = {⟨.asked, seq⟩} + rest) (part : view.link.remoteRxWindow + credit ≤ view.outstanding) :
    remoteRxWindowInc view.link.remoteRxWindow credit = view.link.remoteRxWindow + credit := by
  obtain ⟨sameSeq, expects⟩ := sound.exchange.current asked
  have fits := sound.fits (expects.trans sameSeq)
  have balance := sound.balance
  exact remoteRxWindowInc_eq (by omega)

/-- The window after a failed request: a return goes back into it. -/
theorem Sound.failReq_window (sound : Sound view) {req : FcReq} (found : view.link.reqs[index]? = some req) :
    (view.link.failReq index req).remoteRxWindow = view.link.remoteRxWindow + req.carried := by
  cases kind : req.kind with
  | creditReq => simp [Link.failReq, FcReq.carried, kind]
  | returnReq =>
    have carried : req.carried = req.notify := by
      simp [FcReq.carried, kind, sound.reqs req (mem_of_getElem? found)]
    simp only [Link.failReq, kind, carried]
    refine sound.refund req.notify (tokens_failReq found) ?_
    simp only [View.outstanding_eq, sum_map_eraseIdx found]
    omega

theorem Sound.failRep_allocated (sound : Sound view) {rep : FcRep} (found : view.link.reps[index]? = some rep) :
    (view.link.failRep index rep).allocatedSuccess = view.link.allocatedSuccess - rep.carried := by
  have wire := sound.reps rep (mem_of_getElem? found)
  cases kind : rep.kind <;> simp [Link.failRep, FcRep.carried, kind, wire]

section

variable (move : LinkMove False view view')
include move

theorem LinkMove.balance (sound : Sound view) : view'.outstanding + view'.consumed = view'.link.allocatedSuccess := by
  have balance := sound.balance
  have sized := sound.hold
  cases move with
  | @failReq index req found failed =>
    simp only [View.outstanding, sound.failReq_window found]
    simp only [View.outstanding_eq, sum_map_eraseIdx found] at balance
    simp only [Link.failReq, Link.responseCredit, Link.dataInFlight, Link.returningCredit] at balance ⊢
    omega
  | @failRep index rep found failed =>
    simp only [sound.failRep_allocated found]
    simp only [View.outstanding_eq, sum_map_eraseIdx found] at balance
    simp only [View.outstanding_eq, Link.failRep] at balance ⊢
    omega
  | resume free found =>
    simp only [View.outstanding_eq, free, sum_map_eraseIdx found] at balance
    simp only [View.outstanding_eq, Hold.credit] at balance ⊢
    omega
  | @refund credit held =>
    have room := sound.refund credit (tokens_returning held) (by
      simp only [View.outstanding, held, Hold.credit]
      omega)
    simp only [View.outstanding_eq, held, Hold.credit] at balance ⊢
    omega
  | @postReturnReq credit fate held =>
    simp only [held, Hold.Sized, umqUbFcMaxImmData] at sized
    simp [View.outstanding_eq, held, Hold.credit, Link.postReq, FcReq.carried] at balance ⊢
    omega
  | @park req credit held settled =>
    have carried : req.carried = credit := by
      simp only [held, FcReq.ticket] at sized
      cases kind : req.kind with
      | creditReq => simp [FcReq.carried, kind, settled kind]
      | returnReq => simp [FcReq.carried, kind, sized.2.2 kind]
    simp [View.outstanding_eq, held, Hold.credit] at balance ⊢
    omega
  | @reply ticket credit ratio fate held kind reported =>
    simp only [held] at sized
    have small : credit ≤ 1023 := (sized.2.1 kind).trans sized.1
    simp [View.outstanding_eq, held, Hold.credit, Link.postRep, FcRep.carried] at balance ⊢
    omega
  | @drop ticket credit held settled returned =>
    have nothing : credit = 0 := by
      cases kind : ticket.kind with
      | creditReq => exact settled kind
      | returnReq => exact (returned kind).elim
    simp only [View.outstanding, held, nothing] at balance ⊢
    exact balance
  | acquire | release | tune | debit | postCreditReq | wait | next | grant | revoke | clamp | acknowledge =>
    simp [View.outstanding_eq, Hold.credit, remoteRxWindowDec, Link.postReq, Link.postRep, FcReq.carried,
      FcRep.carried, *] at balance ⊢
    omega

theorem LinkMove.reqs (sound : Sound view) : ∀ req ∈ view'.link.reqs, req.notify = req.window.val := by
  have wire := sound.reqs
  cases move with
  | failReq found failed => exact fun req mem => wire req (mem_of_mem_eraseIdx mem)
  | postCreditReq fate held =>
    exact forall_mem_append.mpr ⟨wire, forall_mem_singleton.mpr (val_ofNat_small (Nat.min_le_right _ _)).symm⟩
  | @postReturnReq credit fate held =>
    have sized := sound.hold
    simp only [held] at sized
    exact forall_mem_append.mpr ⟨wire, forall_mem_singleton.mpr (val_ofNat_small sized).symm⟩
  | _ => exact wire

theorem LinkMove.reps (sound : Sound view) : ∀ rep ∈ view'.link.reps, rep.notify = rep.window.val := by
  have wire := sound.reps
  have sized := sound.hold
  cases move with
  | failRep found failed => exact fun rep mem => wire rep (mem_of_mem_eraseIdx mem)
  | reply ratio fate held kind reported =>
    simp only [held] at sized
    have small := (sized.2.1 kind).trans sized.1
    exact forall_mem_append.mpr ⟨wire, forall_mem_singleton.mpr (val_ofNat_small small).symm⟩
  | acknowledge ratio fate held kind reported =>
    simp only [held] at sized
    have small := (sized.2.2 kind).trans_le sized.1
    exact forall_mem_append.mpr ⟨wire, forall_mem_singleton.mpr (val_ofNat_small small).symm⟩
  | _ => exact wire

theorem LinkMove.pending (sound : Sound view) :
    ∀ ticket ∈ view'.pending, ticket.requested ≤ umqUbFcMaxImmData ∧ ticket.kind = .creditReq := by
  have waiting := sound.pending
  have sized := sound.hold
  cases move with
  | wait held kind =>
    simp only [held] at sized
    exact forall_mem_append.mpr ⟨waiting, forall_mem_singleton.mpr ⟨sized.1, kind⟩⟩
  | next free first => exact fun ticket mem => waiting ticket (first ▸ mem_cons_of_mem _ mem)
  | _ => exact waiting

theorem LinkMove.hold (sound : Sound view) : Hold.Sized view'.hold := by
  have sized := sound.hold
  cases move with
  | debit required held small => exact (Nat.min_le_right _ _).trans small
  | next free first =>
    have waiting := sound.pending _ (first ▸ mem_cons_self)
    exact ⟨waiting.1, fun _ => Nat.zero_le _, fun kind => by simp [waiting.2] at kind⟩
  | @resume index req free found =>
    refine ⟨Nat.le_of_lt_succ req.window.isLt, fun kind => ?_, fun kind => ?_⟩ <;>
      simp only [FcReq.ticket] at kind <;> simp [FcReq.carried, kind, FcReq.ticket]
  | grant credit held kind bounded =>
    simp only [held] at sized
    exact ⟨sized.1, fun _ => bounded, fun other => by simp [kind] at other⟩
  | revoke held kind =>
    simp only [held] at sized
    exact ⟨sized.1, fun _ => Nat.zero_le _, fun other => by simp [kind] at other⟩
  | clamp held kind =>
    -- the ledger has at least this much allocated, so nothing is cut off
    have balance := sound.balance
    simp only [View.outstanding, held, Hold.credit] at balance
    simp only [held] at sized
    refine ⟨sized.1, fun other => by simp [kind] at other, fun _ => ?_⟩
    have whole := sized.2.2 kind
    omega
  | acquire | release | refund | postCreditReq | postReturnReq | wait | park | reply | acknowledge | drop => trivial
  | failReq | failRep | tune => exact sized

theorem LinkMove.fits (sound : Sound view) :
    view'.link.remoteExpectSeq = view'.link.localReqSeq →
      view'.link.allocatedSuccess ≤ view'.consumed + uint16Max := by
  have fits := sound.fits
  cases move with
  | failRep found failed =>
    intro expected
    have fits := fits expected
    simp only [sound.failRep_allocated found]
    omega
  | grant credit held kind bounded =>
    -- only an accepted request is granted anything
    obtain ⟨sameSeq, expects⟩ := sound.exchange.current (tokens_serving held)
    intro expected
    exact absurd (expects.symm.trans (expected.trans sameSeq.symm)) umqUbFcSeqInc_ne
  | revoke | acknowledge => exact fun expected => (Nat.sub_le _ _).trans (fits expected)
  | _ => exact fits

theorem LinkMove.sound (sound : Sound view) : Sound view' where
  exchange := move.exchange sound.exchange
  balance := move.balance sound
  reqs := move.reqs sound
  reps := move.reps sound
  pending := move.pending sound
  hold := move.hold sound
  fits := move.fits sound

theorem LinkMove.data : view'.link.data = view.link.data := by
  cases move <;> rfl

end

/-- An accepted request leaves the link for the hand of the receiver. -/
theorem Sound.accept (sound : Sound view) (free : view.hold = none) {req : FcReq}
    (found : view.link.reqs[index]? = some req) :
    Sound { view with
      link := { view.link with reqs := view.link.reqs.eraseIdx index }.accept
      hold := some (.serving req.ticket req.carried) } := by
  have tokens := tokens_failReq found
  obtain ⟨applying, nothing⟩ := sound.exchange.alone tokens
  obtain ⟨sameSeq, expects⟩ := sound.exchange.current tokens
  have moved : View.tokens { view with
      link := { view.link with reqs := view.link.reqs.eraseIdx index }.accept
      hold := some (.serving req.ticket req.carried) } = {⟨.accepted, req.seq⟩} := by
    simp only [View.tokens, Link.failReq, free, Hold.tokens, add_zero] at nothing
    simp only [View.tokens, Link.accept, Hold.tokens, nothing, zero_add, FcReq.ticket]
  refine ⟨⟨⟨?_, ?_, ?_⟩, ?_, ?_, sound.reps, sound.pending, ?_⟩, ?_⟩
  · rw [moved]
    simp [Link.accept, applying]
  · intro token mem
    rw [moved, Multiset.mem_singleton] at mem
    subst mem
    exact ⟨sameSeq, by simp only [Link.accept, expects, Token.expects]⟩
  · simp [Link.accept, applying]
  · have balance := sound.balance
    simp only [View.outstanding_eq, free, sum_map_eraseIdx found] at balance
    simp only [View.outstanding_eq, Link.accept, Hold.credit] at balance ⊢
    omega
  · exact fun other mem => sound.reqs other (mem_of_mem_eraseIdx mem)
  · refine ⟨Nat.le_of_lt_succ req.window.isLt, fun kind => ?_, fun kind => ?_⟩ <;>
      simp only [FcReq.ticket] at kind <;> simp [FcReq.carried, kind, FcReq.ticket]
  · intro expected
    simp only [expects, ← sameSeq] at expected
    exact absurd expected umqUbFcSeqInc_ne

theorem Link.applyRep_window (link : Link) (cfg : LinkCfg) (rep : FcRep) :
    (link.applyRep cfg rep).remoteRxWindow = remoteRxWindowInc link.remoteRxWindow rep.carried := by
  unfold Link.applyRep FcRep.carried
  cases rep.kind with
  | creditReq => rfl
  | returnReq => simp [remoteRxWindowInc]

/-- All of a link that an applied reply leaves alone, next to what it ends the exchange with. -/
theorem Link.applyRep_frame (link : Link) (cfg : LinkCfg) (rep : FcRep) :
    ((link.applyRep cfg rep).reqs = link.reqs ∧ (link.applyRep cfg rep).retry = link.retry ∧
      (link.applyRep cfg rep).reps = link.reps ∧ (link.applyRep cfg rep).data = link.data) ∧
    (link.applyRep cfg rep).allocatedSuccess = link.allocatedSuccess ∧
    (link.applyRep cfg rep).remoteExpectSeq = link.remoteExpectSeq ∧
    (link.applyRep cfg rep).localReqSeq = umqUbFcSeqInc link.localReqSeq ∧
    (link.applyRep cfg rep).isCreditApplying = false := by
  unfold Link.applyRep
  cases rep.kind <;> simp

/-- A reply that is applied closes the exchange and moves its credit into the window. -/
theorem Steady.applyRep (steady : Steady view) (free : view.hold = none) {rep : FcRep}
    (found : view.link.reps[index]? = some rep) {cfg : LinkCfg}
    (fits : view.link.allocatedSuccess ≤ view.consumed + uint16Max) :
    Steady { view with
      link := { view.link with reps := view.link.reps.eraseIdx index }.applyRep cfg rep } := by
  have tokens := tokens_reps found
  obtain ⟨_, nothing⟩ := steady.exchange.alone tokens
  obtain ⟨sameSeq, expects⟩ := steady.exchange.current tokens
  have balance := steady.balance
  simp only [View.outstanding_eq, sum_map_eraseIdx found] at balance
  have room : remoteRxWindowInc view.link.remoteRxWindow rep.carried = view.link.remoteRxWindow + rep.carried :=
    remoteRxWindowInc_eq (by omega)
  have window := Link.applyRep_window { view.link with reps := view.link.reps.eraseIdx index } cfg rep
  obtain ⟨⟨reqs, retry, reps, data⟩, allocated, remoteSeq, localSeq, released⟩ :=
    Link.applyRep_frame { view.link with reps := view.link.reps.eraseIdx index } cfg rep
  generalize { view.link with reps := view.link.reps.eraseIdx index }.applyRep cfg rep = answered at *
  have tokens' : View.tokens { view with link := answered } = 0 := by
    simp only [View.tokens, reqs, retry, reps, free] at nothing ⊢
    exact nothing
  refine ⟨⟨?_, ?_, fun _ => ?_⟩, ?_, ?_, ?_, steady.pending, steady.hold⟩
  · simp [tokens']
  · simp [tokens']
  · rw [remoteSeq, localSeq, expects, Token.expects, ← sameSeq]
  · simp only [View.outstanding_eq, window, reqs, retry, reps, data, allocated] at balance ⊢
    omega
  · rw [reqs]
    exact steady.reqs
  · rw [reps]
    exact fun other mem => steady.reps other (mem_of_mem_eraseIdx mem)

end Sum

/-! ## The network -/

variable {L P D : Type} [DecidableEq L] {topo : Topology L P D}
  {net net' : Net L P D} {hand hand' : Hand L}

/-- The messages a link has under way are counted on both sides. -/
def DataMsg.Counted (umqId : Nat) (msg : DataMsg) : Prop :=
  msg.bufOpcode.consumeRqe = msg.opcode.consumesRqe ∧ (msg.opcode.consumesRqe = true → msg.umqId = umqId)

variable (topo) in
structure Net.Ledgered (net : Net L P D) : Prop where
  homed : net.Homed topo
  steady : ∀ link, Steady (net.view topo none link)
  data : ∀ link, ∀ msg ∈ (net.link link).data, msg.Counted (topo.umqId link)

variable (topo) in
/-- No queue is allocated more than the sixteen-bit window can hold. -/
def Net.Fits (net : Net L P D) : Prop :=
  ∀ link, (net.link link).allocatedSuccess ≤ net.consumed topo link + uint16Max

theorem Evolves.sound (evolves : Evolves topo False hand net hand' net') (homed : net.Homed topo)
    (sound : ∀ link, Sound (net.view topo hand link)) (link : L) :
    Sound (net'.view topo hand' link) ∧ (net'.link link).data = (net.link link).data := by
  have data : (fun view : View => view.link.data = (net.link link).data) (net'.view topo hand' link) :=
    evolves.keeps (fun move same => move.data.trans same) homed rfl
  exact ⟨evolves.keeps LinkMove.sound homed (sound link), data⟩

theorem Net.Ledgered.sound (ledgered : net.Ledgered topo) (fits : net.Fits topo) (link : L) :
    Sound (net.view topo none link) :=
  ⟨ledgered.steady link, fun _ => fits link⟩

theorem Evolves.ledgered (evolves : Evolves topo False none net none net') (ledgered : net.Ledgered topo)
    (fits : net.Fits topo) : net'.Ledgered topo := by
  have sound := evolves.sound ledgered.homed (ledgered.sound fits)
  refine ⟨evolves.homed ledgered.homed, fun link => (sound link).1.toSteady, fun link => ?_⟩
  rw [(sound link).2]
  exact ledgered.data link

/-- A change to one link, with its effect on the others ruled out. -/
theorem Net.Ledgered.modify (ledgered : net.Ledgered topo) {link : L} {f : Link → Link}
    (steady : Steady { net.view topo none link with link := f (net.link link) })
    (data : ∀ msg ∈ (f (net.link link)).data, msg.Counted (topo.umqId link)) : (net.modify link f).Ledgered topo := by
  refine ⟨ledgered.homed, ?_, ?_⟩
  · exact Net.forall_modify (motive := fun other l => Steady { net.view topo none other with link := l })
      link f steady ledgered.steady
  · exact Net.forall_modify (motive := fun other l => ∀ msg ∈ l.data, msg.Counted (topo.umqId other))
      link f data ledgered.data

theorem Net.Ledgered.recvRep (ledgered : net.Ledgered topo) (fits : net.Fits topo) {link : L} {index : Nat} :
    (umqUbPollFcRxRep topo net link index).Ledgered topo := by
  unfold umqUbPollFcRxRep
  cases found : (net.link link).reps[index]? with
  | none => exact ledgered
  | some rep =>
    have steady := ledgered.steady link
    have current := steady.exchange.current (tokens_reps found)
    have expected : rep.seq = (net.link link).localReqSeq := current.1
    simp only [ne_eq]
    split
    · exact ledgered
    · rw [Net.modify_modify]
      refine ledgered.modify (steady.applyRep rfl found (fits link)) ?_
      rw [(Link.applyRep_frame _ _ _).1.2.2.2]
      exact ledgered.data link

/-! ## Data -/

/-- The window and the data under way change together; the exchange does not notice. -/
theorem Steady.data {view : View} (steady : Steady view) (window : Nat) {data : List DataMsg} {consumed : Nat}
    (sum : window + data.countP (·.opcode.consumesRqe) + consumed =
      view.link.remoteRxWindow + view.link.dataInFlight + view.consumed) :
    Steady { view with link := { view.link with remoteRxWindow := window, data := data }, consumed := consumed } := by
  refine ⟨⟨steady.exchange.single, steady.exchange.inSequence, steady.exchange.released⟩, ?_, steady.reqs, steady.reps,
    steady.pending, steady.hold⟩
  have balance := steady.balance
  simp only [View.outstanding_eq, Link.dataInFlight] at balance sum ⊢
  omega

/-- A call on a link that keeps track of its window, and whose receive completions the
peer will find under the right queue. -/
structure SafePost (topo : Topology L P D) (link : L) (call : TxCall) : Prop where
  accounted : call.Entered → call.Accounted
  addressed : ∀ head ∈ call.heads, head.opcode ≠ .nop ∧ (head.opcode = .writeImm → topo.umqId link = 0)

omit [DecidableEq L] in
theorem postedMessages_counted {link : L} {call : TxCall} (peer : call.queue.remoteUmqId = topo.umqId link)
    (safe : SafePost topo link call) : ∀ msg ∈ postedMessages call, msg.Counted (topo.umqId link) := by
  intro msg mem
  obtain ⟨wr, posted, rfl⟩ := mem_map.mp mem
  obtain ⟨head, isHead, wrOf⟩ := umqUbPostTx_posted posted
  -- the buffer the completion names is the head itself
  have inChain : head ∈ call.chain := (workRequestHeads_sublist 0 call.chain).subset isHead
  have opcode : completedOpcode call wr.userCtx = head.opcode := by
    have found : call.chain.find? (·.addr = head.addr) = some head := find?_key call.distinct inChain
    simp only [completedOpcode, wrOf.userCtx, found, Option.elim_some]
  obtain ⟨notNop, writeImm⟩ := safe.addressed head isHead
  have small := topo.umqId_lt link
  refine ⟨?_, fun consumes => ?_⟩
  · simp only [wrOf.consumesRqe]
    cases kind : head.opcode <;> simp_all [UmqOpcode.consumeRqe, transformOpCode, UrmaOpcode.consumesRqe]
  · simp only [wrOf.consumesRqe] at consumes
    simp only [wrOf.umqId]
    cases kind : head.opcode <;>
      simp_all [immUmqId, transformOpCode, UrmaOpcode.consumesRqe]
    all_goals omega

theorem Net.Ledgered.postTx (ledgered : net.Ledgered topo) {link : L} {call : TxCall}
    (safe : net.Posts topo link call → SafePost topo link call) : (net.postTx topo link call).Ledgered topo := by
  refine guarded ledgered fun posts => ?_
  obtain ⟨window, peer, check, request⟩ := id posts
  have safe := safe posts
  have exact : PostTxExact call (umqUbPostTx call) := by
    by_cases entered : call.Entered
    · exact entered.exact_iff.mpr (safe.accounted entered)
    · exact umqUbPostTx_refused entered
  obtain ⟨after, result, sum⟩ := exact.window _ window
  rw [umqUbPostTx_gained check request] at sum
  refine ledgered.modify ?_ ?_
  · have counted : (postedMessages call).countP (·.opcode.consumesRqe) = consumedRqe (umqUbPostTx call).posted := by
      simp only [postedMessages, countP_map]
      rfl
    simp only [result]
    refine (ledgered.steady link).data after ?_
    simp only [countP_append, Link.dataInFlight, Net.view]
    omega
  · exact forall_mem_append.mpr ⟨ledgered.data link, postedMessages_counted peer safe⟩

theorem Net.Ledgered.dataFailed (ledgered : net.Ledgered topo) (fits : net.Fits topo) {link : L} {index : Nat}
    {flushed : Bool} (polled : ∀ msg, (net.link link).data[index]? = some msg → msg.opcode.consumesRqe = true →
      flushed = false) : (net.dataFailed link index flushed).Ledgered topo := by
  unfold Net.dataFailed
  cases found : (net.link link).data[index]? with
  | none => exact ledgered
  | some msg =>
    have counted := ledgered.data link msg (mem_of_getElem? found)
    have flight := countP_eraseIdx found (·.opcode.consumesRqe)
    have steady := ledgered.steady link
    have balance := steady.balance
    have fits := fits link
    refine ledgered.modify ?_ fun other mem => ledgered.data link other (mem_of_mem_eraseIdx mem)
    refine steady.data _ ?_
    simp only [View.outstanding_eq, Link.dataInFlight, Net.view, counted.1] at balance ⊢
    cases consumes : msg.opcode.consumesRqe with
    | false =>
      simp only [consumes, Bool.false_eq_true, if_false] at flight
      simp only [Bool.and_false, Bool.false_eq_true, if_false]
      omega
    | true =>
      simp only [consumes, if_true] at flight
      have room : remoteRxWindowInc (net.link link).remoteRxWindow 1 = (net.link link).remoteRxWindow + 1 :=
        remoteRxWindowInc_eq (by omega)
      simp only [polled msg found consumes, Bool.not_false, Bool.and_self, if_true]
      omega

variable [DecidableEq P]

theorem Net.Ledgered.recvReq (ledgered : net.Ledgered topo) (fits : net.Fits topo) {link : L} {index : Nat}
    {env : SendEnv L} {pending : Nat → SendEnv L}
    (kept : ∀ req, (net.link link).reqs[index]? = some req → req.kind = .returnReq →
      env.Keeps false (net.retryFree (topo.poolOf link))) :
    (umqUbPollFcRxReq topo net link index env pending).Ledgered topo := by
  have sound := ledgered.sound fits
  obtain same | ⟨req, found, _, ⟨unexpected, _⟩ | ⟨_, result⟩⟩ := umqUbPollFcRxReq_cases pending net link index env
  · rw [same]
    exact ledgered
  · -- no request is ever out of sequence
    have asked := (sound link).exchange.current (tokens_failReq found)
    exact absurd asked.2.symm unexpected
  · have evolves : Evolves topo False (some (link, .serving req.ticket req.carried)) (net.accepted link index) none _ :=
      umqUbPollFcRxReq_accepted link pending env fun kind lost => lost (kept req found kind)
    rw [← result] at evolves
    have homed : (net.accepted link index).Homed topo := ledgered.homed
    have finished := evolves.sound homed (Net.view_accepted ((sound link).accept rfl found) sound)
    refine ⟨evolves.homed homed, fun other => (finished other).1.toSteady, fun other => ?_⟩
    rw [(finished other).2, Net.accepted, Net.modify_modify]
    exact Net.forall_modify (motive := fun other l => ∀ msg ∈ l.data, msg.Counted (topo.umqId other))
      link _ (ledgered.data link) ledgered.data other

variable [DecidableEq D]

omit [DecidableEq L] in
theorem umqUbPollRxAccount_consumed {net : Net L P D} {pool : P} {dev : D} {umqId : Nat} {link : L} :
    (umqUbPollRxAccount net pool dev umqId).consumed topo link =
      if topo.dev link = dev ∧ topo.umqId link = umqId then net.consumed topo link + 1
      else net.consumed topo link := by
  have small : topo.umqId link < umqIdAllocSize := topo.umqId_lt link
  simp only [umqUbPollRxAccount, Net.consumed]
  by_cases sameDev : topo.dev link = dev
  · subst sameDev
    by_cases sameId : topo.umqId link = umqId
    · subst sameId
      simp [small]
    · by_cases inRange : umqId < umqIdAllocSize <;> simp [inRange, sameId]
  · by_cases inRange : umqId < umqIdAllocSize <;> simp [inRange, sameDev]

/-- A receive completion that no queue of the device is charged for. -/
theorem Net.Ledgered.recvFailed (ledgered : net.Ledgered topo) {pool : P} {dev : D} {umqId : Nat}
    (nobody : ∀ link, ¬ (topo.dev link = dev ∧ topo.umqId link = umqId)) :
    (umqUbPollRxAccount net pool dev umqId).Ledgered topo := by
  refine ⟨umqUbPollRxAccount_homed ledgered.homed, fun link => ?_, ledgered.data⟩
  rw [umqUbPollRxAccount_view, umqUbPollRxAccount_consumed, if_neg (nobody link)]
  exact ledgered.steady link

theorem Net.Ledgered.recvData (ledgered : net.Ledgered topo) {link : L} {index : Nat} :
    (net.recvData topo link index).Ledgered topo := by
  unfold Net.recvData
  cases found : (net.link link).data[index]? with
  | none => exact ledgered
  | some msg =>
    have counted := ledgered.data link msg (mem_of_getElem? found)
    have flight := countP_eraseIdx found (·.opcode.consumesRqe)
    have remaining : ∀ other ∈ (net.link link).data.eraseIdx index, other.Counted (topo.umqId link) :=
      fun other mem => ledgered.data link other (mem_of_mem_eraseIdx mem)
    have steady := ledgered.steady link
    cases consumes : msg.opcode.consumesRqe with
    | false =>
      simp only [consumes, Bool.false_eq_true, if_false] at flight ⊢
      refine ledgered.modify ?_ remaining
      refine steady.data _ ?_
      simp only [Link.dataInFlight, Net.view]
      omega
    | true =>
      simp only [consumes, if_true] at flight ⊢
      rw [counted.2 consumes]
      -- the entry leaves the data under way and is charged to this link, and to no other one
      have homed : (net.modify link fun l => { l with data := l.data.eraseIdx index }).Homed topo := ledgered.homed
      refine ⟨umqUbPollRxAccount_homed homed, fun other => ?_, ?_⟩
      · rw [umqUbPollRxAccount_view, umqUbPollRxAccount_consumed]
        by_cases this : other = link
        · subst this
          rw [if_pos ⟨rfl, rfl⟩, Net.view_modify_self]
          refine steady.data _ ?_
          simp only [Link.dataInFlight, Net.view, Net.modify_consumed]
          omega
        · rw [if_neg fun same => this (topo.umqId_inj other link same.1 same.2), Net.view_modify_other this]
          exact ledgered.steady other
      · exact Net.forall_modify (motive := fun other l => ∀ msg ∈ l.data, msg.Counted (topo.umqId other))
          link (fun l => { l with data := l.data.eraseIdx index }) remaining ledgered.data

/-! ## Whole runs -/

/-- What the library does not guard against itself, in the state before a step: a post
that loses track of the window or of the peer's queue, an acknowledgement that fails for
good while the return is only on the books of the receiver, a failed receive completion
that is charged to a queue in use, and a failed send that is only flushed. -/
def Step.Harmless (topo : Topology L P D) (net : Net L P D) : Step L P D → Prop
  | .postTx link call => net.Posts topo link call → SafePost topo link call
  | .recvReq link index env _ => ∀ req, (net.link link).reqs[index]? = some req → req.kind = .returnReq →
      env.Keeps false (net.retryFree (topo.poolOf link))
  | .retry link index timedOut env _ => ∀ req, (net.link link).retry[index]? = some req → req.kind = .returnReq →
      env.Keeps timedOut (net.retryFree (topo.poolOf link) + 1)
  | .recvFailed _ dev umqId => ∀ link, ¬ (topo.dev link = dev ∧ topo.umqId link = umqId)
  | .dataFailed link index flushed => ∀ msg, (net.link link).data[index]? = some msg →
      msg.opcode.consumesRqe = true → flushed = false
  | .creditReq .. | .creditReturn .. | .recvRep .. | .pollFcTx .. | .recvData .. | .recharge .. => True

def Step.Safe (topo : Topology L P D) (net : Net L P D) (step : Step L P D) : Prop :=
  net.Fits topo ∧ step.Harmless topo net

theorem Net.Ledgered.step (ledgered : net.Ledgered topo) {step : Step L P D} (safe : step.Safe topo net) :
    (net.step topo step).Ledgered topo := by
  obtain ⟨fits, harmless⟩ := safe
  cases step with
  | creditReq link env => exact (umqUbSharedCreditReqSend_evolves link).ledgered ledgered fits
  | creditReturn link due env => exact (umqUbSharedCreditReturnReqSend_evolves link).ledgered ledgered fits
  | recvReq link index env pending => exact ledgered.recvReq fits harmless
  | recvRep link index => exact ledgered.recvRep fits
  | retry link index timedOut env pending =>
    refine (umqUbFcMsgRetryDequeue_evolves link pending ?_).ledgered ledgered fits
    exact fun req found kind lost => lost (harmless req found kind)
  | pollFcTx poll => exact (umqUbPollFcTx_ends _ net poll).reaped.evolves.ledgered ledgered fits
  | postTx link call => exact ledgered.postTx harmless
  | recvData link index => exact ledgered.recvData
  | recvFailed pool dev umqId => exact ledgered.recvFailed harmless
  | dataFailed link index flushed => exact ledgered.dataFailed fits harmless
  | recharge pool count pending => exact (umqUbSharedCreditRecharge_evolves pending).ledgered ledgered fits

/-- A link as binding leaves it: nothing is under way, and what the receiver has
allocated is in the sender's window. -/
structure Link.Bound (link : Link) (consumed : Nat) : Prop where
  initial : link.remoteRxWindow + consumed = link.allocatedSuccess
  released : link.isCreditApplying = false
  sequence : link.remoteExpectSeq = link.localReqSeq
  quiet : link.reqs = [] ∧ link.reps = [] ∧ link.retry = [] ∧ link.data = []

variable (topo) in
structure Net.Bound (net : Net L P D) : Prop where
  links : ∀ link, (net.link link).Bound (net.consumed topo link)
  pools : ∀ pool, (net.pool pool).pendingList = []

omit [DecidableEq P] [DecidableEq D] in
theorem Net.Bound.ledgered (bound : net.Bound topo) : net.Ledgered topo := by
  refine ⟨fun pool req waiting => ?_, fun link => ?_, fun link => ?_⟩
  · simp [bound.pools pool] at waiting
  · obtain ⟨initial, released, sequence, reqs, reps, retry, data⟩ := bound.links link
    have tokens : (net.view topo none link).tokens = 0 := by
      simp [View.tokens, Net.view, reqs, reps, retry, bound.pools, Hold.tokens]
    refine ⟨⟨by simp [tokens], by simp [tokens], fun _ => sequence⟩, ?_, ?_, ?_, ?_, trivial⟩
    · simp only [View.outstanding_eq, Net.view, reqs, reps, retry, data, Hold.credit, Hand.on_none, map_nil, sum_nil,
        countP_nil]
      omega
    · simp [Net.view, reqs]
    · simp [Net.view, reps]
    · simp [Net.view, bound.pools]
  · simp [(bound.links link).quiet.2.2.2]

variable (topo) in
/-- The books of one link: the messages under way never exceed the receive buffers
allocated to it and not seen consumed, and everything allocated is accounted for. -/
structure Net.Balanced (net : Net L P D) (link : L) : Prop where
  covered : net.consumed topo link ≤ (net.link link).allocatedSuccess
  inFlight : (net.link link).dataInFlight ≤ (net.link link).allocatedSuccess - net.consumed topo link
  balance : (net.link link).remoteRxWindow + (net.link link).responseCredit + (net.link link).dataInFlight +
    (net.link link).returningCredit = (net.link link).allocatedSuccess - net.consumed topo link

omit [DecidableEq P] [DecidableEq D] in
theorem Net.Ledgered.balanced (ledgered : net.Ledgered topo) {link : L} : net.Balanced topo link := by
  have balance := (ledgered.steady link).balance
  simp only [View.outstanding, Net.view, Hand.on_none, Hold.credit] at balance
  constructor <;> omega

/-- In every run of safe steps, whatever the number of links and pools, the books of
every link balance in every state reached. -/
theorem flowControl_balanced (topo : Topology L P D) {start finish : Net L P D} (bound : start.Bound topo)
    (run : Run (Net.step topo) (fun net step => step.Safe topo net) start finish) (link : L) :
    finish.Balanced topo link := by
  have ledgered : finish.Ledgered topo :=
    run.invariant bound.ledgered fun _ _ ledgered safe => ledgered.step safe
  exact ledgered.balanced

/-! ### Two queues -/

theorem pairStart_bound : pairStart.Bound pairTopology :=
  ⟨fun _ => ⟨rfl, rfl, rfl, rfl, rfl, rfl, rfl⟩, fun _ => rfl⟩

/-- One buffer posted with the given opcode on the sending end of the pair. -/
def singlePost (opcode : UmqOpcode) (window : Fin 65536) : TxCall where
  queue :=
    { umqId := 3, remoteUmqId := 5, bound := true, boundAt := fun _ => true, logicQueue := false, maxTxSge := 1
      remoteRxBufSize := 4096, txBufSize := 4096, remoteMemAccess := true, dataToHead := fun _ => none
      tsegList := fun mempoolId => mempoolId = 0, importedTseg := fun _ => true }
  env :=
    { exiting := false, creditCheck := ⟨.ok (), 0⟩, creditReq := ⟨.ok (), 0⟩, jettyNode := .ok ⟨0, 64, false⟩
      urmaPost := .success }
  window := some window.val
  first := ⟨1, 100, 100, 1000, 0, false, opcode, IoImm.zero, ⟨100, 0⟩⟩
  rest := []
  windowLe := fun count same => by
    cases same
    exact Nat.le_of_lt_succ window.isLt
  distinct := by simp

theorem singlePost_send_safe : SafePost pairTopology () (singlePost .send 8) := by
  have exact : PostTxExact (singlePost .send 8) (umqUbPostTx (singlePost .send 8)) := by
    refine ⟨fun before enabled => ?_, fun failed => absurd (by decide) failed⟩
    cases enabled
    exact ⟨7, by decide, by decide⟩
  refine ⟨fun entered => entered.exact_iff.mp exact, ?_⟩
  decide

/-- Ask for credit, get it, send, return some of it and have the return acknowledged. -/
def pairExchange : List (Step Unit Unit Unit) :=
  [.creditReq () smooth, .recvReq () 0 smooth (fun _ => smooth), .recvRep () 0, .postTx () (singlePost .send 8),
    .recvData () 0, .creditReturn () true smooth, .recvReq () 0 smooth (fun _ => smooth), .recvRep () 0]

theorem pairExchange_balanced :
    pairStart.Bound pairTopology ∧
      (pairExchange.foldl (Net.step pairTopology) pairStart).Balanced pairTopology () := by
  refine ⟨pairStart_bound, flowControl_balanced pairTopology pairStart_bound (Run.ofList ?_) ()⟩
  have acknowledged : ∀ timedOut free, (smooth : SendEnv Unit).Keeps timedOut free := fun _ _ => .inl rfl
  refine ⟨⟨?_, trivial⟩, ⟨?_, fun _ _ _ => acknowledged _ _⟩, ⟨?_, trivial⟩, ⟨?_, fun _ => singlePost_send_safe⟩,
    ⟨?_, trivial⟩, ⟨?_, trivial⟩, ⟨?_, fun _ _ _ => acknowledged _ _⟩, ⟨?_, trivial⟩, trivial⟩
  all_goals
    rintro ⟨⟩
    decide

/-- The immediate of a write names queue 0, so queue 5 is never seen to consume the
buffer: 3 credits are left of an allocation of 4 although nothing is under way. -/
theorem flowControl_writeImm_unbalanced :
    pairStart.Bound pairTopology ∧
      ¬ ((pairStart.step pairTopology (.postTx () (singlePost .writeImm 4))).step pairTopology
        (.recvData () 0)).Balanced pairTopology () := by
  refine ⟨pairStart_bound, fun balanced => ?_⟩
  have balance := balanced.balance
  revert balance
  decide

end UbsComm.FlowControl
