import UbsComm.FlowControl.Pending
import UbsComm.Library.BitFields

/-! # Credit messages in an immediate

A credit message is a 64-bit immediate of bit fields, and nothing checks a value against
the width of its field when the message is built.  The values fit all the same, but one:
requests are cut to ten bits where they are built, replies answer requests that came out of a
ten-bit field, and sequence numbers and ratios never leave their ranges.  The id in a message
is the `remote_umq_id` of the queue that builds it, a word of the peer's bind info. -/

namespace UbsComm.FlowControl

open Ub Library List

/-- `umq_ub_fc_credit_type_t`. -/
inductive FcCreditType where
  | creditInit | creditReq | creditRep | creditReturnReq | creditReturnAck

def FcCreditType.code : FcCreditType → Nat
  | .creditInit => 0
  | .creditReq => 1
  | .creditRep => 2
  | .creditReturnReq => 3
  | .creditReturnAck => 4

def immTypeControlMsg : Nat := 2

/-- The fields of `umq_ub_imm_t.flow_control` that the four messages set. -/
structure FcImm where
  umqId : Nat
  extendType : Nat
  window : Nat
  ratio : Nat
  seq : Nat

/-- Lowest bits first; the reserved field is zero. -/
def FcImm.fields (imm : FcImm) : List (Nat × Nat) :=
  [(2, immTypeControlMsg), (18, imm.umqId), (20, 0), (4, imm.extendType), (10, imm.window), (2, imm.ratio),
    (8, imm.seq)]

def FcImm.value (imm : FcImm) : Nat := packFields imm.fields

/-- What the peer reads out of the immediate of a completion. -/
def FcImm.ofValue (value : Nat) : FcImm :=
  match unpackFields [2, 18, 20, 4, 10, 2, 8] value with
  | [_, umqId, _, extendType, window, ratio, seq] => ⟨umqId, extendType, window, ratio, seq⟩
  | _ => ⟨0, 0, 0, 0, 0⟩

structure FcImm.Fits (imm : FcImm) : Prop where
  umqId : imm.umqId < 2 ^ 18
  extendType : imm.extendType < 2 ^ 4
  window : imm.window ≤ umqUbFcMaxImmData
  ratio : imm.ratio ≤ 3
  seq : imm.seq ≤ 255

theorem FcImm.value_lt {imm : FcImm} : imm.value < 2 ^ 64 := packFields_lt imm.fields

theorem FcImm.fits_iff_fields {imm : FcImm} : imm.Fits ↔ ∀ field ∈ imm.fields, field.2 < 2 ^ field.1 := by
  simp only [FcImm.fields, forall_mem_cons, not_mem_nil, false_implies, implies_true, and_true]
  constructor
  · intro fits
    exact ⟨by decide, fits.umqId, by decide, fits.extendType, Nat.lt_succ_of_le fits.window,
      Nat.lt_succ_of_le fits.ratio, Nat.lt_succ_of_le fits.seq⟩
  · rintro ⟨_, umqId, _, extendType, window, ratio, seq⟩
    exact ⟨umqId, extendType, Nat.le_of_lt_succ window, Nat.le_of_lt_succ ratio, Nat.le_of_lt_succ seq⟩

theorem FcImm.ofValue_value {imm : FcImm} (fits : imm.Fits) : FcImm.ofValue imm.value = imm := by
  have unpacked : unpackFields [2, 18, 20, 4, 10, 2, 8] imm.value = imm.fields.map Prod.snd :=
    (unpackFields_packFields_iff imm.fields).mpr (imm.fits_iff_fields.mp fits)
  rw [FcImm.ofValue, unpacked]
  rfl

/-! ## The messages -/

def ReqKind.reqType : ReqKind → FcCreditType
  | .creditReq => .creditReq
  | .returnReq => .creditReturnReq

def ReqKind.repType : ReqKind → FcCreditType
  | .creditReq => .creditRep
  | .returnReq => .creditReturnAck

/-- The immediate a request is built with; `umqId` is the `remote_umq_id` of the queue that
sends it. -/
def FcReq.imm (req : FcReq) (umqId : Nat) : FcImm := ⟨umqId, req.kind.reqType.code, req.notify, 0, req.seq⟩

def FcRep.imm (rep : FcRep) (umqId : Nat) : FcImm := ⟨umqId, rep.kind.repType.code, rep.notify, rep.ratio, rep.seq⟩

theorem FcCreditType.code_lt {type : FcCreditType} : type.code < 2 ^ 4 := by
  cases type <;> decide

/-- The message fits, and `window` is what its ten-bit field holds. -/
structure FcReq.Fielded (req : FcReq) : Prop where
  window : req.window.val = req.notify
  seq : req.seq ≤ 255

structure FcRep.Fielded (rep : FcRep) : Prop where
  window : rep.window.val = rep.notify
  ratio : rep.ratio ≤ 3
  seq : rep.seq ≤ 255

variable {req : FcReq} {umqId : Nat}

theorem FcReq.Fielded.fits (fielded : req.Fielded) (small : umqId < 2 ^ 18) : (req.imm umqId).Fits where
  umqId := small
  extendType := FcCreditType.code_lt
  window := Nat.le_of_lt_succ (lt_of_eq_of_lt fielded.window.symm req.window.isLt)
  ratio := Nat.zero_le _
  seq := fielded.seq

theorem FcRep.Fielded.fits {rep : FcRep} (fielded : rep.Fielded) (small : umqId < 2 ^ 18) : (rep.imm umqId).Fits where
  umqId := small
  extendType := FcCreditType.code_lt
  window := Nat.le_of_lt_succ (lt_of_eq_of_lt fielded.window.symm rep.window.isLt)
  ratio := fielded.ratio
  seq := fielded.seq

/-! ## What a link keeps -/

structure Ticket.Fielded (ticket : Ticket) : Prop where
  requested : ticket.requested ≤ umqUbFcMaxImmData
  seq : ticket.seq ≤ 255

theorem FcReq.Fielded.ticket (fielded : req.Fielded) : req.ticket.Fielded :=
  ⟨Nat.le_of_lt_succ req.window.isLt, fielded.seq⟩

theorem FcReq.carried_le : req.carried ≤ umqUbFcMaxImmData := by
  rw [FcReq.carried]
  split
  · exact Nat.zero_le _
  · exact Nat.le_of_lt_succ req.window.isLt

/-- What a call holds of a link can be put into a message. -/
def Hold.Fielded : Option Hold → Prop
  | some (.returning credit) => credit ≤ umqUbFcMaxImmData
  | some (.serving ticket credit) => ticket.Fielded ∧ credit ≤ umqUbFcMaxImmData
  | _ => True

structure Fielded (view : View) : Prop where
  seq : view.link.localReqSeq ≤ 255
  reqs : ∀ req ∈ view.link.reqs, req.Fielded
  reps : ∀ rep ∈ view.link.reps, rep.Fielded
  retry : ∀ req ∈ view.link.retry, req.ticket.Fielded
  pending : ∀ ticket ∈ view.pending, ticket.Fielded
  hold : Hold.Fielded view.hold

theorem umqUbFcSeqInc_le {seq : Nat} : umqUbFcSeqInc seq ≤ 255 := by
  rw [umqUbFcSeqInc]
  split <;> omega

variable {window : Nat}

theorem ofNat_val_of_small (small : window ≤ umqUbFcMaxImmData) : (Fin.ofNat 1024 window).val = window :=
  Nat.mod_eq_of_lt (Nat.lt_succ_of_le small)

section Moves

variable {lossy : Prop} {view view' : View} {ticket : Ticket} {credit : Nat} {kind : ReqKind}
  {fate : Fate}

theorem Fielded.serving (fielded : Fielded view)
    (held : view.hold = some (.serving ticket credit)) : ticket.Fielded ∧ credit ≤ umqUbFcMaxImmData := by
  have serving := fielded.hold
  rwa [held] at serving

theorem Fielded.postReq (fielded : Fielded view) (small : window ≤ umqUbFcMaxImmData) :
    Fielded { view with link := view.link.postReq kind window fate, hold := none } := by
  refine { fielded with reqs := ?_, hold := trivial }
  exact forall_mem_append.mpr ⟨fielded.reqs, forall_mem_singleton.mpr ⟨ofNat_val_of_small small, fielded.seq⟩⟩

/-- A reply copies the sequence number of the request it answers. -/
theorem Fielded.postRep (fielded : Fielded view)
    (held : view.hold = some (.serving ticket credit)) {ratio : Nat}
    (reported : ratio < creditRatio.length) :
    ∀ rep ∈ (view.link.postRep kind credit ratio ticket.seq ticket.stamp fate).reps, rep.Fielded := by
  have serving := fielded.serving held
  refine forall_mem_append.mpr ⟨fielded.reps, forall_mem_singleton.mpr ?_⟩
  exact ⟨ofNat_val_of_small serving.2, Nat.le_of_lt_succ reported, serving.1.seq⟩

theorem LinkMove.fielded (move : LinkMove lossy view view') (fielded : Fielded view) : Fielded view' := by
  cases move with
  | failReq found failed =>
    exact { fielded with reqs := fun req mem => fielded.reqs req (mem_of_mem_eraseIdx mem) }
  | failRep found failed =>
    exact { fielded with reps := fun rep mem => fielded.reps rep (mem_of_mem_eraseIdx mem) }
  | acquire | release | refund | drop => exact { fielded with hold := trivial }
  | tune count held => exact { fielded with }
  | debit required held small =>
    refine { fielded with hold := ?_ }
    exact Nat.le_trans (Nat.min_le_right _ _) small
  | postCreditReq fate held => exact fielded.postReq (Nat.min_le_right _ _)
  | postReturnReq fate held =>
    have returning := fielded.hold
    rw [held] at returning
    exact fielded.postReq returning
  | wait held kind =>
    refine { fielded with pending := ?_, hold := trivial }
    exact forall_mem_append.mpr ⟨fielded.pending, forall_mem_singleton.mpr (fielded.serving held).1⟩
  | next free first =>
    have waiting := first ▸ fielded.pending
    refine { fielded with pending := fun other mem => waiting other (mem_cons_of_mem _ mem), hold := ?_ }
    exact ⟨waiting _ mem_cons_self, Nat.zero_le _⟩
  | park held settled =>
    refine { fielded with retry := ?_, hold := trivial }
    exact forall_mem_append.mpr ⟨fielded.retry, forall_mem_singleton.mpr (fielded.serving held).1⟩
  | resume free found =>
    have parked := fielded.retry _ (mem_of_getElem? found)
    refine { fielded with
      retry := fun other mem => fielded.retry other (mem_of_mem_eraseIdx mem), hold := ?_ }
    exact ⟨parked, FcReq.carried_le⟩
  | grant credit held kind bounded =>
    have serving := fielded.serving held
    exact { fielded with hold := ⟨serving.1, Nat.le_trans bounded serving.1.requested⟩ }
  | revoke held kind => exact { fielded with hold := ⟨(fielded.serving held).1, Nat.zero_le _⟩ }
  | clamp held kind =>
    have serving := fielded.serving held
    exact { fielded with hold := ⟨serving.1, Nat.le_trans (Nat.min_le_left _ _) serving.2⟩ }
  | reply ratio fate held kind reported =>
    exact { fielded with reps := fielded.postRep held reported, hold := trivial }
  | acknowledge ratio fate held kind reported =>
    exact { fielded with reps := fielded.postRep held reported, hold := trivial }

theorem fielded_poolInvariant : PoolInvariant Fielded where
  move move fielded := move.fielded fielded
  data _ _ _ fielded := { fielded with }
  forgetReq _ fielded :=
    { fielded with reqs := fun req mem => fielded.reqs req (mem_of_mem_eraseIdx mem) }
  forgetRep _ fielded :=
    { fielded with reps := fun rep mem => fielded.reps rep (mem_of_mem_eraseIdx mem) }
  accept free found _ _ _ fielded := by
    have arrived := (fielded.reqs _ (mem_of_getElem? found)).ticket
    exact { fielded with
      reqs := fun req mem => fielded.reqs req (mem_of_mem_eraseIdx mem)
      hold := ⟨arrived, FcReq.carried_le⟩ }
  applyRep {view index rep} cfg _ _ _ _ fielded := by
    have others : ∀ other ∈ view.link.reps.eraseIdx index, other.Fielded :=
      fun other mem => fielded.reps other (mem_of_mem_eraseIdx mem)
    cases kind : rep.kind with
    | creditReq | returnReq =>
      simp only [Link.applyRep, kind]
      exact { fielded with seq := umqUbFcSeqInc_le, reps := others }
  allocated _ fielded := { fielded with }
  fewer mem fielded :=
    { fielded with pending := fun ticket waiting => fielded.pending ticket (mem.subset waiting) }

end Moves

/-! ## Runs -/

variable {L P D : Type} [DecidableEq L] {topo : Topology L P D}

/-- Queues between initialisation and their first message. -/
structure Net.Silent (net : Net L P D) : Prop where
  seq : ∀ link, (net.link link).localReqSeq = 1
  links : ∀ link, (net.link link).reqs = [] ∧ (net.link link).reps = [] ∧ (net.link link).retry = []
  pools : ∀ pool, (net.pool pool).pendingList = []

theorem Net.Silent.fielded {net : Net L P D} (silent : net.Silent) : net.All topo Fielded := by
  refine ⟨fun pool req waiting => ?_, fun link => ?_⟩
  · simp [silent.pools pool] at waiting
  · obtain ⟨reqs, reps, retry⟩ := silent.links link
    refine ⟨?_, ?_, ?_, ?_, ?_, trivial⟩
    · simp [Net.view, silent.seq link]
    · simp [Net.view, reqs]
    · simp [Net.view, reps]
    · simp [Net.view, retry]
    · simp [Net.view, silent.pools]

/-- The values a message was built from stay within their fields, and the peer reads
exactly these values out of the 64-bit immediate. -/
structure FcImm.Intact (imm : FcImm) (window : Nat) : Prop where
  fits : imm.Fits
  word : imm.value < 2 ^ 64
  unpacked : FcImm.ofValue imm.value = imm
  received : (FcImm.ofValue imm.value).window = window

theorem FcImm.Fits.intact {imm : FcImm} (fits : imm.Fits) (same : window = imm.window) :
    imm.Intact window where
  fits := fits
  word := imm.value_lt
  unpacked := FcImm.ofValue_value fits
  received := by rw [FcImm.ofValue_value fits, same]

variable [DecidableEq P] [DecidableEq D]

/-- Every credit message of every run, whatever id the queue that builds it was bound with, is
intact exactly if that id has 18 bits, as the ids of the peer's generator have. -/
theorem creditMessages_intact_iff (topo : Topology L P D) {start finish : Net L P D} (silent : start.Silent)
    (run : Run (Net.poolEvent topo) (fun _ _ => True) start finish) (link : L) (remoteUmqId : UInt32) :
    (∀ req ∈ (finish.link link).reqs,
      (req.imm remoteUmqId.toNat).Intact req.window.val ↔ remoteUmqId.toNat < 2 ^ 18) ∧
    (∀ rep ∈ (finish.link link).reps,
      (rep.imm remoteUmqId.toNat).Intact rep.window.val ↔ remoteUmqId.toNat < 2 ^ 18) ∧
    (IdGenerator.Gives umqIdAllocSize remoteUmqId.toNat → remoteUmqId.toNat < 2 ^ 18) := by
  have all : finish.All topo Fielded :=
    run.invariant silent.fielded fun _ event all _ => fielded_poolInvariant.poolEvent all
  have fielded := all.links link
  refine ⟨fun req mem => ?_, fun rep mem => ?_, fun given => ?_⟩
  · have built := fielded.reqs req mem
    exact ⟨fun intact => intact.fits.umqId, fun small => (built.fits small).intact built.window⟩
  · have built := fielded.reps rep mem
    exact ⟨fun intact => intact.fits.umqId, fun small => (built.fits small).intact built.window⟩
  · exact Nat.lt_of_lt_of_le (IdGenerator.gives_iff.mp given) (Nat.pow_le_pow_right Nat.two_pos (by decide))

theorem sharedStart_silent : sharedStart.Silent :=
  ⟨fun _ => rfl, fun _ => ⟨rfl, rfl, rfl⟩, fun _ => rfl⟩

/-- Two senders ask; the first one has its answer under way. -/
def sharedAnswer : Net Bool Unit Unit :=
  (sharedRequests .delivered).foldl (Net.poolEvent sharedTopology) sharedStart

theorem sharedAnswer_reached : Run (Net.poolEvent sharedTopology) (fun _ _ => True) sharedStart sharedAnswer :=
  Run.ofList ⟨trivial, trivial, trivial, trivial, trivial⟩

theorem creditMessages_intact_shared : (sharedAnswer.link true).reps ≠ [] ∧
    ∀ rep ∈ (sharedAnswer.link true).reps, (rep.imm 7).Intact rep.window.val := by
  refine ⟨by decide, fun rep mem => ?_⟩
  have messages := creditMessages_intact_iff sharedTopology sharedStart_silent sharedAnswer_reached true 7
  exact (messages.2.1 rep mem).mpr (by decide)

def idleQueue : BindQueue := ⟨true, 0, 0, 0, 0, 0, 0, false⟩

/-- The peer agrees with the queue in all that is checked, and says that its id is 2^18. -/
def widePeer : PeerInfo where
  version := true
  dev := some ⟨0, 0, 0, 1, 0, [0], []⟩
  queue := some ⟨0, 262144, false, 64, 64, 4096, 0, []⟩
  rjettyTransMode := 0
  rjettyTpType := 0
  fc := some ⟨0, 0, []⟩

/-- The bind succeeds, and the answer to the first sender arrives with another queue's id. -/
theorem creditMessages_wideId : umqUbBindImpl idleQueue widePeer true = .ok 262144 ∧
    Run (Net.poolEvent sharedTopology) (fun _ _ => True) sharedStart sharedAnswer ∧
    ∃ rep ∈ (sharedAnswer.link true).reps, ¬ (rep.imm (2 ^ 18)).Intact rep.window.val ∧
      (FcImm.ofValue (rep.imm (2 ^ 18)).value).umqId = 0 := by
  refine ⟨rfl, sharedAnswer_reached, _, mem_cons_self, fun intact => ?_, by decide⟩
  exact absurd intact.fits.umqId (by decide)

end UbsComm.FlowControl
