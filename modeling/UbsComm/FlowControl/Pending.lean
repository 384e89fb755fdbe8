import UbsComm.FlowControl.Invariant
import UbsComm.Library.Run

/-! # Waiting requests and idle credit

A limited pool makes a request wait when it has no idle credit, and whoever raises the
idle credit should serve the waiting requests.  Refills, returns and teardown do; a
failed reply puts its credit back without looking at the list, and the service itself
gives up on a request whose reply cannot be sent.  In runs without these two, nobody
waits while there is idle credit. -/

namespace UbsComm.FlowControl

open Ub Library List

/-! ## Requests ask for something

A request for nothing would wait although there is idle credit. -/

def Ticket.Modest (ticket : Ticket) : Prop := ticket.kind = .creditReq → 0 < ticket.requested

structure Modest (view : View) : Prop where
  asks : 0 < view.link.creditsPerRequest
  reqs : ∀ req ∈ view.link.reqs, req.ticket.Modest
  retry : ∀ req ∈ view.link.retry, req.ticket.Modest
  pending : ∀ ticket ∈ view.pending, ticket.Modest
  hold : ∀ ticket credit, view.hold = some (.serving ticket credit) → ticket.Modest

section Modest

variable {lossy : Prop} {view view' : View}

theorem Modest.postReq (modest : Modest view) {kind : ReqKind} {window : Nat} {fate : Fate}
    (sized : kind = .creditReq → 0 < (Fin.ofNat 1024 window).val) :
    Modest { view with link := view.link.postReq kind window fate, hold := none } := by
  refine { modest with reqs := ?_, hold := nofun }
  exact forall_mem_append.mpr ⟨modest.reqs, forall_mem_singleton.mpr sized⟩

theorem LinkMove.modest (move : LinkMove lossy view view') (modest : Modest view) : Modest view' := by
  cases move with
  | failReq found failed =>
    exact { modest with reqs := fun req mem => modest.reqs req (mem_of_mem_eraseIdx mem) }
  | failRep found failed => exact { modest with }
  | acquire | debit | release | refund | reply | acknowledge | drop => exact { modest with hold := nofun }
  | tune count held => exact { modest with asks := Nat.lt_of_lt_of_le Nat.one_pos (Nat.le_max_left _ _) }
  | postCreditReq fate held =>
    refine modest.postReq fun _ => ?_
    have asks := modest.asks
    simp only [Fin.val_ofNat, umqUbFcMaxImmData]
    omega
  | postReturnReq fate held => exact modest.postReq nofun
  | @wait ticket held kind =>
    refine { modest with pending := ?_, hold := nofun }
    exact forall_mem_append.mpr ⟨modest.pending, forall_mem_singleton.mpr (modest.hold ticket 0 held)⟩
  | next free first =>
    have waiting := first ▸ modest.pending
    refine { modest with pending := fun other mem => waiting other (mem_cons_of_mem _ mem), hold := ?_ }
    intro other credit same
    cases same
    exact waiting _ mem_cons_self
  | @park req credit held settled =>
    refine { modest with retry := ?_, hold := nofun }
    exact forall_mem_append.mpr ⟨modest.retry, forall_mem_singleton.mpr (modest.hold req.ticket credit held)⟩
  | resume free found =>
    refine { modest with retry := fun other mem => modest.retry other (mem_of_mem_eraseIdx mem), hold := ?_ }
    intro other credit same
    cases same
    exact modest.retry _ (mem_of_getElem? found)
  | grant _ held | revoke held | clamp held =>
    -- a ticket in hand keeps its size whatever happens to its credit
    refine { modest with hold := ?_ }
    intro other credit same
    cases same
    exact modest.hold _ _ held

theorem Modest.applyRep (modest : Modest view) {cfg : LinkCfg} {rep : FcRep} {index : Nat} :
    Modest { view with link := { view.link with reps := view.link.reps.eraseIdx index }.applyRep cfg rep } := by
  cases kind : rep.kind with
  | creditReq =>
    simp only [Link.applyRep, kind]
    exact { modest with asks := Nat.succ_pos _ }
  | returnReq =>
    simp only [Link.applyRep, kind]
    exact { modest with }

theorem modest_viewInvariant : ViewInvariant (fun _ _ => True) (fun _ _ => True) Modest where
  move move modest := move.modest modest
  data _ _ _ modest := { modest with }
  forgetReq _ modest := { modest with reqs := fun req mem => modest.reqs req (mem_of_mem_eraseIdx mem) }
  forgetRep _ modest := { modest with }
  accept free found _ _ _ modest := by
    refine { modest with reqs := fun req mem => modest.reqs req (mem_of_mem_eraseIdx mem), hold := ?_ }
    intro ticket credit held
    cases held
    exact modest.reqs _ (mem_of_getElem? found)
  applyRep cfg _ _ _ _ modest := modest.applyRep

end Modest

/-! ## Sends that succeed

A poll that reaps a failed completion ends the send in an error, so a send that
succeeds has only posted its message. -/

variable {L P D : Type} [DecidableEq L] [DecidableEq P] {topo : Topology L P D}
  {net net' : Net L P D}

variable {env : SendEnv L} {pending : Nat → SendEnv L} {link : L} {envs : Nat → SendEnv L}
  {req : FcReq}

theorem umqUbFcSend_ok (ok : env.ret = .ok ()) (link : L) (build : Net L P D → Link → Link) :
    umqUbFcSend topo net link env build = (net.modify link (build net), .ok ()) := by
  obtain ⟨_, result⟩ | ⟨_, _, _, failed, _⟩ := umqUbFcSend_cases topo net link env build
  · exact result
  · rw [ok] at failed
    cases failed

/-! ## Pools nobody disturbs -/

/-- Whoever waits does so because there is no idle credit. -/
structure UbCreditPool.Tended (pool : UbCreditPool L) : Prop where
  counted : pool.pendingCount = pool.pendingList.length
  limited : pool.pendingList ≠ [] → pool.isLimited = true
  idle : pool.pendingList ≠ [] → pool.idle = 0

/-- The same requests wait, and if any does, no credit has come or gone. -/
structure UbCreditPool.Undisturbed (pool pool' : UbCreditPool L) : Prop where
  list : pool'.pendingList = pool.pendingList
  count : pool'.pendingCount = pool.pendingCount
  limited : pool'.isLimited = pool.isLimited
  idle : pool.pendingList ≠ [] → pool'.idle = pool.idle

variable {pool pool' pool'' : UbCreditPool L} {credit count : Nat}

section

omit [DecidableEq L]

theorem UbCreditPool.Undisturbed.refl : pool.Undisturbed pool := ⟨rfl, rfl, rfl, fun _ => rfl⟩

theorem UbCreditPool.Undisturbed.trans (first : pool.Undisturbed pool') (second : pool'.Undisturbed pool'') :
    pool.Undisturbed pool'' where
  list := second.list.trans first.list
  count := second.count.trans first.count
  limited := second.limited.trans first.limited
  idle waiting := (second.idle (first.list ▸ waiting)).trans (first.idle waiting)

theorem UbCreditPool.Undisturbed.tended (same : pool.Undisturbed pool') (tended : pool.Tended) : pool'.Tended where
  counted := by rw [same.count, same.list, tended.counted]
  limited waiting := same.limited.trans (tended.limited (same.list ▸ waiting))
  idle waiting := (same.idle (same.list ▸ waiting)).trans (tended.idle (same.list ▸ waiting))

theorem availableCreditReturn_frame (pool : UbCreditPool L) (credit : Nat) :
    (availableCreditReturn pool credit).pendingList = pool.pendingList ∧
      (availableCreditReturn pool credit).pendingCount = pool.pendingCount ∧
      (availableCreditReturn pool credit).isLimited = pool.isLimited := by
  unfold availableCreditReturn
  split <;> exact ⟨rfl, rfl, rfl⟩

theorem availableCreditReturn_undisturbed (nothing : pool.pendingList ≠ [] → credit = 0) :
    pool.Undisturbed (availableCreditReturn pool credit) := by
  obtain ⟨list, count, limited⟩ := availableCreditReturn_frame pool credit
  refine ⟨list, count, limited, fun waiting => ?_⟩
  rw [nothing waiting, availableCreditReturn]
  split <;> simp [counterIncU16]

/-- A pool with waiting requests has nothing to give. -/
theorem UbCreditPool.Tended.dec_eq_zero (tended : pool.Tended) (waiting : pool.pendingList ≠ []) :
    (availableCreditDec pool count).2 = 0 := by
  simp [availableCreditDec, tended.limited waiting, tended.idle waiting]

theorem UbCreditPool.Tended.dec (tended : pool.Tended) :
    pool.Undisturbed (availableCreditDec pool count).1 := by
  unfold availableCreditDec
  split
  · refine ⟨rfl, rfl, rfl, fun waiting => ?_⟩
    simp [tended.idle waiting]
  · exact ⟨rfl, rfl, rfl, fun _ => rfl⟩

theorem FcRep.failPool_undisturbed {rep : FcRep} (nothing : pool.pendingList ≠ [] → rep.kind = .returnReq) :
    pool.Undisturbed (rep.failPool pool) := by
  unfold FcRep.failPool
  cases kind : rep.kind with
  | creditReq =>
    obtain ⟨list, count, limited⟩ := availableCreditReturn_frame pool rep.notify
    refine ⟨list, count, limited, fun waiting => ?_⟩
    have returned := nothing waiting
    rw [kind] at returned
    cases returned
  | returnReq => exact .refl

end

/-- Nothing that matters to waiting requests happens, and no reply is posted. -/
structure Calm (net net' : Net L P D) : Prop where
  pools : ∀ pool, (net.pool pool).Undisturbed (net'.pool pool)
  reps : ∀ link, (net'.link link).reps ⊆ (net.link link).reps

variable {net'' : Net L P D} {f : UbCreditPool L → UbCreditPool L}

section

omit [DecidableEq P]

omit [DecidableEq L] in
theorem Calm.refl : Calm net net := ⟨fun _ => .refl, fun _ => List.Subset.refl _⟩

omit [DecidableEq L] in
theorem Calm.trans (first : Calm net net') (second : Calm net' net'') : Calm net net'' :=
  ⟨fun pool => (first.pools pool).trans (second.pools pool),
    fun link => List.Subset.trans (second.reps link) (first.reps link)⟩

theorem Calm.modify {f : Link → Link} (reps : (f (net.link link)).reps ⊆ (net.link link).reps) :
    Calm net (net.modify link f) :=
  ⟨fun _ => .refl, Net.forall_modify (motive := fun other l => l.reps ⊆ (net.link other).reps) link f reps
    fun _ => List.Subset.refl _⟩

theorem Calm.touch (link : L) (f : Link → Link) (same : ∀ l, (f l).reps = l.reps) :
    Calm net (net.modify link f) :=
  .modify (by rw [same]; exact List.Subset.refl _)

end

omit [DecidableEq L] in
theorem Calm.modifyPool {pool : P}
    (same : (net.pool pool).Undisturbed (f (net.pool pool))) : Calm net (net.modifyPool pool f) :=
  ⟨Net.forall_modifyPool (motive := fun other p => (net.pool other).Undisturbed p) same fun _ => .refl,
    fun _ => List.Subset.refl _⟩

variable (topo) in
/-- The completion puts no credit back where somebody waits: nobody does, or no grant of
the link has failed. -/
def FcCr.Quiet (net : Net L P D) : FcCr L → Prop
  | .failedRep link _ _ => (net.pool (topo.poolOf link)).pendingList = [] ∨
      ∀ rep ∈ (net.link link).reps, rep.fate = .failed → rep.kind = .returnReq
  | .done | .failedReq .. => True

omit [DecidableEq L] [DecidableEq P] in
theorem FcCr.Quiet.mono {cr : FcCr L} (quiet : cr.Quiet topo net) (calm : Calm net net') : cr.Quiet topo net' := by
  cases cr with
  | failedRep link index fatal =>
    obtain empty | kept := quiet
    · exact .inl ((calm.pools _).list.trans empty)
    · exact .inr fun rep mem => kept rep (calm.reps link mem)
  | done | failedReq => trivial

theorem umqUbFcProcessTxError_calm {cr : FcCr L} (quiet : cr.Quiet topo net) :
    Calm net (umqUbFcProcessTxError topo net cr) := by
  obtain same | ⟨link, index, req, found, failed, same⟩ | ⟨link, index, fatal, rep, rfl, found, failed, same⟩ :=
    umqUbFcProcessTxError_cases topo net cr <;> rw [same]
  · exact .refl
  · exact .modify (List.Subset.refl _)
  · refine (Calm.modifyPool ?_).trans (.modify (eraseIdx_sublist _ _).subset)
    refine FcRep.failPool_undisturbed fun waiting => ?_
    obtain empty | kept := quiet
    · exact absurd empty waiting
    · exact kept rep (mem_of_getElem? found) failed

theorem Reaped.calm {crs : List (FcCr L)} (reaped : Reaped topo crs net net')
    (quiet : ∀ cr ∈ crs, cr.Quiet topo net) : Calm net net' := by
  refine reaped.keeps (motive := fun other => Calm net other) ?_ (.refl)
  intro other cr mem calm
  exact calm.trans (umqUbFcProcessTxError_calm ((quiet cr mem).mono calm))

/-! ## Requests and replies -/

omit [DecidableEq P] in
theorem umqUbPermissionRelease_calm : Calm net (umqUbPermissionRelease net link) :=
  .touch link _ fun _ => rfl

section

variable (quiet : ∀ cr ∈ env.crs, cr.Quiet topo net)
include quiet

theorem umqUbSharedCreditReqSend_calm : Calm net (umqUbSharedCreditReqSend topo net link env).1 := by
  unfold umqUbSharedCreditReqSend
  split
  · exact .refl
  · have acquired : Calm net (net.modify link ({ · with isCreditApplying := true })) := .touch link _ fun _ => rfl
    refine acquired.trans ?_
    generalize net.modify link _ = before at acquired ⊢
    obtain ⟨_, result⟩ | ⟨prepared, err, reaped, _, result⟩ := umqUbFcPrepare_ends topo before env <;>
      simp only [result]
    · obtain ⟨_, result⟩ | ⟨posted, err, reaped, _, result⟩ := umqUbFcPost_ends topo before env <;>
        simp only [result]
      · exact .touch link _ fun _ => rfl
      · refine (reaped.calm fun cr mem => ?_).trans umqUbPermissionRelease_calm
        exact (quiet cr (mem_append_right _ mem)).mono acquired
    · refine (reaped.calm fun cr mem => ?_).trans umqUbPermissionRelease_calm
      exact (quiet cr (mem_append_left _ mem)).mono acquired

theorem umqUbSharedCreditReturnReqSend_calm {due : Bool} :
    Calm net (umqUbSharedCreditReturnReqSend topo net link due env).1 := by
  unfold umqUbSharedCreditReturnReqSend
  simp only
  split
  · exact .refl
  · have acquired : Calm net (net.modify link ({ · with isCreditApplying := true })) := .touch link _ fun _ => rfl
    generalize net.modify link _ = before at acquired ⊢
    obtain ⟨_, result⟩ | ⟨polled, err, reaped, _, result⟩ := umqUbPollFcTx_ends topo before env.poll <;>
      simp only [result]
    · cases env.jettyNode with
      | error err =>
        refine acquired.trans (.trans (.touch link _ ?_) umqUbPermissionRelease_calm)
        exact fun _ => rfl
      | ok =>
        rw [Net.modify_modify]
        generalize remoteRxWindowDec _ _ = taken
        have debited := acquired.trans (Calm.touch link (fun l => { l with
          creditsPerRequest := max 1 ((topo.cfg link).divMultiple l.creditsPerRequest % 2 ^ 16)
          remoteRxWindow := taken.1 }) fun _ => rfl)
        refine debited.trans ?_
        generalize before.modify link _ = ready at debited ⊢
        obtain ⟨_, result⟩ | ⟨posted, err, reaped, _, result⟩ := umqUbFcPost_ends topo ready env <;>
          simp only [result]
        · exact .touch link _ fun _ => rfl
        · refine (reaped.calm fun cr mem => ?_).trans
            (umqUbPermissionRelease_calm.trans (.touch link _ fun _ => rfl))
          exact (quiet cr (mem_append_right _ mem)).mono debited
    · refine (acquired.trans (reaped.calm fun cr mem => ?_)).trans umqUbPermissionRelease_calm
      exact (quiet cr (mem_append_left _ mem)).mono acquired

end

def Net.Tended (net : Net L P D) : Prop := ∀ pool, (net.pool pool).Tended

omit [DecidableEq L] [DecidableEq P] in
theorem Calm.tended (calm : Calm net net') (tended : net.Tended) : net'.Tended :=
  fun pool => (calm.pools pool).tended (tended pool)

theorem Net.Tended.grant (tended : net.Tended) (pool : P) (link : L) (requested : Nat) :
    Calm net (net.grant pool link requested) :=
  (Calm.modifyPool ((tended pool).dec)).trans (.touch link _ fun _ => rfl)

theorem Calm.giveBack {pool : P}
    (nothing : (net.pool pool).pendingList ≠ [] → credit = 0) : Calm net (net.giveBack pool link credit) :=
  (Calm.modifyPool (availableCreditReturn_undisturbed nothing)).trans (.touch link _ fun _ => rfl)

/-- A credit request that is answered at once finds nobody waiting, or gets nothing. -/
theorem umqUbSharedCreditReqHandle_tended (tended : net.Tended) {requested seq stamp : Nat}
    (quiet : ∀ cr ∈ env.crs, cr.Quiet topo net) :
    (umqUbSharedCreditReqHandle topo net link requested seq stamp env).1.Tended := by
  have granted := tended.grant (topo.poolOf link) link requested
  unfold umqUbSharedCreditReqHandle umqUbSharedCreditRespSend
  simp only
  obtain ⟨_, sent⟩ | ⟨reached, err, reaped, _, sent⟩ :=
    umqUbFcSend_cases topo (net.grant (topo.poolOf link) link requested) link env fun _ l =>
      l.postRep .creditReq (availableCreditDec (net.pool (topo.poolOf link)) requested).2 (net.ratio topo link)
        seq stamp env.fate <;>
    rw [sent]
  · exact granted.tended tended
  · have calm := granted.trans (reaped.calm fun cr mem => (quiet cr mem).mono granted)
    refine (calm.trans (.giveBack fun waiting => ?_)).tended tended
    rw [(calm.pools _).list] at waiting
    exact (tended _).dec_eq_zero waiting

/-! ## Serving the waiting requests -/

/-- A pool in the middle of its service: idle credit may be there, but the list is in order. -/
structure UbCreditPool.Listed (pool : UbCreditPool L) : Prop where
  counted : pool.pendingCount = pool.pendingList.length
  limited : pool.pendingList ≠ [] → pool.isLimited = true
  asks : ∀ req ∈ pool.pendingList, 0 < req.requested

/-- One round whose reply goes out serves the first request and touches no other pool. -/
theorem umqUbPendingRound_serves (topo : Topology L P D) {pool : P} {head : PendingReq L} {rest : List (PendingReq L)}
    (mem : (net.pool pool).Listed) (idle : (net.pool pool).idle ≠ 0)
    (waiting : (net.pool pool).pendingList = head :: rest) (ok : env.ret = .ok ()) :
    ∃ served, umqUbPendingRound topo net pool env = (served, true) ∧
      (∀ other, other ≠ pool → served.pool other = net.pool other) ∧
      (served.pool pool).Listed ∧ (served.pool pool).pendingList = rest := by
  have limited : (net.pool pool).isLimited = true := mem.limited (by simp [waiting])
  have asks : 0 < head.requested := mem.asks head (by simp [waiting])
  have count := mem.counted
  rw [waiting, length_cons] at count
  have some : min (net.pool pool).idle head.requested ≠ 0 := by omega
  unfold umqUbPendingRound
  simp only [idle, waiting, Net.modifyPool_pool_self, availableCreditDec, limited, if_true, some,
    umqUbSharedCreditRespSend, umqUbFcSend_ok ok]
  refine ⟨_, rfl, ?_, ?_, ?_⟩
  · intro other ne
    rw [Net.modifyPool_pool_other _ _ ne, Net.modify_pool, Net.grant, Net.modify_pool,
      Net.modifyPool_pool_other _ _ ne, Net.modifyPool_pool_other _ _ ne]
  · simp only [Net.modifyPool_pool_self, Net.modify_pool, Net.grant, availableCreditDec, limited, if_true]
    refine ⟨by dsimp only; omega, fun _ => rfl, ?_⟩
    exact fun req listed' => mem.asks req (waiting ▸ mem_cons_of_mem _ listed')
  · simp [Net.grant]

theorem umqUbPendingLoop_serves (topo : Topology L P D) {pool : P} {rounds : Nat} (mem : (net.pool pool).Listed)
    (rounds_eq : rounds = (net.pool pool).pendingList.length) (ok : ∀ round < rounds, (envs round).ret = .ok ()) :
    (∀ other, other ≠ pool → (umqUbPendingLoop topo pool envs rounds net).pool other = net.pool other) ∧
      ((umqUbPendingLoop topo pool envs rounds net).pool pool).Tended := by
  induction rounds generalizing net with
  | zero =>
    have empty : (net.pool pool).pendingList = [] := length_eq_zero_iff.mp rounds_eq.symm
    exact ⟨fun _ _ => rfl, mem.counted, fun waiting => absurd empty waiting, fun waiting => absurd empty waiting⟩
  | succ rounds ih =>
    unfold umqUbPendingLoop
    by_cases idle : (net.pool pool).idle = 0
    · simp only [umqUbPendingRound, idle, if_true]
      exact ⟨fun _ _ => trivial, mem.counted, mem.limited, fun _ => idle⟩
    · cases waiting : (net.pool pool).pendingList with
      | nil => simp [waiting] at rounds_eq
      | cons head rest =>
        obtain ⟨served, round, others, listed', list⟩ :=
          umqUbPendingRound_serves topo mem idle waiting (ok rounds (Nat.lt_succ_self _))
        simp only [round]
        rw [waiting, length_cons] at rounds_eq
        obtain ⟨others', tended⟩ := ih listed' (by rw [list]; omega) fun round lt => ok round (by omega)
        exact ⟨fun other ne => (others' other ne).trans (others other ne), tended⟩

/-- Every reply of a service of the pool can be sent. -/
def UbCreditPool.Serves (pool : UbCreditPool L) (envs : Nat → SendEnv L) : Prop :=
  ∀ round < pool.pendingCount, (envs round).ret = .ok ()

theorem umqUbCreditPendingQueueProcess_tended {pool : P} (mem : (net.pool pool).Listed)
    (others : ∀ other, other ≠ pool → (net.pool other).Tended) (serves : (net.pool pool).Serves envs) :
    (umqUbCreditPendingQueueProcess topo net pool envs).Tended := by
  unfold umqUbCreditPendingQueueProcess
  intro other
  split
  · rename_i unlimited
    by_cases this : other = pool
    · subst this
      have empty : (net.pool other).pendingList = [] := by
        by_contra waiting
        simp [mem.limited waiting] at unlimited
      exact ⟨mem.counted, fun waiting => absurd empty waiting, fun waiting => absurd empty waiting⟩
    · exact others other this
  · have served := umqUbPendingLoop_serves topo mem mem.counted serves
    by_cases this : other = pool
    · subst this
      exact served.2
    · rw [served.1 other this]
      exact others other this

/-! ## Steps -/

variable (topo) in
structure Net.Attended (net : Net L P D) : Prop where
  tended : net.Tended
  modest : net.All topo Modest

omit [DecidableEq P] in
/-- Waiting requests stand in their own pool, so the links' invariant covers them. -/
theorem Net.All.asks (modest : net.All topo Modest) {pool : P} :
    ∀ req ∈ (net.pool pool).pendingList, 0 < req.requested := by
  intro req waiting
  have home := modest.homed pool req waiting
  refine (modest.links req.link).pending req.ticket ?_ rfl
  simp only [Net.view, home]
  exact mem_map_of_mem (mem_filter.mpr ⟨waiting, by simp⟩)

/-- After more credit has come into one pool, the pool's service leaves nobody waiting for it. -/
theorem Net.Attended.served (attended : net.Attended topo) {more : Net L P D} {pool : P}
    (others : ∀ other, other ≠ pool → more.pool other = net.pool other)
    (list : (more.pool pool).pendingList = (net.pool pool).pendingList)
    (count : (more.pool pool).pendingCount = (net.pool pool).pendingCount)
    (limited : (more.pool pool).isLimited = (net.pool pool).isLimited)
    (serves : (net.pool pool).Serves envs) : (umqUbCreditPendingQueueProcess topo more pool envs).Tended := by
  have tended := attended.tended pool
  refine umqUbCreditPendingQueueProcess_tended ⟨?_, ?_, ?_⟩ ?_ ?_
  · rw [count, list, tended.counted]
  · rw [list, limited]
    exact tended.limited
  · rw [list]
    exact attended.modest.asks
  · intro other ne
    rw [others other ne]
    exact attended.tended other
  · unfold UbCreditPool.Serves
    rw [count]
    exact serves

theorem Net.giveBack_pool_other {pool other : P} (ne : other ≠ pool) :
    (net.giveBack pool link credit).pool other = net.pool other := by
  rw [Net.giveBack, Net.modify_pool, Net.modifyPool_pool_other _ _ ne]

theorem Net.giveBack_pool_self {pool : P} :
    (net.giveBack pool link credit).pool pool = availableCreditReturn (net.pool pool) credit := by
  rw [Net.giveBack, Net.modify_pool, Net.modifyPool_pool_self]

theorem Net.Attended.returned (attended : net.Attended topo)
    (same : net'.pool = net.pool) (serves : (net.pool (topo.poolOf link)).Serves envs) :
    (umqUbCreditPendingQueueProcess topo (net'.giveBack (topo.poolOf link) link credit) (topo.poolOf link)
      envs).Tended := by
  obtain ⟨list, count, limited⟩ := availableCreditReturn_frame (net.pool (topo.poolOf link)) credit
  refine attended.served ?_ ?_ ?_ ?_ serves
  · intro other ne
    rw [Net.giveBack_pool_other ne, same]
  all_goals rw [Net.giveBack_pool_self, same]
  · exact list
  · exact count
  · exact limited

theorem umqUbSharedCreditReturnReqHandle_tended (attended : net.Attended topo)
    (quiet : ∀ cr ∈ env.crs, cr.Quiet topo net)
    (serves : (net.pool (topo.poolOf link)).Serves pending) :
    (umqUbSharedCreditReturnReqHandle topo net link req env pending).1.Tended := by
  obtain ⟨_, acked, rfl, ⟨_, result⟩ | result⟩ | ⟨reached, err, reaped, _, result⟩ :=
    umqUbSharedCreditReturnReqHandle_cases topo net link req env pending <;> rw [result]
  · exact attended.tended
  · exact attended.returned rfl serves
  · exact (reaped.calm quiet).tended attended.tended

theorem umqUbProcessFcReq_tended (attended : net.Attended topo) (quiet : ∀ cr ∈ env.crs, cr.Quiet topo net)
    (serves : req.kind = .returnReq → (net.pool (topo.poolOf link)).Serves pending) :
    (umqUbProcessFcReq topo net link req env pending).1.Tended := by
  unfold umqUbProcessFcReq
  cases kind : req.kind with
  | creditReq => exact umqUbSharedCreditReqHandle_tended attended.tended quiet
  | returnReq => exact umqUbSharedCreditReturnReqHandle_tended attended quiet (serves kind)

theorem umqUbFcMsgRetryEnqueue_pool :
    (umqUbFcMsgRetryEnqueue topo net link req).pool = net.pool := by
  unfold umqUbFcMsgRetryEnqueue
  simp only
  split <;> rfl

variable {timedOut : Bool} {result : Net L P D × UmqRet}

theorem umqUbAfterTry_pool :
    (umqUbAfterTry topo link req timedOut result).pool = result.1.pool := by
  obtain ⟨processed, err | _⟩ := result
  · simp only [umqUbAfterTry]
    split
    · rfl
    · exact umqUbFcMsgRetryEnqueue_pool
  · rfl

theorem umqUbAfterTry_tended
    (tended : result.1.Tended) : (umqUbAfterTry topo link req timedOut result).Tended := by
  unfold Net.Tended
  rw [umqUbAfterTry_pool]
  exact tended

omit [DecidableEq L] in
/-- A request waits only if the pool has no idle credit. -/
theorem umqUbCreditPendingReqEnqueue_tended (tended : net.Tended)
    (waits : umqUbReqWaits topo net link req = true) (modest : req.ticket.Modest) :
    (umqUbCreditPendingReqEnqueue topo net link req).Tended := by
  simp only [umqUbReqWaits, Bool.and_eq_true, beq_iff_eq] at waits
  obtain ⟨⟨⟨⟨_, kind⟩, limited⟩, nothing⟩, _⟩ := waits
  have asks : 0 < req.window.val := modest kind
  have before := tended (topo.poolOf link)
  intro pool
  unfold umqUbCreditPendingReqEnqueue
  by_cases this : pool = topo.poolOf link
  · subst this
    rw [Net.modifyPool_pool_self]
    refine ⟨?_, fun _ => limited, fun _ => ?_⟩
    · simp [UbCreditPool.pushBack, before.counted]
    · simp only [UbCreditPool.pushBack]
      omega
  · rw [Net.modifyPool_pool_other _ _ this]
    exact tended pool

variable (topo) in
/-- The polls of a step put no credit back into a pool with waiting requests, and
whenever a pool is served the replies can be sent. -/
def Step.Attentive (net : Net L P D) : Step L P D → Prop
  | .creditReq _ env | .creditReturn _ _ env => ∀ cr ∈ env.crs, cr.Quiet topo net
  | .pollFcTx poll => ∀ cr ∈ poll.crs, cr.Quiet topo net
  | .recvReq link index env pending => (∀ cr ∈ env.crs, cr.Quiet topo net) ∧
      ∀ req, (net.link link).reqs[index]? = some req → req.kind = .returnReq →
        (net.pool (topo.poolOf link)).Serves pending
  | .retry link index _ env pending => (∀ cr ∈ env.crs, cr.Quiet topo net) ∧
      ∀ req, (net.link link).retry[index]? = some req → req.kind = .returnReq →
        (net.pool (topo.poolOf link)).Serves pending
  | .recharge pool _ pending => (net.pool pool).Serves pending
  | .recvRep .. | .postTx .. | .recvData .. | .recvFailed .. | .dataFailed .. => True

theorem Net.Attended.recvReq (attended : net.Attended topo) {index : Nat}
    (attentive : (Step.recvReq link index env pending).Attentive topo net) :
    (umqUbPollFcRxReq topo net link index env pending).Tended := by
  obtain ⟨quiet, serves⟩ := attentive
  obtain same | ⟨req, found, _, ⟨_, result⟩ | ⟨_, result⟩⟩ := umqUbPollFcRxReq_cases pending net link index env
  · rw [same]
    exact attended.tended
  · rw [result]
    exact attended.tended
  · have before := attended.modest.links link
    have modest : req.ticket.Modest := before.reqs req (mem_of_getElem? found)
    have calm : Calm net (net.accepted link index) :=
      (Calm.touch link (fun l => { l with reqs := l.reqs.eraseIdx index }) fun _ => rfl).trans
        (.touch link _ fun _ => rfl)
    have accepted : (net.accepted link index).Attended topo := by
      refine ⟨calm.tended attended.tended, ?_⟩
      have arrived := attended.modest.modify link (fun l => { l with reqs := l.reqs.eraseIdx index })
        (modest_viewInvariant.forgetReq index before)
      refine arrived.modify link Link.accept ?_
      exact { arrived.links link with hold := nofun }
    rw [result]
    split
    · rename_i waits
      exact umqUbCreditPendingReqEnqueue_tended accepted.tended waits modest
    · exact umqUbAfterTry_tended (umqUbProcessFcReq_tended accepted (fun cr mem => (quiet cr mem).mono calm)
        fun kind => serves req found kind)

theorem Net.Attended.retry (attended : net.Attended topo) {index : Nat}
    (attentive : (Step.retry link index timedOut env pending).Attentive topo net) :
    (umqUbFcMsgRetryDequeue topo net link index timedOut env pending).Tended := by
  obtain ⟨quiet, serves⟩ := attentive
  unfold umqUbFcMsgRetryDequeue
  cases found : (net.link link).retry[index]? with
  | none => exact attended.tended
  | some req =>
    have calm : ∀ free, Calm net ({ net with retryFree := free }.modify link fun l =>
        { l with retry := l.retry.eraseIdx index }) := by
      intro free
      have same : Calm net { net with retryFree := free } := ⟨fun _ => .refl, fun _ => List.Subset.refl _⟩
      exact same.trans (.touch link _ fun _ => rfl)
    have taken : ∀ free, ({ net with retryFree := free }.modify link fun l =>
        { l with retry := l.retry.eraseIdx index }).Attended topo := by
      intro free
      refine ⟨(calm free).tended attended.tended, ?_⟩
      have same : ({ net with retryFree := free } : Net L P D).All topo Modest :=
        ⟨attended.modest.homed, attended.modest.links⟩
      refine same.modify link _ ?_
      have modest := same.links link
      exact { modest with retry := fun req mem => modest.retry req (mem_of_mem_eraseIdx mem), hold := nofun }
    exact umqUbAfterTry_tended (umqUbProcessFcReq_tended (taken _) (fun cr mem => (quiet cr mem).mono (calm _))
      fun kind => serves req found kind)

theorem Net.Attended.recharge (attended : net.Attended topo) {pool : P}
    (serves : (net.pool pool).Serves pending) : (umqUbSharedCreditRecharge topo net pool count pending).Tended := by
  unfold umqUbSharedCreditRecharge
  split
  · exact attended.tended
  · refine attended.served (fun other ne => ?_) ?_ ?_ ?_ serves
    · rw [Net.modifyPool_pool_other _ _ ne]
    all_goals rw [Net.modifyPool_pool_self]; rfl

variable [DecidableEq D]

omit [DecidableEq L] in
theorem umqUbPollRxAccount_tended (tended : net.Tended) {pool : P} {dev : D} {umqId : Nat} :
    (umqUbPollRxAccount net pool dev umqId).Tended := by
  have calm : Calm net (net.modifyPool pool (allocatedCreditDec · 1)) := by
    refine .modifyPool ?_
    unfold allocatedCreditDec
    split <;> exact ⟨rfl, rfl, rfl, fun _ => rfl⟩
  exact calm.tended tended

theorem Net.Attended.step (attended : net.Attended topo) {step : Step L P D}
    (attentive : step.Attentive topo net) : (net.step topo step).Tended := by
  have tended := attended.tended
  cases step with
  | creditReq link env => exact (umqUbSharedCreditReqSend_calm attentive).tended tended
  | creditReturn link due env => exact (umqUbSharedCreditReturnReqSend_calm attentive).tended tended
  | recvReq link index env pending => exact attended.recvReq attentive
  | recvRep link index =>
    simp only [Net.step, umqUbPollFcRxRep]
    split
    · exact tended
    · split_ifs <;> exact tended
  | retry link index timedOut env pending => exact attended.retry attentive
  | pollFcTx poll => exact ((umqUbPollFcTx_ends topo net poll).reaped.calm attentive).tended tended
  | postTx link call =>
    simp only [Net.step, Net.postTx]
    split <;> exact tended
  | recvData link index =>
    simp only [Net.step, Net.recvData]
    split
    · exact tended
    · split
      · have arrived : (net.modify link fun l => { l with data := l.data.eraseIdx index }).Tended := tended
        exact umqUbPollRxAccount_tended arrived
      · exact tended
  | recvFailed pool dev umqId => exact umqUbPollRxAccount_tended tended
  | dataFailed link index flushed =>
    simp only [Net.step, Net.dataFailed]
    split <;> exact tended
  | recharge pool count pending => exact attended.recharge attentive

/-! ## Binding and teardown -/

inductive PoolEvent (L P D : Type) where
  | call (step : Step L P D)
  | initialCredit (link : L)
  | cleanUp (link : L) (pending : Nat → SendEnv L)
  | idleFlush (pool : P) (count : Nat)
  | removePending (link : L)

variable (topo) in
def Net.poolEvent (net : Net L P D) : PoolEvent L P D → Net L P D
  | .call step => net.step topo step
  | .initialCredit link => umqUbInitialCredit topo net link
  | .cleanUp link pending => umqUbCreditCleanUp topo net link pending
  | .idleFlush pool count => umqUbIdleCreditFlush net pool count
  | .removePending link => umqUbCreditPendingReqRemoveByQueue topo net link

variable {Invariant : View → Prop} {event : PoolEvent L P D}

omit [DecidableEq D] in
theorem Net.All.modifyPool (all : net.All topo Invariant) {pool : P}
    (keeps : (f (net.pool pool)).pendingList = (net.pool pool).pendingList) :
    (net.modifyPool pool f).All topo Invariant := by
  refine ⟨all.homed.modifyPool ?_, fun link => ?_⟩
  · rw [keeps]
    exact all.homed pool
  · have same : (net.modifyPool pool f).view topo none link = net.view topo none link := by
      simp [Net.view, Net.pendingList_modifyPool keeps]
    rw [same]
    exact all.links link

/-- A property of views that asks nothing of arriving messages, and that survives what
binding and teardown do: they change the allocated total and take requests off the list. -/
structure PoolInvariant (Invariant : View → Prop) : Prop extends
    ViewInvariant (fun _ _ => True) (fun _ _ => True) Invariant where
  allocated {view : View} (count : Nat) :
    Invariant view → Invariant { view with link := { view.link with allocatedSuccess := count } }
  fewer {view : View} {pending : List Ticket} (mem : pending.Sublist view.pending) :
    Invariant view → Invariant { view with pending := pending }

omit [DecidableEq L] [DecidableEq P] [DecidableEq D] in
theorem Step.ready {step : Step L P D} : step.Ready (fun _ _ => True) (fun _ _ => True) net := by
  cases step with
  | recvReq | recvRep => exact fun _ _ => trivial
  | _ => trivial

theorem removeByQueue_sublist (pool : UbCreditPool L) (link : L) :
    (if pool.pendingList.any (·.link = link) = true then
      { pool with
        pendingList := pool.pendingList.eraseP (·.link = link)
        pendingCount := pool.pendingCount - 1 } else pool).pendingList.Sublist pool.pendingList := by
  split
  · exact eraseP_sublist
  · exact List.Sublist.refl _

theorem PoolInvariant.poolEvent (keeps : PoolInvariant Invariant)
    (all : net.All topo Invariant) : (net.poolEvent topo event).All topo Invariant := by
  cases event with
  | call step => exact keeps.toViewInvariant.step all step.ready
  | initialCredit link =>
    simp only [Net.poolEvent, umqUbInitialCredit]
    split
    · refine (all.modifyPool (availableCreditDec_pendingList _)).modify link _ ?_
      exact keeps.allocated _ ((all.modifyPool (availableCreditDec_pendingList _)).links link)
    · exact all
  | cleanUp link pending =>
    simp only [Net.poolEvent, umqUbCreditCleanUp]
    split
    · exact all
    · refine keeps.toViewInvariant.evolves ?_ umqUbCreditPendingQueueProcess_evolves
      refine (all.modifyPool (availableCreditReturn_pendingList _)).modify link _ ?_
      exact keeps.allocated _ ((all.modifyPool (availableCreditReturn_pendingList _)).links link)
  | idleFlush pool count =>
    simp only [Net.poolEvent]
    exact all.modifyPool rfl
  | removePending link =>
    simp only [Net.poolEvent, umqUbCreditPendingReqRemoveByQueue]
    refine ⟨all.homed.modifyPool fun req waiting => ?_, fun other => ?_⟩
    · exact all.homed _ req ((removeByQueue_sublist _ link).subset waiting)
    · by_cases this : topo.poolOf other = topo.poolOf link
      · have shorter := ((removeByQueue_sublist (net.pool (topo.poolOf other)) link).filter
          (·.link = other)).map PendingReq.ticket
        have result := keeps.fewer shorter (all.links other)
        simpa [Net.view, this] using result
      · have same := all.links other
        simpa [Net.view, Net.modifyPool_pool_other _ _ this] using same

theorem modest_poolInvariant : PoolInvariant Modest where
  toViewInvariant := modest_viewInvariant
  allocated _ modest := { modest with }
  fewer mem modest := { modest with pending := fun ticket waiting => modest.pending ticket (mem.subset waiting) }

omit [DecidableEq L] [DecidableEq D] in
theorem Net.Tended.idleFlush (tended : net.Tended) {pool : P} :
    (umqUbIdleCreditFlush net pool count).Tended := by
  have before := tended pool
  refine Net.forall_modifyPool (motive := fun _ p => p.Tended) ?_ tended
  exact ⟨before.counted, before.limited, fun waiting => by simp [before.idle waiting]⟩

/-- Removing the entry of a queue leaves a shorter list of the right length. -/
theorem UbCreditPool.Tended.remove (tended : pool.Tended) :
    ({ pool with
      pendingList := pool.pendingList.eraseP (·.link = link)
      pendingCount := pool.pendingCount - 1 } : UbCreditPool L).Tended ∨
        ¬ pool.pendingList.any (·.link = link) = true := by
  by_cases mem : pool.pendingList.any (·.link = link) = true
  · refine .inl ⟨?_, fun waiting => tended.limited ?_, fun waiting => tended.idle ?_⟩
    · rw [length_eraseP, if_pos mem, tended.counted]
    all_goals
      intro empty
      simp [empty] at waiting
  · exact .inr mem

omit [DecidableEq D] in
theorem Net.Tended.removePending (tended : net.Tended) :
    (umqUbCreditPendingReqRemoveByQueue topo net link).Tended := by
  intro other
  have before := tended other
  unfold umqUbCreditPendingReqRemoveByQueue
  by_cases this : other = topo.poolOf link
  · subst this
    rw [Net.modifyPool_pool_self]
    exact guarded before fun mem => before.remove.resolve_right (not_not.mpr mem)
  · rw [Net.modifyPool_pool_other _ _ this]
    exact before

/-! ## Runs -/

variable (topo) in
def PoolEvent.Attentive (net : Net L P D) : PoolEvent L P D → Prop
  | .call step => step.Attentive topo net
  | .cleanUp link pending => (net.pool (topo.poolOf link)).Serves pending
  | .initialCredit .. | .idleFlush .. | .removePending .. => True

theorem Net.Attended.poolEvent (attended : net.Attended topo)
    (attentive : event.Attentive topo net) : (net.poolEvent topo event).Attended topo := by
  refine ⟨?_, modest_poolInvariant.poolEvent attended.modest⟩
  cases event with
  | call step => exact attended.step attentive
  | initialCredit link =>
    exact guarded attended.tended fun _ => (attended.tended.grant _ link _).tended attended.tended
  | cleanUp link pending =>
    simp only [Net.poolEvent, umqUbCreditCleanUp]
    split
    · exact attended.tended
    · exact attended.returned rfl attentive
  | idleFlush pool count => exact attended.tended.idleFlush
  | removePending link => exact attended.tended.removePending

/-- Queues as `umq_ub_flow_control_init` leaves them: a request asks for at least one
credit, and nothing waits. -/
structure Net.Opened (net : Net L P D) : Prop where
  asks : ∀ link, 0 < (net.link link).creditsPerRequest
  quiet : ∀ link, (net.link link).reqs = [] ∧ (net.link link).retry = []
  pools : ∀ pool, (net.pool pool).pendingList = [] ∧ (net.pool pool).pendingCount = 0

omit [DecidableEq P] [DecidableEq D] in
theorem Net.Opened.attended (opened : net.Opened) : net.Attended topo := by
  refine ⟨fun pool => ?_, fun pool req waiting => ?_, fun link => ?_⟩
  · obtain ⟨list, count⟩ := opened.pools pool
    exact ⟨by simp [list, count], fun waiting => absurd list waiting, fun waiting => absurd list waiting⟩
  · simp [(opened.pools pool).1] at waiting
  · obtain ⟨reqs, retry⟩ := opened.quiet link
    refine ⟨opened.asks link, ?_, ?_, ?_, nofun⟩
    · simp [Net.view, reqs]
    · simp [Net.view, retry]
    · simp [Net.view, (opened.pools _).1]

/-- In every run of attentive calls, nobody waits for credit that is idle. -/
theorem creditPool_idle_of_waiting (topo : Topology L P D) {start finish : Net L P D} (opened : start.Opened)
    (run : Run (Net.poolEvent topo) (fun net event => event.Attentive topo net) start finish) (pool : P)
    (waiting : (finish.pool pool).pendingList ≠ []) : (finish.pool pool).idle = 0 := by
  have attended : finish.Attended topo :=
    run.invariant opened.attended fun _ _ attended attentive => attended.poolEvent attentive
  exact (attended.tended pool).idle waiting

/-! ### Two senders and one pool

The pool has four idle credits, as many as a sender asks for at first. -/

def sharedTopology : Topology Bool Unit Unit where
  poolOf := fun _ => ()
  dev := fun _ => ()
  umqId := fun link => link.toNat
  cfg := fun _ => pairTopology.cfg ()
  given := fun link => IdGenerator.gives_iff.mpr (by cases link <;> decide)
  umqId_inj := by decide

def sharedStart : Net Bool Unit Unit where
  link := fun _ => pairStart.link ()
  pool := fun _ => ⟨true, 4, 8, 0, [], 0, 512⟩
  retryFree := fun _ => 8
  rxConsumedJettyTable := fun _ _ => 0

theorem sharedStart_opened : sharedStart.Opened :=
  ⟨by decide, fun _ => ⟨rfl, rfl⟩, fun _ => ⟨rfl, rfl⟩⟩

/-- One sender takes all the credit, the other one has to wait.  The reply to the first
one meets the given fate. -/
def sharedRequests (fate : Fate) : List (PoolEvent Bool Unit Unit) :=
  [.call (.creditReq true smooth), .call (.recvReq true 0 { smooth with fate := fate } fun _ => smooth),
    .call (.creditReq false smooth), .call (.recvReq false 0 smooth fun _ => smooth)]

theorem sharedRequests_waiting :
    sharedStart.Opened ∧
      (((sharedRequests .delivered).foldl (Net.poolEvent sharedTopology) sharedStart).pool ()).pendingList ≠ [] ∧
      (((sharedRequests .delivered).foldl (Net.poolEvent sharedTopology) sharedStart).pool ()).idle = 0 := by
  have waiting : (((sharedRequests .delivered).foldl (Net.poolEvent sharedTopology) sharedStart).pool ()).pendingList ≠
      [] := by decide
  refine ⟨sharedStart_opened, waiting,
    creditPool_idle_of_waiting sharedTopology sharedStart_opened (Run.ofList ?_) () waiting⟩
  have quiet : ∀ net : Net Bool Unit Unit, ∀ cr ∈ (smooth : SendEnv Bool).crs, cr.Quiet sharedTopology net := by
    intro net cr mem
    cases mem
  have served : ∀ (pool : UbCreditPool Bool), pool.Serves fun _ => smooth := fun _ _ _ => rfl
  exact ⟨quiet _, ⟨quiet _, fun _ _ _ => served _⟩, quiet _, ⟨quiet _, fun _ _ _ => served _⟩, trivial⟩

/-- The failure of that reply is reaped. -/
def sharedFailure : List (PoolEvent Bool Unit Unit) :=
  sharedRequests .failed ++ [.call (.pollFcTx (.polled [.failedRep true 0 false]))]

/-- When the reply to the first sender fails, its credit is idle again and the second
sender keeps waiting. -/
theorem creditPool_failedReply_waits :
    sharedStart.Opened ∧
      ((sharedFailure.foldl (Net.poolEvent sharedTopology) sharedStart).pool ()).pendingList ≠ [] ∧
      ¬ ((sharedFailure.foldl (Net.poolEvent sharedTopology) sharedStart).pool ()).idle = 0 := by
  refine ⟨sharedStart_opened, ?_⟩
  decide

end UbsComm.FlowControl
