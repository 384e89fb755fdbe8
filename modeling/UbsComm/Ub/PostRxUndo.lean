import UbsComm.Ub.PostRxBuild

/-! # Undoing a receive post

Whatever stops `umq_ub_post_rx_inner_impl`, the contexts of the requests that URMA did
not take go back to the idle list and the buffers behind them are linked as before.
What it reports is another matter: a request that URMA rejects is reported by the
address of its context, and if URMA names no request, all of them are counted as
posted. -/

namespace UbsComm.Ub

open Library List

variable {call : RxCall} {groups : List Group} {left : List UmqBuf} {wrs : List UrmaJfrWr} {state : RxState}

/-! ## Relinking

Between two requests of `process_bad_wr` the cells of the requests behind it are one
chain, whose last cell is the one it remembers. -/

@[simp] theorem setNext_qbufNext {state : RxState} {cell : Nat} {next : Option Nat} :
    (state.setNext cell next).qbufNext = Function.update state.qbufNext cell next := rfl

/-- What the pass over the requests relies on. -/
structure Relinking (fuel : Nat) (done : List Nat) (groups : List Group) (state : RxState) : Prop where
  nodup : (done ++ (groups.map Group.cells).flatten).Nodup
  done : Linked state.qbufNext done none
  heads : ∀ group ∈ groups, group.cells.head? = some (state.ctxBuffer group.ctx)
  closed : ∀ group ∈ groups, Linked state.qbufNext group.cells none
  short : ∀ group ∈ groups, group.cells.length ≤ fuel

/-- The chain of done cells, with its end redirected. -/
def relink (state : RxState) (done : List Nat) (next : Option Nat) : RxState :=
  done.getLast?.elim state fun cell => state.setNext cell next

@[simp] theorem relink_ctxBuffer {state : RxState} {done : List Nat} {next : Option Nat} :
    (relink state done next).ctxBuffer = state.ctxBuffer := by
  unfold relink
  cases done.getLast? <;> rfl

variable {done : List Nat} {wr : UrmaJfrWr} {count : Nat} {group : Group} {badWr : Option Nat}

theorem relink_other {cell : Nat} (outside : cell ∉ done) {next : Option Nat} :
    (relink state done next).qbufNext cell = state.qbufNext cell := by
  unfold relink
  cases last : done.getLast? with
  | none => rfl
  | some other =>
    have ne : cell ≠ other := by
      rintro rfl
      exact outside (mem_of_getLast? last)
    exact Function.update_of_ne ne ..

theorem relink_linked (linked : Linked state.qbufNext done none) (nodup : done.Nodup)
    (next : Option Nat) : Linked (relink state done next).qbufNext done next := by
  obtain rfl | ⟨front, last, rfl⟩ := eq_nil_or_concat done
  · trivial
  · rw [concat_eq_append] at linked nodup ⊢
    have fresh : last ∉ front := by
      intro repeated
      exact (nodup_append.mp nodup).2.2 last repeated last mem_cons_self rfl
    simpa [relink] using linked.redirect fresh next

theorem Relinking.step {fuel : Nat} (relinking : Relinking fuel done (group :: groups) state) :
    Relinking fuel (done ++ group.cells) groups
      (queueRxBufCtxPut (relink state done (some (state.ctxBuffer group.ctx))) group.ctx) ∧
    (done ++ group.cells).getLast? = some (follow
      (relink state done (some (state.ctxBuffer group.ctx))).qbufNext fuel (state.ctxBuffer group.ctx)) := by
  have nodup := relinking.nodup
  rw [map_cons, flatten_cons, ← append_assoc] at nodup
  have first := relinking.heads group mem_cons_self
  have outside : ∀ other ∈ group :: groups, ∀ cell ∈ other.cells, cell ∉ done := by
    intro other listed cell mem finished
    refine (nodup_append.mp relinking.nodup).2.2 cell finished cell ?_ rfl
    exact mem_flatten.mpr ⟨_, mem_map_of_mem listed, mem⟩
  have closed : ∀ other ∈ group :: groups,
      Linked (relink state done (some (state.ctxBuffer group.ctx))).qbufNext other.cells none := by
    intro other listed
    refine (relinking.closed other listed).congr fun cell mem => ?_
    exact relink_other (outside other listed cell mem)
  have current := closed group mem_cons_self
  have joined := relink_linked relinking.done (nodup_append.mp relinking.nodup).1
    (some (state.ctxBuffer group.ctx))
  constructor
  · refine
      { nodup := nodup
        done := ?_
        heads := fun other listed => by simpa [queueRxBufCtxPut] using relinking.heads other (mem_cons_of_mem _ listed)
        closed := fun other listed => closed other (mem_cons_of_mem _ listed)
        short := fun other listed => relinking.short other (mem_cons_of_mem _ listed) }
    obtain ⟨more, shape⟩ := head?_eq_some_iff.mp first
    rw [shape] at current ⊢
    exact linked_append_cons.mpr ⟨joined, current⟩
  · obtain empty | ⟨front, last, shape⟩ := eq_nil_or_concat group.cells
    · rw [empty] at first
      cases first
    · rw [concat_eq_append] at shape
      have short := relinking.short group mem_cons_self
      rw [shape] at current first short ⊢
      have enough : front.length ≤ fuel := by
        rw [length_append] at short
        exact Nat.le_of_add_right_le short
      simp [current.follow_eq first enough]

theorem processBadWr_nil {fuel : Nat} {endBuf : Option Nat} {done : List Nat} {state : RxState} :
    processBadWr fuel endBuf done.getLast? [] state = relink state done endBuf := by
  unfold relink
  cases done.getLast? <;> rfl

theorem processBadWr_cons {fuel : Nat} {endBuf lastFailEnd : Option Nat} {wr : UrmaJfrWr} {wrs : List UrmaJfrWr}
    {state : RxState} :
    let linked := lastFailEnd.elim state fun cell => state.setNext cell (some (state.ctxBuffer wr.userCtx))
    processBadWr fuel endBuf lastFailEnd (wr :: wrs) state =
      processBadWr fuel endBuf (some (follow linked.qbufNext fuel (state.ctxBuffer wr.userCtx))) wrs
        (queueRxBufCtxPut linked wr.userCtx) := by
  cases lastFailEnd <;> rfl

theorem processBadWr_linked {fuel : Nat} (relinking : Relinking fuel done groups state)
    (endBuf : Option Nat) (same : wrs.map (·.userCtx) = groups.map (·.ctx)) :
    Linked (processBadWr fuel endBuf done.getLast? wrs state).qbufNext
        (done ++ (groups.map Group.cells).flatten) endBuf ∧
      ∀ cell ∉ done ++ (groups.map Group.cells).flatten,
        (processBadWr fuel endBuf done.getLast? wrs state).qbufNext cell = state.qbufNext cell := by
  induction wrs generalizing groups done state with
  | nil =>
    cases map_eq_nil_iff.mp same.symm
    rw [processBadWr_nil]
    simp only [map_nil, flatten_nil, append_nil]
    have nodup := (nodup_append.mp relinking.nodup).1
    exact ⟨relink_linked relinking.done nodup endBuf, fun cell outside => relink_other outside⟩
  | cons wr wrs ih =>
    cases groups with
    | nil => cases same
    | cons group groups =>
      rw [map_cons, map_cons, cons.injEq] at same
      obtain ⟨sameCtx, same⟩ := same
      obtain ⟨next, last⟩ := relinking.step
      obtain ⟨linked, others⟩ := ih next same
      rw [last] at linked others
      rw [processBadWr_cons, sameCtx, map_cons, flatten_cons, ← append_assoc]
      refine ⟨linked, fun cell outside => (others cell outside).trans ?_⟩
      have skipped : cell ∉ done := fun finished =>
        outside (mem_append_left _ (mem_append_left _ finished))
      exact relink_other skipped

theorem processBadWr_contexts (fuel : Nat) (endBuf lastFailEnd : Option Nat) {base : List Nat}
    (used : state.used = base ++ wrs.map (·.userCtx)) (nodup : (state.idle ++ state.used).Nodup) :
    (processBadWr fuel endBuf lastFailEnd wrs state).idle = state.idle ++ wrs.map (·.userCtx) ∧
      (processBadWr fuel endBuf lastFailEnd wrs state).used = base := by
  induction wrs generalizing lastFailEnd state with
  | nil =>
    rw [map_nil, append_nil] at used ⊢
    cases lastFailEnd with
    | none | some cell => exact ⟨rfl, used⟩
  | cons wr wrs ih =>
    rw [processBadWr_cons]
    generalize kept : lastFailEnd.elim state (fun cell => state.setNext cell (some (state.ctxBuffer wr.userCtx))) =
      linked
    have same : linked.idle = state.idle ∧ linked.used = state.used := by
      rw [← kept]
      cases lastFailEnd <;> exact ⟨rfl, rfl⟩
    rw [map_cons] at used
    have nodup' := nodup
    rw [used] at nodup'
    have unlisted : wr.userCtx ∉ state.idle ∧ wr.userCtx ∉ base := by
      grind
    have idle : (queueRxBufCtxPut linked wr.userCtx).idle = state.idle ++ [wr.userCtx] := by
      simp only [queueRxBufCtxPut, same.1, erase_of_not_mem unlisted.1]
    have rest : (queueRxBufCtxPut linked wr.userCtx).used = base ++ wrs.map (·.userCtx) := by
      simp only [queueRxBufCtxPut, same.2, used, erase_append_right _ unlisted.2, erase_cons_head]
    have moved : ((queueRxBufCtxPut linked wr.userCtx).idle ++ (queueRxBufCtxPut linked wr.userCtx).used).Nodup := by
      rw [idle, rest]
      refine (List.Perm.nodup_iff ?_).mp nodup'
      rw [append_assoc]
      exact (perm_middle).append_left _
    obtain ⟨idle', used'⟩ := ih _ rest moved
    refine ⟨idle'.trans ?_, used'⟩
    rw [idle, append_assoc, singleton_append, map_cons]

/-! ## Undoing the requests behind an accepted prefix -/

theorem Group.cells_length_le (listed : group ∈ groups) :
    group.cells.length ≤ ((groups.map (·.buffers)).flatten ++ left).length := by
  have inside : group.buffers.Sublist (groups.map (·.buffers)).flatten :=
    sublist_flatten_of_mem (mem_map_of_mem listed)
  rw [Group.cells, length_map, length_append]
  exact Nat.le_add_right_of_le inside.length_le

section

variable (cut : Cut call groups left wrs state)
include cut

theorem Cut.drop_cells_nodup {count : Nat} :
    (((groups.drop count).map Group.cells).flatten ++ left.map (·.addr)).Nodup := by
  have nodup := cut.cells_nodup
  rw [← take_append_drop count groups, map_append, flatten_append, append_assoc] at nodup
  exact (nodup_append.mp nodup).2.1

theorem Cut.relinking {count : Nat} :
    Relinking call.chain.length [] (groups.drop count) state where
  nodup := (nodup_append.mp cut.drop_cells_nodup).1
  done := trivial
  heads := fun group listed => cut.heads group (mem_of_mem_drop listed)
  closed := fun group listed => cut.closed group (mem_of_mem_drop listed)
  short := fun _ listed => cut.chain ▸ Group.cells_length_le (mem_of_mem_drop listed)

/-- The requests from `count` on are given up: their contexts become idle again, and
their buffers are linked to what is left of the chain. -/
theorem Cut.undo (count : Nat) :
    let undone := processBadWr call.chain.length (left.head?.map (·.addr)) none (wrs.drop count) state
    ((wrs.take count).map (·.userCtx) ++ undone.idle).Perm call.state.idle ∧
      undone.used = call.state.used ++ (wrs.take count).map (·.userCtx) ∧
      Linked undone.qbufNext (((groups.drop count).map Group.cells).flatten ++ left.map (·.addr)) none := by
  intro undone
  have parts : (wrs.take count).map (·.userCtx) ++ (wrs.drop count).map (·.userCtx) = groups.map (·.ctx) := by
    rw [← map_append, take_append_drop, cut.wrs]
  have used : state.used = call.state.used ++ (wrs.take count).map (·.userCtx) ++ (wrs.drop count).map (·.userCtx) := by
    rw [cut.used, append_assoc, parts]
  have nodup : (state.idle ++ state.used).Nodup := by
    refine (List.Perm.nodup_iff ?_).mp cut.contexts_nodup
    grind
  obtain ⟨idle, unused⟩ := processBadWr_contexts call.chain.length (left.head?.map (·.addr)) none used nodup
  have same : (wrs.drop count).map (·.userCtx) = (groups.drop count).map (·.ctx) := by
    rw [map_drop, cut.wrs, map_drop]
  obtain ⟨linked, others⟩ := processBadWr_linked cut.relinking (left.head?.map (·.addr)) same
  refine ⟨?_, unused, ?_⟩
  · refine List.Perm.trans ?_ cut.idle
    rw [idle, ← parts, append_assoc]
    exact perm_append_comm.append_left _
  · cases left with
    | nil =>
      rw [map_nil, append_nil]
      exact linked
    | cons buffer left =>
      refine linked_append_cons.mpr ⟨linked, cut.rest.congr fun cell listed => others cell ?_⟩
      intro mem
      exact (nodup_append.mp cut.drop_cells_nodup).2.2 cell mem cell listed rfl

end

theorem Cut.first_buffer (cut : Cut call groups left (wr :: wrs) state) :
    state.ctxBuffer wr.userCtx = call.first.addr := by
  have same := cut.wrs
  have chain := cut.chain
  cases groups with
  | nil => cases same
  | cons group groups =>
    have first := cut.heads group mem_cons_self
    rw [map_cons, map_cons, cons.injEq] at same
    rw [Group.cells, head?_map] at first
    cases shape : group.buffers with
    | nil =>
      rw [shape] at first
      cases first
    | cons buffer buffers =>
      rw [shape, head?_cons, Option.map_some, Option.some.injEq] at first
      rw [map_cons, shape, RxCall.chain, flatten_cons, cons_append, cons_append,
        cons.injEq] at chain
      rw [same.1, ← first, chain.1]

theorem Cut.skip (cut : Cut call groups left wrs state) (inRange : count ≤ wrs.length) :
    (skipRequests count call.chain).map (·.addr) =
      ((groups.drop count).map Group.cells).flatten ++ left.map (·.addr) := by
  have inRange' : count ≤ (groups.map (·.buffers)).length := by
    have sameLength := congrArg length cut.wrs
    rw [length_map, length_map] at sameLength
    rwa [length_map, ← sameLength]
  have requests : ∀ buffers ∈ groups.map (·.buffers), IsRxRequest call.queue buffers :=
    forall_mem_map.mpr cut.requests
  rw [cut.chain, skipRequests_groups requests inRange', map_append, ← map_drop, map_flatten, map_map]
  rfl

theorem Cut.undone (cut : Cut call groups left wrs state) (inRange : count ≤ wrs.length)
    {result : RxResult} (accepted : result.accepted = wrs.take count)
    (same : result.state = processBadWr call.chain.length (left.head?.map (·.addr)) none (wrs.drop count) state) :
    PostRxUndone call result := by
  obtain ⟨idle, used, linked⟩ := cut.undo count
  have length : result.accepted.length = count := by
    rw [accepted, length_take, Nat.min_eq_left inRange]
  refine ⟨?_, ?_, ?_⟩
  · rw [accepted, same]
    exact idle
  · rw [accepted, same]
    exact used
  · rw [RxCall.unaccepted, length, cut.skip inRange, same]
    exact linked

theorem umqUbRxSubmit_failed {status : UrmaError} (post : call.urmaPost = .failed status badWr)
    (wrs : List UrmaJfrWr) (state : RxState) :
    (∃ index bad, wrs[index]? = some bad ∧
      umqUbRxSubmit call wrs state = ⟨.error (umqStatusConvert status), some bad.userCtx, wrs.take index,
        umqUbRqePostedCntInc call.flow (wrs.length - umqUbPostRxFailedNum wrs bad.userCtx),
        processBadWr call.chain.length none none (wrs.drop index) state⟩) ∨
    umqUbRxSubmit call wrs state = ⟨.error (umqStatusConvert status), some call.first.addr, [],
      umqUbRqePostedCntInc call.flow (wrs.length - umqUbPostRxFailedNum wrs call.first.addr),
      processBadWr call.chain.length none none wrs state⟩ := by
  unfold umqUbRxSubmit
  rw [post]
  cases badWr with
  | none => exact .inr rfl
  | some index =>
    cases found : wrs[index]? with
    | none =>
      have outside : ¬ index < wrs.length := Nat.not_lt.mpr (getElem?_eq_none_iff.mp found)
      exact .inr (by simp [UrmaPost.taken, outside])
    | some bad =>
      obtain ⟨inside, rfl⟩ := List.getElem?_eq_some_iff.mp found
      exact .inl ⟨index, _, found, by simp [UrmaPost.taken, inside]⟩

theorem umqUbRxSubmit_undone (cut : Cut call groups [] wrs state) :
    PostRxUndone call (umqUbRxSubmit call wrs state) := by
  cases post : call.urmaPost with
  | success =>
    -- nothing is given up
    unfold umqUbRxSubmit
    rw [post]
    refine cut.undone le_rfl (take_length).symm ?_
    rw [drop_length]
    rfl
  | failed status badWr =>
    obtain ⟨index, bad, found, result⟩ | result := umqUbRxSubmit_failed post wrs state
    · have inside := (List.getElem?_eq_some_iff.mp found).1
      exact cut.undone inside.le (congrArg RxResult.accepted result) (congrArg RxResult.state result)
    · exact cut.undone (Nat.zero_le _) (congrArg RxResult.accepted result) (congrArg RxResult.state result)

/-- The two ways a call ends: before URMA, with everything given up, or behind it. -/
theorem umqUbPostRxInnerImpl_cases (call : RxCall) :
    (¬ call.Postable ∧ ∃ err groups buffer left wrs state, Cut call groups (buffer :: left) wrs state ∧
      umqUbPostRxInnerImpl call = ⟨.error err, some call.first.addr, [], call.flow,
        processBadWr call.chain.length (some buffer.addr) none wrs state⟩) ∨
    (call.Postable ∧ ∃ groups wrs state, Cut call groups [] wrs state ∧ wrs.length ≤ umqBatchSize ∧
      umqUbPostRxInnerImpl call = umqUbRxSubmit call wrs state) := by
  have leaves := umqUbRxBuild_leaves umqBatchSize call.cut
  unfold umqUbPostRxInnerImpl
  cases pass : umqUbRxBuild call.queue umqBatchSize [] call.chain call.state with
  | built wrs state =>
    rw [pass] at leaves
    obtain ⟨groups, cut⟩ := leaves
    have short : wrs.length ≤ umqBatchSize := by simpa using umqUbRxBuild_length pass
    exact .inr ⟨umqUbRxBuild_builds pass, groups, wrs, state, cut, short, rfl⟩
  | stopped err wrs state cell =>
    rw [pass] at leaves
    obtain ⟨groups, buffer, left, cut, rfl⟩ := leaves
    refine .inl ⟨fun postable => ?_, err, groups, buffer, left, wrs, state, cut, ?_⟩
    · obtain ⟨wrs', state', built⟩ := postable.built [] rfl
      cases pass.symm.trans built
    · cases wrs with
      | nil => rfl
      | cons wr wrs =>
        simp only [cut.first_buffer]

theorem umqUbPostRxInnerImpl_undone (call : RxCall) : PostRxUndone call (umqUbPostRxInnerImpl call) := by
  obtain ⟨_, err, groups, buffer, left, wrs, state, cut, result⟩ | ⟨_, groups, wrs, state, cut, _, result⟩ :=
    umqUbPostRxInnerImpl_cases call
  · rw [result]
    exact cut.undone (Nat.zero_le _) rfl rfl
  · rw [result]
    exact umqUbRxSubmit_undone cut

/-! ## What is recharged and reported -/

theorem umqUbRqePostedCntInc_zero {flow : RqeFlow} : umqUbRqePostedCntInc flow 0 = flow := by
  obtain ⟨factor, depth, done, count, recharged, prefilling⟩ := flow
  cases done with
  | true => rfl
  | false =>
    have short := prefilling rfl
    have small : count % 2 ^ 32 = count := Nat.mod_eq_of_lt (short.trans (Nat.mod_lt _ (by decide)))
    simp only [umqUbRqePostedCntInc, Bool.false_eq_true, dite_false, Nat.add_zero, small, Nat.not_le.mpr short]

theorem umqUbRqePostedCntInc_eq_self {flow : RqeFlow} (small : count < 2 ^ 32)
    (same : umqUbRqePostedCntInc flow count = flow) : count = 0 := by
  obtain ⟨factor, depth, done, posted, recharged, prefilling⟩ := flow
  cases done with
  | true =>
    have recharge : recharged + count = recharged := congrArg RqeFlow.recharged same
    omega
  | false =>
    have counted : (posted + count) % 2 ^ 32 = posted := by
      have total := congrArg RqeFlow.prefillRqeCnt same
      simp only [umqUbRqePostedCntInc, Bool.false_eq_true, dite_false] at total
      split at total <;> exact total
    omega

theorem Cut.ctx_idle (cut : Cut call groups left wrs state) (listed : wr ∈ wrs) : wr.userCtx ∈ call.state.idle := by
  have named : wr.userCtx ∈ groups.map (·.ctx) := cut.wrs ▸ mem_map_of_mem listed
  exact cut.idle.mem_iff.mp (mem_append_left _ named)

theorem Cut.ctx_ne_buffer (cut : Cut call groups left wrs state) (listed : wr ∈ wrs)
    {buffer : UmqBuf} (chained : buffer ∈ call.chain) : wr.userCtx ≠ buffer.addr := by
  intro same
  exact call.separate _ (cut.ctx_idle listed) (same ▸ mem_map_of_mem chained)

theorem Cut.wrs_ne_nil (cut : Cut call groups [] wrs state) : wrs ≠ [] := by
  rintro rfl
  have chain := cut.chain
  rw [map_eq_nil_iff.mp cut.wrs.symm] at chain
  cases chain

theorem skipBytes_subset {missing : Nat} {chain : List UmqBuf} : skipBytes missing chain ⊆ chain := by
  fun_induction skipBytes missing chain with
  | case1 | case2 => exact List.Subset.refl _
  | case3 missing buffer rest ih => exact subset_cons_of_subset _ ih

theorem skipRequests_subset (count : Nat) (chain : List UmqBuf) : skipRequests count chain ⊆ chain := by
  fun_induction skipRequests count chain with
  | case1 | case2 => exact List.Subset.refl _
  | case3 count buffer rest ih => exact List.Subset.trans ih skipBytes_subset

/-- A rejection is never accounted for: the reported pointer is a context, or requests
that were not posted are counted. -/
theorem umqUbRxSubmit_rejected (cut : Cut call groups [] wrs state) (short : wrs.length ≤ umqBatchSize)
    {status : UrmaError} (post : call.urmaPost = .failed status badWr) :
    ¬ PostRxExact call (umqUbRxSubmit call wrs state) := by
  intro exact
  obtain ⟨index, bad, found, result⟩ | result := umqUbRxSubmit_failed post wrs state
  · rw [result] at exact
    obtain ⟨first, unaccepted, reported⟩ := exact.bad (by rintro ⟨⟩)
    have chained := skipRequests_subset _ _ (mem_of_head? unaccepted)
    exact cut.ctx_ne_buffer (mem_of_getElem? found) chained (Option.some.inj reported)
  · rw [result] at exact
    have unfound : umqUbPostRxFailedNum wrs call.first.addr = 0 := by
      have nowhere : wrs.findIdx? (fun wr => wr.userCtx = call.first.addr) = none := by
        rw [findIdx?_eq_none_iff]
        intro wr listed
        exact decide_eq_false (cut.ctx_ne_buffer listed mem_cons_self)
      simp [umqUbPostRxFailedNum, nowhere]
    have counted : umqUbRqePostedCntInc call.flow wrs.length = call.flow := by
      have recharged := exact.recharged
      simpa [unfound, umqUbRqePostedCntInc_zero] using recharged
    have small : wrs.length < 2 ^ 32 := lt_of_le_of_lt short (by decide)
    exact cut.wrs_ne_nil (length_eq_zero_iff.mp (umqUbRqePostedCntInc_eq_self small counted))

theorem umqUbPostRxInnerImpl_exact_iff (call : RxCall) :
    PostRxExact call (umqUbPostRxInnerImpl call) ↔ (call.Postable → call.urmaPost = .success) := by
  have undone := umqUbPostRxInnerImpl_undone call
  obtain ⟨stopped, err, groups, buffer, left, wrs, state, cut, result⟩ |
    ⟨postable, groups, wrs, state, cut, short, result⟩ := umqUbPostRxInnerImpl_cases call
  · refine ⟨fun _ postable => absurd postable stopped, fun _ => ?_⟩
    rw [result] at undone ⊢
    exact
      { undone with
        recharged := umqUbRqePostedCntInc_zero.symm
        bad := fun _ => ⟨call.first, rfl, rfl⟩ }
  · rw [result] at undone ⊢
    constructor
    · intro exact _
      cases post : call.urmaPost with
      | success => rfl
      | failed status badWr => exact absurd exact (umqUbRxSubmit_rejected cut short post)
    · intro succeeds
      have success := succeeds postable
      have accepted : umqUbRxSubmit call wrs state =
          ⟨.ok (), none, wrs, umqUbRqePostedCntInc call.flow wrs.length, state⟩ := by
        simp only [umqUbRxSubmit, success]
      rw [accepted] at undone ⊢
      exact
        { undone with
          recharged := rfl
          bad := fun failed => absurd rfl failed }

/-- Two buffers of 64 bytes at the addresses 1 and 2, contexts at 8 and 9. -/
def pairCall (badWr : Option Nat) : RxCall where
  queue := ⟨1, fun _ => true⟩
  urmaPost := .failed .enomem badWr
  flow := ⟨1, 4, true, 4, 4, by decide⟩
  state := ⟨[8, 9], [], fun _ => 0, fun cell => if cell = 1 then some 2 else none⟩
  first := ⟨1, 64, 64, 1000, 0, false, .send, IoImm.zero, ⟨0, 0⟩⟩
  rest := [⟨2, 64, 64, 2000, 0, false, .send, IoImm.zero, ⟨0, 0⟩⟩]
  distinct := by decide
  linked := ⟨rfl, rfl⟩
  contexts := by decide
  separate := by decide

/-- With the second request rejected the caller gets the address of its context; with
no request named, two requests are recharged though none was accepted. -/
theorem umqUbPostRxInnerImpl_rejectedPair :
    (umqUbPostRxInnerImpl (pairCall (some 1))).badQbuf = some 9 ∧
      ¬ PostRxExact (pairCall (some 1)) (umqUbPostRxInnerImpl (pairCall (some 1))) ∧
    (umqUbPostRxInnerImpl (pairCall none)).accepted = [] ∧
      (umqUbPostRxInnerImpl (pairCall none)).flow.recharged = (pairCall none).flow.recharged + 2 ∧
      ¬ PostRxExact (pairCall none) (umqUbPostRxInnerImpl (pairCall none)) := by
  have reported : (umqUbPostRxInnerImpl (pairCall (some 1))).badQbuf = some 9 := by decide
  have accepted : (umqUbPostRxInnerImpl (pairCall none)).accepted = [] := by decide
  have recharged : (umqUbPostRxInnerImpl (pairCall none)).flow.recharged = (pairCall none).flow.recharged + 2 := by
    decide
  refine ⟨reported, fun exact => ?_, accepted, recharged, fun exact => ?_⟩
  · obtain ⟨first, unaccepted, same⟩ := exact.bad (by rintro ⟨⟩)
    have second : ((pairCall (some 1)).unaccepted (umqUbPostRxInnerImpl (pairCall (some 1)))).head?.map (·.addr) =
        some 2 := by decide
    rw [unaccepted] at second
    cases same.trans second
  · have expected := congrArg RqeFlow.recharged exact.recharged
    exact absurd expected (by decide)

end UbsComm.Ub
