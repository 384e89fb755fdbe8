import UbsComm.Ub.PostRx

/-! # The forward pass of a receive post

What a call should do, the chains that can be posted at all, and the state in which the
forward pass leaves the buffers and contexts. -/

namespace UbsComm.Ub

open Library List Function

/-! ## What a call should do -/

/-- The chain behind the buffers that make up `missing` bytes. -/
def skipBytes : Nat → List UmqBuf → List UmqBuf
  | 0, chain => chain
  | _ + 1, [] => []
  | missing + 1, buffer :: rest => skipBytes (missing + 1 - buffer.dataSize) rest

/-- The chain behind its first `count` work requests. -/
def skipRequests : Nat → List UmqBuf → List UmqBuf
  | 0, chain => chain
  | _ + 1, [] => []
  | count + 1, buffer :: rest => skipRequests count (skipBytes buffer.totalDataSize (buffer :: rest))

variable (call : RxCall)

/-- The buffers of the requests that were not accepted. -/
def RxCall.unaccepted (result : RxResult) : List UmqBuf :=
  skipRequests result.accepted.length call.chain

/-- The contexts of the accepted requests have moved from the idle list to the used list,
and the buffers of the others are linked in their order. -/
structure PostRxUndone (result : RxResult) : Prop where
  idle : (result.accepted.map (·.userCtx) ++ result.state.idle).Perm call.state.idle
  used : result.state.used = call.state.used ++ result.accepted.map (·.userCtx)
  linked : Linked result.state.qbufNext ((call.unaccepted result).map (·.addr)) none

/-- What the caller can rely on, and what flow control is told. -/
structure PostRxExact (result : RxResult) : Prop extends PostRxUndone call result where
  recharged : result.flow = umqUbRqePostedCntInc call.flow result.accepted.length
  bad : result.ret ≠ .ok () →
    ∃ first, (call.unaccepted result).head? = some first ∧ result.badQbuf = some first.addr

/-! ## Chains that can be posted -/

def RxQueue.Registered (queue : RxQueue) (buffer : UmqBuf) : Prop :=
  buffer.mempoolId ≠ qbufPoolMempoolIdMax ∧ queue.tsegList buffer.mempoolId = true

/-- The buffers make up exactly `restSize` bytes, none is superfluous, and there are at
most `room` of them. -/
inductive Fills (queue : RxQueue) : Nat → Nat → List UmqBuf → Prop where
  | done {room : Nat} : Fills queue 0 room []
  | more {restSize room : Nat} {buffer : UmqBuf} {taken : List UmqBuf} (missing : restSize ≠ 0)
      (registered : queue.Registered buffer) (fits : buffer.dataSize ≤ restSize)
      (others : Fills queue (restSize - buffer.dataSize) room taken) :
      Fills queue restSize (room + 1) (buffer :: taken)

structure IsRxRequest (queue : RxQueue) (taken : List UmqBuf) : Prop where
  headed : ∃ head, taken.head? = some head ∧ head.totalDataSize ≠ 0 ∧
    Fills queue head.totalDataSize queue.maxRxSge taken

/-- The chain can be cut into at most `slots` requests, and there is a context for each. -/
inductive RxBuilds (queue : RxQueue) : Nat → Nat → List UmqBuf → Prop where
  | done {slots contexts : Nat} : RxBuilds queue slots contexts []
  | request {slots contexts : Nat} {taken rest : List UmqBuf} (request : IsRxRequest queue taken)
      (others : RxBuilds queue slots contexts rest) : RxBuilds queue (slots + 1) (contexts + 1) (taken ++ rest)

/-- The chain is handed to URMA. -/
def RxCall.Postable : Prop := RxBuilds call.queue umqBatchSize call.state.idle.length call.chain

variable {queue : RxQueue} {restSize room : Nat} {sges : List UrmaSge} {chain taken rest left : List UmqBuf}
  {filled : RxFilled}

theorem umqUbRxFill_fills (ok : umqUbRxFill queue restSize sges chain = .ok filled) :
    chain = filled.taken ++ filled.rest ∧ Fills queue restSize (queue.maxRxSge - sges.length) filled.taken := by
  induction chain generalizing restSize sges filled with
  | nil =>
    unfold umqUbRxFill at ok
    split at ok
    · cases ok
    · rename_i complete
      cases ok
      cases not_not.mp complete
      exact ⟨rfl, .done⟩
  | cons buffer chain ih =>
    unfold umqUbRxFill at ok
    split_ifs at ok with complete full escaped unregistered large
    · cases ok
      cases complete
      exact ⟨rfl, .done⟩
    · cases inner : umqUbRxFill queue (restSize - buffer.dataSize)
        (sges ++ [⟨buffer.bufData, buffer.dataSize, buffer.mempoolId⟩]) chain with
      | error err =>
        rw [inner] at ok
        cases ok
      | ok more =>
        rw [inner] at ok
        cases ok
        obtain ⟨same, fills⟩ := ih inner
        refine ⟨by simp [← same], ?_⟩
        have room : queue.maxRxSge - sges.length = queue.maxRxSge - (sges.length + 1) + 1 := by omega
        rw [room]
        rw [length_append] at fills
        exact .more complete ⟨escaped, by simpa using unregistered⟩ (Nat.le_of_not_lt large) fills

theorem Fills.nil (fills : Fills queue restSize room []) : restSize = 0 := by
  cases fills
  rfl

theorem Fills.fill (fills : Fills queue restSize room taken) (sges : List UrmaSge)
    (fits : room = queue.maxRxSge - sges.length) (rest : List UmqBuf) :
    ∃ sges', umqUbRxFill queue restSize sges (taken ++ rest) = .ok ⟨sges', taken, rest⟩ := by
  induction fills generalizing sges with
  | done =>
    cases rest with
    | nil | cons => exact ⟨sges, rfl⟩
  | @more restSize room buffer taken missing registered small others ih =>
    obtain ⟨sges', inner⟩ := ih (sges ++ [⟨buffer.bufData, buffer.dataSize, buffer.mempoolId⟩])
      (by simp; omega)
    have space : ¬ sges.length ≥ queue.maxRxSge := by omega
    have fits : ¬ restSize < buffer.dataSize := Nat.not_lt.mpr small
    refine ⟨sges', ?_⟩
    simp only [cons_append, umqUbRxFill, missing, space, registered.1, registered.2, fits, inner]
    rfl

theorem Fills.skipBytes (fills : Fills queue restSize room taken) {rest : List UmqBuf} :
    Ub.skipBytes restSize (taken ++ rest) = rest := by
  induction fills with
  | done => cases rest <;> rfl
  | @more restSize room buffer taken missing registered small others ih =>
    obtain ⟨bytes, rfl⟩ := Nat.exists_eq_succ_of_ne_zero missing
    exact ih

theorem IsRxRequest.skip (request : IsRxRequest queue taken) {count : Nat} {rest : List UmqBuf} :
    skipRequests (count + 1) (taken ++ rest) = skipRequests count rest := by
  obtain ⟨head, first, _, fills⟩ := request.headed
  obtain ⟨more, rfl⟩ := head?_eq_some_iff.mp first
  exact congrArg (skipRequests count) fills.skipBytes

theorem skipRequests_groups {groups : List (List UmqBuf)} (requests : ∀ group ∈ groups, IsRxRequest queue group)
    {count : Nat} (inRange : count ≤ groups.length) (left : List UmqBuf) :
    skipRequests count (groups.flatten ++ left) = (groups.drop count).flatten ++ left := by
  induction groups generalizing count with
  | nil =>
    cases Nat.le_zero.mp inRange
    rfl
  | cons group groups ih =>
    cases count with
    | zero => rfl
    | succ count =>
      rw [flatten_cons, append_assoc, (requests group mem_cons_self).skip]
      exact ih (fun other listed => requests other (mem_cons_of_mem _ listed))
        (Nat.le_of_succ_le_succ inRange)

/-! ## The forward pass

`Cut` describes the state between two requests: the chain falls into the buffers of the
finished requests, each a chain of its own, and the rest, which is still linked. -/

structure Group where
  ctx : Nat
  buffers : List UmqBuf

def Group.cells (group : Group) : List Nat := group.buffers.map (·.addr)

structure Cut (groups : List Group) (left : List UmqBuf) (wrs : List UrmaJfrWr) (state : RxState) : Prop where
  chain : call.chain = (groups.map (·.buffers)).flatten ++ left
  requests : ∀ group ∈ groups, IsRxRequest call.queue group.buffers
  wrs : wrs.map (·.userCtx) = groups.map (·.ctx)
  idle : (groups.map (·.ctx) ++ state.idle).Perm call.state.idle
  used : state.used = call.state.used ++ groups.map (·.ctx)
  heads : ∀ group ∈ groups, group.cells.head? = some (state.ctxBuffer group.ctx)
  closed : ∀ group ∈ groups, Linked state.qbufNext group.cells none
  rest : Linked state.qbufNext (left.map (·.addr)) none

variable {call} {groups : List Group} {wrs : List UrmaJfrWr} {state : RxState}

theorem RxCall.cut {call : RxCall} : Cut call [] call.chain [] call.state where
  chain := rfl
  requests := forall_mem_nil _
  wrs := rfl
  idle := List.Perm.refl _
  used := (append_nil _).symm
  heads := forall_mem_nil _
  closed := forall_mem_nil _
  rest := call.linked

theorem Cut.cells_nodup (cut : Cut call groups left wrs state) :
    ((groups.map Group.cells).flatten ++ left.map (·.addr)).Nodup := by
  have distinct : (call.chain.map (·.addr)).Nodup := call.distinct
  rw [cut.chain, map_append, map_flatten, map_map] at distinct
  exact distinct

theorem Cut.contexts_nodup (cut : Cut call groups left wrs state) :
    (groups.map (·.ctx) ++ state.idle ++ call.state.used).Nodup :=
  ((cut.idle.append_right _).nodup_iff).mpr call.contexts

variable {started state' : RxState} {buffer : UmqBuf} {slots contexts : Nat} {wrs' : List UrmaJfrWr}

theorem queueRxBufCtxGet_cons {ctx buffer : Nat} (found : queueRxBufCtxGet state buffer = some (ctx, started)) :
    ∃ idle, state.idle = ctx :: idle ∧ started = { state with
      idle := idle, used := state.used ++ [ctx], ctxBuffer := update state.ctxBuffer ctx buffer } := by
  unfold queueRxBufCtxGet at found
  cases same : state.idle with
  | nil => simp [same] at found
  | cons first idle =>
    simp only [same] at found
    obtain ⟨rfl, rfl⟩ := found
    exact ⟨idle, rfl, rfl⟩

/-- A request that fails gives its context back. -/
theorem Cut.put (cut : Cut call groups left wrs state) {ctx buffer : Nat}
    (found : queueRxBufCtxGet state buffer = some (ctx, started)) :
    Cut call groups left wrs (queueRxBufCtxPut started ctx) ∧ started.ctxBuffer ctx = buffer := by
  obtain ⟨idle, popped, rfl⟩ := queueRxBufCtxGet_cons found
  have nodup := cut.contexts_nodup
  have unlisted : ctx ∉ idle ∧ ctx ∉ groups.map (·.ctx) ∧ ctx ∉ call.state.used := by
    grind
  refine ⟨?_, update_self ..⟩
  refine { cut with idle := ?_, used := ?_, heads := fun group listed => ?_ }
  · have shifted : (idle.erase ctx ++ [ctx]).Perm (ctx :: idle) := by
      rw [erase_of_not_mem unlisted.1]
      exact perm_append_singleton ctx idle
    exact (shifted.append_left _).trans (popped ▸ cut.idle)
  · have free : ctx ∉ state.used := by
      rw [cut.used, mem_append, not_or]
      exact ⟨unlisted.2.2, unlisted.2.1⟩
    have erased : (state.used ++ [ctx]).erase ctx = state.used := by
      rw [erase_append_right _ free, erase_cons_head, append_nil]
    exact erased.trans cut.used
  · have ne : group.ctx ≠ ctx := by
      rintro rfl
      exact unlisted.2.1 (mem_map_of_mem listed)
    exact (cut.heads group listed).trans (congrArg some (update_of_ne ne ..).symm)

theorem cutAfter_snoc {state : RxState} {front : List UmqBuf} {last : UmqBuf} :
    cutAfter state (front ++ [last]) = state.setNext last.addr none := by
  simp [cutAfter]

/-- The buffers of a request become a chain of their own. -/
theorem cutAfter_linked {front : List UmqBuf} {last : UmqBuf}
    (linked : Linked state.qbufNext (((front ++ [last]) ++ rest).map (·.addr)) none)
    (nodup : (((front ++ [last]) ++ rest).map (·.addr)).Nodup) :
    Linked (cutAfter state (front ++ [last])).qbufNext ((front ++ [last]).map (·.addr)) none ∧
      Linked (cutAfter state (front ++ [last])).qbufNext (rest.map (·.addr)) none := by
  have alone : last.addr ∉ front.map (·.addr) ∧ last.addr ∉ rest.map (·.addr) := by
    grind
  have halves : (∃ tail, Linked state.qbufNext (front.map (·.addr) ++ [last.addr]) tail) ∧
      Linked state.qbufNext (rest.map (·.addr)) none := by
    cases rest with
    | nil => exact ⟨⟨none, by simpa using linked⟩, trivial⟩
    | cons buffer rest =>
      rw [map_append] at linked
      obtain ⟨first, second⟩ := linked_append_cons.mp linked
      exact ⟨⟨_, by simpa using first⟩, second⟩
  obtain ⟨⟨tail, first⟩, second⟩ := halves
  rw [cutAfter_snoc, map_append]
  refine ⟨first.redirect alone.1 none, second.congr fun cell listed => ?_⟩
  have ne : cell ≠ last.addr := by
    rintro rfl
    exact alone.2 listed
  exact update_of_ne ne ..

theorem cutAfter_other {cell : Nat} (outside : cell ∉ taken.map (·.addr)) :
    (cutAfter state taken).qbufNext cell = state.qbufNext cell := by
  unfold cutAfter
  split
  · rename_i last found
    have ne : cell ≠ last.addr := by
      rintro rfl
      exact outside (mem_map_of_mem (mem_of_getLast? found))
    exact update_of_ne ne ..
  · rfl

@[simp] theorem cutAfter_idle : (cutAfter state taken).idle = state.idle := by
  unfold cutAfter
  split <;> rfl

@[simp] theorem cutAfter_used : (cutAfter state taken).used = state.used := by
  unfold cutAfter
  split <;> rfl

@[simp] theorem cutAfter_ctxBuffer : (cutAfter state taken).ctxBuffer = state.ctxBuffer := by
  unfold cutAfter
  split <;> rfl

theorem Cut.request (cut : Cut call groups (taken ++ rest) wrs state) (request : IsRxRequest call.queue taken)
    {wr : UrmaJfrWr} (first : taken.head? = some buffer)
    (found : queueRxBufCtxGet state buffer.addr = some (wr.userCtx, started)) :
    Cut call (groups ++ [⟨wr.userCtx, taken⟩]) rest (wrs ++ [wr]) (cutAfter started taken) := by
  obtain ⟨idle, popped, same⟩ := queueRxBufCtxGet_cons found
  have cells := cut.cells_nodup
  have contexts := cut.contexts_nodup
  have fresh : wr.userCtx ∉ groups.map (·.ctx) := by
    rw [popped] at contexts
    simp only [nodup_append, nodup_cons, mem_append, mem_cons] at contexts
    grind
  have nodup : ((taken ++ rest).map (·.addr)).Nodup := (nodup_append.mp cells).2.1
  have outside : ∀ group ∈ groups, ∀ cell ∈ group.cells, cell ∉ taken.map (·.addr) := by
    intro group listed cell mem taken'
    refine (nodup_append.mp cells).2.2 cell ?_ cell ?_ rfl
    · exact mem_flatten.mpr ⟨_, mem_map_of_mem listed, mem⟩
    · rw [map_append]
      exact mem_append_left _ taken'
  obtain ⟨front, last, rfl⟩ : ∃ front last, taken = front ++ [last] := by
    obtain rfl | ⟨front, last, split⟩ := eq_nil_or_concat taken
    · cases first
    · exact ⟨front, last, by simpa using split⟩
  have linked : Linked started.qbufNext ((front ++ [last] ++ rest).map (·.addr)) none := by
    rw [same]
    exact cut.rest
  obtain ⟨ended, remaining⟩ := cutAfter_linked linked nodup
  have snoc : ∀ {property : Group → Prop}, (∀ group ∈ groups, property group) →
      property ⟨wr.userCtx, front ++ [last]⟩ →
      ∀ group ∈ groups ++ [⟨wr.userCtx, front ++ [last]⟩], property group := by
    intro property old new
    exact forall_mem_append.mpr ⟨old, forall_mem_singleton.mpr new⟩
  refine
    { chain := by rw [cut.chain]; simp
      requests := snoc cut.requests request
      wrs := by simp [cut.wrs]
      idle := ?_
      used := by simp [cut.used, same]
      heads := snoc (fun group listed => ?_) ?_
      closed := snoc (fun group listed => ?_) ended
      rest := remaining }
  · have moved := cut.idle
    rw [popped] at moved
    simpa [same] using moved
  · have ne : group.ctx ≠ wr.userCtx := by
      intro reused
      exact fresh (reused ▸ mem_map_of_mem listed)
    rw [cutAfter_ctxBuffer, same]
    exact (cut.heads group listed).trans (congrArg some (update_of_ne ne ..).symm)
  · rw [cutAfter_ctxBuffer, Group.cells, head?_map, first, same]
    simp
  · refine (cut.closed group listed).congr fun cell mem => ?_
    rw [cutAfter_other (outside group listed cell mem), same]

theorem umqUbRxFill_isRequest (sized : buffer.totalDataSize ≠ 0)
    (ok : umqUbRxFill queue buffer.totalDataSize [] (buffer :: rest) = .ok filled) :
    buffer :: rest = filled.taken ++ filled.rest ∧ filled.taken.head? = some buffer ∧
      IsRxRequest queue filled.taken := by
  obtain ⟨same, fills⟩ := umqUbRxFill_fills ok
  have first : filled.taken.head? = some buffer := by
    cases shape : filled.taken with
    | nil =>
      rw [shape] at fills
      exact absurd fills.nil sized
    | cons head taken =>
      rw [shape] at same
      cases same
      rfl
  exact ⟨same, first, ⟨buffer, first, sized, fills⟩⟩

/-- How the forward pass leaves the chain. -/
def RxBuild.Leaves (call : RxCall) : RxBuild → Prop
  | .built wrs state => ∃ groups, Cut call groups [] wrs state
  | .stopped _ wrs state cell => ∃ groups buffer left, Cut call groups (buffer :: left) wrs state ∧ cell = buffer.addr

theorem umqUbRxBuild_leaves (slots : Nat) (cut : Cut call groups left wrs state) :
    (umqUbRxBuild call.queue slots wrs left state).Leaves call := by
  fun_induction umqUbRxBuild call.queue slots wrs left state generalizing groups with
  | case1 => exact ⟨groups, cut⟩
  | case2 | case3 | case4 => exact ⟨groups, _, _, cut, rfl⟩
  | case5 slots wrs buffer left state sized ctx started found =>
    obtain ⟨kept, same⟩ := cut.put found
    exact ⟨groups, buffer, left, kept, same⟩
  | case6 slots wrs buffer left state sized ctx started found filled fill ih =>
    obtain ⟨same, first, request⟩ := umqUbRxFill_isRequest sized fill
    rw [same] at cut
    exact ih (cut.request request first found)

theorem RxBuilds.cons (builds : RxBuilds queue slots contexts (buffer :: rest)) :
    ∃ slots' contexts' taken others, slots = slots' + 1 ∧ contexts = contexts' + 1 ∧
      buffer :: rest = taken ++ others ∧ taken.head? = some buffer ∧ IsRxRequest queue taken ∧
      RxBuilds queue slots' contexts' others := by
  generalize same : buffer :: rest = chain at builds
  cases builds with
  | done => cases same
  | @request slots contexts taken others request builds =>
    obtain ⟨head, first, sized, fills⟩ := request.headed
    obtain ⟨more, rfl⟩ := head?_eq_some_iff.mp first
    cases same
    exact ⟨slots, contexts, _, others, rfl, rfl, rfl, rfl, request, builds⟩

theorem umqUbRxBuild_builds {slots : Nat} (built : umqUbRxBuild queue slots wrs chain state = .built wrs' state') :
    RxBuilds queue slots state.idle.length chain := by
  fun_induction umqUbRxBuild queue slots wrs chain state with
  | case1 => exact .done
  | case6 slots wrs buffer rest state sized ctx started found filled fill ih =>
    obtain ⟨idle, popped, rfl⟩ := queueRxBufCtxGet_cons found
    obtain ⟨same, first, request⟩ := umqUbRxFill_isRequest sized fill
    have others := ih built
    rw [same, popped]
    rw [cutAfter_idle] at others
    exact .request request others
  | _ => cases built

theorem RxBuilds.built (builds : RxBuilds queue slots contexts chain)
    (wrs : List UrmaJfrWr) {state : RxState} (enough : state.idle.length = contexts) :
    ∃ wrs' state', umqUbRxBuild queue slots wrs chain state = .built wrs' state' := by
  induction slots generalizing contexts chain wrs state with
  | zero =>
    cases chain with
    | nil => exact ⟨_, _, rfl⟩
    | cons buffer rest =>
      obtain ⟨_, _, _, _, impossible, _⟩ := builds.cons
      cases impossible
  | succ slots ih =>
    cases chain with
    | nil => exact ⟨_, _, rfl⟩
    | cons buffer rest =>
      obtain ⟨slots', contexts', taken, others, sameSlots, sameContexts, same, first, request, builds⟩ := builds.cons
      obtain ⟨head, first', sized, fills⟩ := request.headed
      cases sameSlots
      cases first.symm.trans first'
      obtain ⟨sges, fill⟩ := fills.fill [] rfl others
      obtain ⟨ctx, idle, popped⟩ := exists_cons_of_length_eq_add_one (enough.trans sameContexts)
      have found : queueRxBufCtxGet state buffer.addr = some (ctx, { state with
          idle := idle, used := state.used ++ [ctx],
          ctxBuffer := update state.ctxBuffer ctx buffer.addr }) := by
        simp [queueRxBufCtxGet, popped]
      unfold umqUbRxBuild
      simp only [sized, found]
      rw [same, fill]
      refine ih builds _ ?_
      simpa [popped, sameContexts] using enough

theorem umqUbRxBuild_length {slots : Nat}
    (built : umqUbRxBuild queue slots wrs chain state = .built wrs' state') : wrs'.length ≤ wrs.length + slots := by
  fun_induction umqUbRxBuild queue slots wrs chain state with
  | case1 slots wrs state =>
    cases built
    exact Nat.le_add_right ..
  | case6 slots wrs buffer rest state sized ctx started found filled fill ih =>
    have longer := ih built
    rw [length_append, length_singleton] at longer
    omega
  | _ => cases built

end UbsComm.Ub
