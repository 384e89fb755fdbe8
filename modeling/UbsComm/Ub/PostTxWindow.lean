import Mathlib.Data.List.Forall2
import UbsComm.Ub.PostTxBuild

/-! # The window after `umq_ub_post_tx`

The window is debited before the list is shortened and handed over, and every exit
recomputes what to give back from `*bad_qbuf` and from the opcode of the *last*
request.  `PostTxExact` is what a caller needs: the window fell by the receive
entries the posted requests will consume, and an error names the first request
that was not posted.  `TxCall.Accounted` is the exact condition under which a call
delivers it. -/

namespace UbsComm.Ub

open List

/-- The receive entries the given work requests take from the peer. -/
def consumedRqe (wrs : List UrmaJfsWr) : Nat := wrs.countP (·.opcode.consumesRqe)

variable (call : TxCall)

def TxCall.heads : List UmqBuf := workRequestHeads 0 call.chain

structure PostTxExact (result : TxResult) : Prop where
  window : ∀ before, call.window = some before →
    ∃ after, result.window = some after ∧ after + consumedRqe result.posted = before + result.gained
  bad : result.ret ≠ .ok () →
    ∃ head, call.heads[result.posted.length]? = some head ∧ result.badQbuf = some head.addr

/-- The number of requests the window grants out of `count`; it is only asked when the
last request of the chain consumes receive entries. -/
def txAllowed (consume : Bool) (window : Option Nat) (count : Nat) : Nat :=
  if consume then window.elim count (min · count) else count

def TxCall.allowed : Nat :=
  txAllowed (lastConsumes false call.heads) call.entryCheck.2.1 call.heads.length

/-- How many of `count` requests fit under the node's borrow limit.  A node that is
already above its limit does not hold anything back. -/
def JettyNode.room (node : JettyNode) (count : Nat) : Nat :=
  if node.txOutstanding.val ≤ node.borrowLimit.val then
    if node.txOutstanding.val + count < 2 ^ 32 then min count (node.borrowLimit.val - node.txOutstanding.val)
    else count
  else min count (node.borrowLimit.val + 2 ^ 32 - node.txOutstanding.val)

/-- How many of the `maxTx` requests get to URMA. -/
def txHanded (queue : TxQueue) (env : TxEnv) (maxTx : Nat) : Nat :=
  if queue.logicQueue then
    match env.jettyNode with
    | .error _ => 0
    | .ok node => if node.isJettyErr then 0 else node.room maxTx
  else maxTx

/-- The requests stop at a borrowed jetty that is marked as broken. -/
def BrokenJetty (queue : TxQueue) (env : TxEnv) (maxTx : Nat) : Prop :=
  queue.logicQueue = true ∧ ∃ node, env.jettyNode = .ok node ∧ node.isJettyErr = true ∧ node.room maxTx ≠ 0

/-- How many of the requests handed over URMA takes. -/
def UrmaPost.count (post : UrmaPost) (handed : Nat) : Nat :=
  match post with
  | .success => handed
  | .failed _ (some index) => if index < handed then index else 0
  | .failed _ none => 0

/-- Nothing on the way to URMA loses track of the window: no buffer without a
registered segment is reached, the borrowed jetty is not in error when the requests
get to it, and the requests URMA takes agree with the last one of the chain on
whether a receive entry is consumed. -/
structure TxCall.Accounted : Prop where
  registered : ¬ ReachesUnregistered call.queue 0 call.chain
  jetty : Builds call.queue 0 call.chain → ¬ BrokenJetty call.queue call.env call.allowed
  uniform : Builds call.queue 0 call.chain → call.window ≠ none →
    ∀ head ∈ call.heads.take (call.env.urmaPost.count (txHanded call.queue call.env call.allowed)),
      (transformOpCode head.opcode).consumesRqe = lastConsumes false call.heads

/-- The call gets past the checks before the build loop. -/
def TxCall.Entered : Prop :=
  call.env.exiting = false ∧ call.queue.bound = true ∧ call.entryCheck.1 = .ok ()

/-! ## The pieces of an exit -/

variable {wrs : List UrmaJfsWr} {call : TxCall} {consume : Bool} {queue : TxQueue} {heads : List UmqBuf}

theorem umqUbTxFailedNum_getElem {count index : Nat}
    (distinct : (wrs.map (·.userCtx)).Nodup) (bound : count ≤ wrs.length) (inRange : index < count) :
    umqUbTxFailedNum wrs count ((wrs[index]?).map (·.userCtx)) = count - index := by
  have short : index < wrs.length := by omega
  have found : (wrs.take count).findIdx? (fun wr => some wr.userCtx = some wrs[index].userCtx) = some index := by
    rw [findIdx?_eq_some_iff_getElem]
    refine ⟨by simp; omega, by simp, ?_⟩
    intro earlier before
    simp only [getElem_take, decide_eq_true_eq]
    intro same
    have earlierShort : earlier < wrs.length := by omega
    have position : earlier = index := by
      apply (getElem?_inj (by simpa using earlierShort) distinct).mp
      rw [getElem?_map, getElem?_map, getElem?_eq_getElem earlierShort,
        getElem?_eq_getElem short, Option.map_some, Option.map_some, same]
    omega
  rw [getElem?_eq_getElem short, Option.map_some]
  simp only [umqUbTxFailedNum, found]

theorem umqUbWrCntLimit_min (node : JettyNode) {count : Nat} (small : count ≤ umqBatchSize) :
    min (umqUbWrCntLimit node count) count = node.room count ∧
      (0 < count → (umqUbWrCntLimit node count = 0 ↔ node.room count = 0)) := by
  unfold umqBatchSize at small
  unfold umqUbWrCntLimit JettyNode.room
  dsimp only
  split_ifs <;> omega

/-- A refund of credit debited from a 16-bit window is never refused. -/
theorem remoteRxWindowInc_eq {window count : Nat} (fits : window + count ≤ uint16Max) :
    remoteRxWindowInc window count = window + count := by
  unfold remoteRxWindowInc
  rw [if_neg (by omega)]

theorem remoteRxWindowInc_returned {call : CreditCall} : remoteRxWindowInc 0 call.returned = call.returned := by
  rw [remoteRxWindowInc_eq (by unfold uint16Max; omega), Nat.zero_add]

/-- The window `debited` holds what is left of `window` after taking `count` credits. -/
structure Debited (consume : Bool) (window debited : Option Nat) (count : Nat) : Prop where
  none : window = none → debited = none
  some : ∀ before, window = some before → before ≤ uint16Max ∧
    if consume then count ≤ before ∧ debited = some (before - count) else debited = some before

/-- `count` requests were posted, the window fell accordingly, and an error names the
first request after them. -/
structure Settled (wrs : List UrmaJfsWr) (consume : Bool) (window : Option Nat) (gained count : Nat)
    (result : TxResult) : Prop where
  posted : result.posted = wrs.take count
  window : ∀ before, window = some before → ∃ after, result.window = some after ∧
    after + (if consume then count else 0) + gained = before + result.gained
  bad : result.ret ≠ .ok () → count < wrs.length ∧ result.badQbuf = (wrs[count]?).map (·.userCtx)

theorem Debited.recover {window debited : Option Nat} {maxTx index : Nat}
    (debit : Debited consume window debited maxTx) (distinct : (wrs.map (·.userCtx)).Nodup)
    (bound : maxTx ≤ wrs.length) (inRange : index < maxTx) {err : UmqErr} {gained : Nat} :
    Settled wrs consume window gained index (umqUbTxRecover consume wrs maxTx debited gained err
      ((wrs[index]?).map (·.userCtx)) (wrs.take index)) := by
  refine ⟨rfl, ?_, fun _ => ⟨by omega, rfl⟩⟩
  intro before enabled
  obtain ⟨small, left⟩ := debit.some before enabled
  cases consume with
  | false =>
    simp only [Bool.false_eq_true, if_false] at left
    exact ⟨before, by simp [umqUbTxRecover, left], by simp [umqUbTxRecover]⟩
  | true =>
    simp only [if_true] at left
    refine ⟨before - index, ?_, by simp only [umqUbTxRecover, if_true]; omega⟩
    have refund : remoteRxWindowInc (before - maxTx) (maxTx - index) = before - index := by
      rw [remoteRxWindowInc_eq (by omega)]
      omega
    simp [umqUbTxRecover, left, umqUbWindowInc, umqUbTxFailedNum_getElem distinct bound inRange, refund]

/-! ## From the debit to URMA -/

section Post

variable {queue : TxQueue} {env : TxEnv} {wrs : List UrmaJfsWr} {consume : Bool} {window debited : Option Nat}
  {qbuf maxTx gained handed wrCntLimit : Nat}

theorem JettyNode.room_le {node : JettyNode} (count : Nat) : node.room count ≤ count := by
  unfold JettyNode.room
  split_ifs <;> omega

theorem UrmaPost.taken_take {post : UrmaPost} {wrs : List UrmaJfsWr} (bound : handed ≤ wrs.length) :
    post.taken (wrs.take handed) = wrs.take (post.count handed) := by
  have length : (wrs.take handed).length = handed := by simp; omega
  cases post with
  | success => rfl
  | failed status badWr =>
    cases badWr with
    | none => simp [UrmaPost.taken, UrmaPost.count]
    | some index =>
      simp only [UrmaPost.taken, UrmaPost.count, length]
      split_ifs with inRange
      · rw [take_take]
        congr 1
        omega
      · simp

/-- The buffer an error of URMA is reported for is the one after those it took. -/
theorem badWr_userCtx (status : UrmaError) {badWr : Option Nat} (bound : handed ≤ wrs.length)
    (start : (wrs[0]?).map (·.userCtx) = some qbuf) :
    some ((badWr.bind (fun index => (wrs.take handed)[index]?)).elim qbuf (·.userCtx)) =
      (wrs[(UrmaPost.failed status badWr).count handed]?).map (·.userCtx) := by
  cases badWr with
  | none => simp [UrmaPost.count, start]
  | some index =>
    simp only [UrmaPost.count, Option.bind_some]
    split_ifs with inRange
    · rw [getElem?_take_of_lt inRange, getElem?_eq_getElem (by omega)]
      rfl
    · rw [getElem?_eq_none (by simp; omega)]
      exact start.symm

theorem UrmaPost.failed_count_lt (status : UrmaError) (badWr : Option Nat) (some : 0 < handed) :
    (UrmaPost.failed status badWr).count handed < handed := by
  unfold UrmaPost.count
  split
  · contradiction
  · split_ifs <;> omega
  · exact some

theorem UrmaPost.count_zero {post : UrmaPost} : post.count 0 = 0 := by
  rcases post with _ | ⟨status, _ | index⟩ <;> simp [UrmaPost.count]

section Settled

variable (distinct : (wrs.map (·.userCtx)).Nodup) (bound : maxTx ≤ wrs.length) (small : maxTx ≤ umqBatchSize)
  (debit : Debited consume window debited maxTx)
  (short : maxTx < wrs.length → consume = true ∧ window = some maxTx) (start : (wrs[0]?).map (·.userCtx) = some qbuf)
include distinct bound small debit short start

theorem umqUbTxHandOver_settled (nonzero : 0 < min wrCntLimit maxTx) :
    Settled wrs consume window gained (env.urmaPost.count (min wrCntLimit maxTx))
      (umqUbTxHandOver env qbuf consume wrs maxTx debited gained wrCntLimit) := by
  unfold umqUbTxHandOver
  cases post : env.urmaPost with
  | failed status badWr =>
    have inRange := UrmaPost.failed_count_lt status badWr nonzero
    simp only [UrmaPost.taken_take (by omega : min wrCntLimit maxTx ≤ wrs.length),
      badWr_userCtx status (by omega : min wrCntLimit maxTx ≤ wrs.length) start]
    exact debit.recover distinct bound (by omega)
  | success =>
    -- what the nested credit request leaves, or what the debit left
    have nested : ∀ before, window = some before → ∃ left extra,
        (if maxTx < wrs.length then env.creditReq.apply debited else (debited, 0)) = (some left, extra) ∧
          left + (if consume then maxTx else 0) = before + extra ∧ (consume → left + maxTx ≤ uint16Max) := by
      intro before enabled
      obtain ⟨limit, left⟩ := debit.some before enabled
      split_ifs at left ⊢ with isShort consumes consumes
      · cases enabled.symm.trans (short isShort).2
        rw [left.2, Nat.sub_self, CreditCall.apply, remoteRxWindowInc_returned]
        unfold umqBatchSize at small
        exact ⟨_, _, rfl, by omega, fun _ => by unfold uint16Max; omega⟩
      · exact absurd (short isShort).1 consumes
      · exact ⟨before - maxTx, 0, by rw [left.2], by omega, fun _ => by omega⟩
      · exact ⟨before, 0, by rw [left], rfl, fun consume => absurd consume consumes⟩
    simp only [UrmaPost.count]
    by_cases cut : wrCntLimit < maxTx
    · rw [if_pos cut, Nat.min_eq_left (Nat.le_of_lt cut)]
      refine ⟨rfl, fun before enabled => ?_, fun _ => ⟨by omega, rfl⟩⟩
      obtain ⟨left, extra, same, sum, fits⟩ := nested before enabled
      simp only [same]
      split_ifs at sum ⊢ with consumes
      · have refund := @remoteRxWindowInc_eq left (maxTx - wrCntLimit) (by have := fits consumes; omega)
        exact ⟨_, by rw [umqUbWindowInc, Option.map_some, refund], by omega⟩
      · exact ⟨left, rfl, by omega⟩
    · rw [if_neg cut, Nat.min_eq_right (by omega)]
      by_cases isShort : maxTx < wrs.length
      · simp only [if_pos isShort] at nested ⊢
        refine ⟨rfl, fun before enabled => ?_, fun _ => ⟨isShort, rfl⟩⟩
        obtain ⟨left, extra, same, sum, -⟩ := nested before enabled
        simp only [same]
        exact ⟨left, rfl, by omega⟩
      · simp only [if_neg isShort] at nested ⊢
        refine ⟨rfl, fun before enabled => ?_, fun failed => absurd rfl failed⟩
        obtain ⟨left, extra, same, sum, -⟩ := nested before enabled
        cases same
        exact ⟨left, rfl, by dsimp only; omega⟩

theorem umqUbTxPost_settled (nonzero : 0 < maxTx) (sound : ¬ BrokenJetty queue env maxTx) :
    Settled wrs consume window gained (env.urmaPost.count (txHanded queue env maxTx))
      (umqUbTxPost queue env qbuf consume wrs maxTx debited gained) := by
  have nothing (err : UmqErr) : Settled wrs consume window gained 0
      (umqUbTxRecover consume wrs maxTx debited gained err (some qbuf) []) := by
    rw [← start]
    exact debit.recover distinct bound nonzero
  unfold umqUbTxPost txHanded
  split_ifs with logic
  · cases borrowed : env.jettyNode with
    | error err => simpa only [UrmaPost.count_zero] using nothing err
    | ok node =>
      obtain ⟨limit, limitZero⟩ := umqUbWrCntLimit_min node small
      by_cases full : umqUbWrCntLimit node maxTx = 0
      · have noRoom : node.room maxTx = 0 := (limitZero nonzero).mp full
        simp only [full, noRoom, ite_self, UrmaPost.count_zero]
        exact nothing .enobufs
      · have room : node.room maxTx ≠ 0 := fun none => full ((limitZero nonzero).mpr none)
        have healthy : node.isJettyErr = false := by
          by_contra broken
          exact sound ⟨logic, node, borrowed, by simpa using broken, room⟩
        simp only [full, healthy]
        rw [← limit]
        exact umqUbTxHandOver_settled distinct bound small debit short start (by omega)
  · have whole : maxTx = min maxTx maxTx := by simp
    conv => arg 5; arg 2; rw [whole]
    exact umqUbTxHandOver_settled distinct bound small debit short start (by omega)

end Settled

theorem umqUbTxPost_broken (small : maxTx ≤ umqBatchSize) (nonzero : 0 < maxTx) (broken : BrokenJetty queue env maxTx) :
    (umqUbTxPost queue env qbuf consume wrs maxTx debited gained).ret = .error .einval ∧
      (umqUbTxPost queue env qbuf consume wrs maxTx debited gained).badQbuf = none := by
  obtain ⟨logic, node, borrowed, isErr, room⟩ := broken
  obtain ⟨-, limitZero⟩ := umqUbWrCntLimit_min node small
  have full : umqUbWrCntLimit node maxTx ≠ 0 := fun none => room ((limitZero nonzero).mp none)
  simp only [umqUbTxPost, logic, borrowed, full, isErr]
  exact ⟨rfl, rfl⟩

theorem umqUbTxSubmit_settled (distinct : (wrs.map (·.userCtx)).Nodup) (nonempty : 0 < wrs.length)
    (small : wrs.length ≤ umqBatchSize) (limit : ∀ before, window = some before → before ≤ uint16Max)
    (start : (wrs[0]?).map (·.userCtx) = some qbuf)
    (sound : ¬ BrokenJetty queue env (txAllowed consume window wrs.length)) :
    Settled wrs consume window gained
      (env.urmaPost.count (txHanded queue env (txAllowed consume window wrs.length)))
      (umqUbTxSubmit queue env qbuf consume wrs window gained) := by
  have nothing (granted : Nat) (none : txHanded queue env granted = 0) :
      env.urmaPost.count (txHanded queue env granted) = 0 := by rw [none, UrmaPost.count_zero]
  unfold umqUbTxSubmit
  cases consume with
  | false =>
    simp only [txAllowed, Bool.false_eq_true, if_false] at sound ⊢
    rw [if_neg (by omega)]
    exact umqUbTxPost_settled distinct (Nat.le_refl _) small
      ⟨id, fun before enabled => ⟨limit before enabled, by simpa using enabled⟩⟩ (by omega) start nonempty sound
  | true =>
    cases window with
    | none =>
      simp only [txAllowed, if_true, Option.elim_none, umqUbWindowDec] at sound ⊢
      rw [if_neg (by omega)]
      exact umqUbTxPost_settled distinct (Nat.le_refl _) small
        ⟨id, fun before enabled => by cases enabled⟩ (by omega) start nonempty sound
    | some before =>
      have beforeLimit := limit before rfl
      simp only [txAllowed, if_true, Option.elim_some, umqUbWindowDec, remoteRxWindowDec] at sound ⊢
      split_ifs with empty
      · -- the window was empty: ask for credit and report the whole chain
        have noCredit : before = 0 := by omega
        subst noCredit
        have idle : txHanded queue env (min 0 wrs.length) = 0 := by
          have room (node : JettyNode) : node.room 0 = 0 := Nat.le_zero.mp (node.room_le 0)
          unfold txHanded
          split_ifs
          · split <;> simp [room]
          · simp
        rw [nothing _ idle]
        refine ⟨rfl, fun others same => ?_, fun _ => ⟨nonempty, start.symm⟩⟩
        cases same
        rw [CreditCall.apply]
        exact ⟨_, rfl, by simp only [ite_self]; omega⟩
      · refine umqUbTxPost_settled distinct (Nat.min_le_right _ _) (by omega) ⟨fun same => (by cases same), ?_⟩
          ?_ start (by omega) sound
        · intro others same
          cases same
          exact ⟨beforeLimit, Nat.min_le_left _ _, by simp only [Option.some.injEq]; omega⟩
        · intro isShort
          exact ⟨rfl, by simp only [Option.some.injEq]; omega⟩

theorem txAllowed_le (consume : Bool) (window : Option Nat) (count : Nat) : txAllowed consume window count ≤ count := by
  unfold txAllowed
  split_ifs
  · cases window <;> simp
  · exact Nat.le_refl _

theorem txHanded_le {queue : TxQueue} {env : TxEnv} {maxTx : Nat} : txHanded queue env maxTx ≤ maxTx := by
  unfold txHanded
  split_ifs
  · split
    · exact Nat.zero_le _
    · split_ifs
      · exact Nat.zero_le _
      · exact JettyNode.room_le _
  · exact Nat.le_refl _

theorem UrmaPost.count_le {post : UrmaPost} {handed : Nat} : post.count handed ≤ handed := by
  unfold UrmaPost.count
  split
  · exact Nat.le_refl _
  · split_ifs <;> omega
  · exact Nat.zero_le _

theorem umqUbTxSubmit_broken (small : wrs.length ≤ umqBatchSize)
    (broken : BrokenJetty queue env (txAllowed consume window wrs.length)) :
    (umqUbTxSubmit queue env qbuf consume wrs window gained).ret = .error .einval ∧
      (umqUbTxSubmit queue env qbuf consume wrs window gained).badQbuf = none := by
  have nonzero : 0 < txAllowed consume window wrs.length := by
    obtain ⟨_, node, _, _, room⟩ := broken
    have := node.room_le (txAllowed consume window wrs.length)
    omega
  have bounded := txAllowed_le consume window wrs.length
  have granted : (if consume then umqUbWindowDec window wrs.length else (window, wrs.length)).2 =
      txAllowed consume window wrs.length := by
    unfold txAllowed
    split_ifs
    · cases window <;> rfl
    · rfl
  unfold umqUbTxSubmit
  dsimp only
  rw [granted, if_neg (by omega)]
  exact umqUbTxPost_broken (by omega) nonzero broken

theorem UrmaPost.taken_subset {post : UrmaPost} : post.taken wrs ⊆ wrs := by
  unfold UrmaPost.taken
  split
  · exact List.Subset.refl _
  · split
    · exact take_subset _ _
    · exact nil_subset _
  · exact nil_subset _

theorem umqUbTxHandOver_posted :
    (umqUbTxHandOver env qbuf consume wrs maxTx window gained wrCntLimit).posted ⊆ wrs := by
  unfold umqUbTxHandOver umqUbTxRecover
  cases post : env.urmaPost with
  | success =>
    split_ifs <;> exact take_subset _ _
  | failed status badWr => exact List.Subset.trans UrmaPost.taken_subset (take_subset _ _)

theorem umqUbTxPost_posted : (umqUbTxPost queue env qbuf consume wrs maxTx window gained).posted ⊆ wrs := by
  unfold umqUbTxPost
  split
  · cases env.jettyNode with
    | error err => exact nil_subset _
    | ok node =>
      simp only
      split_ifs
      · exact nil_subset _
      · exact nil_subset _
      · exact umqUbTxHandOver_posted
  · exact umqUbTxHandOver_posted

theorem umqUbTxSubmit_posted : (umqUbTxSubmit queue env qbuf consume wrs window gained).posted ⊆ wrs := by
  unfold umqUbTxSubmit
  generalize (if consume then umqUbWindowDec window wrs.length else (window, wrs.length)) = debit
  simp only
  split
  · exact nil_subset _
  · exact umqUbTxPost_posted

end Post

/-! ## The whole call -/

theorem userCtx_eq_addr (wrsOf : List.Forall₂ (WrOf queue) heads wrs) : wrs.map (·.userCtx) = heads.map (·.addr) := by
  induction wrsOf with
  | nil => rfl
  | cons wrOf _ ih => simp [wrOf.userCtx, ih]

/-- The debit for the first `count` requests is right exactly if each of them agrees
with the flag it was computed from. -/
theorem consumedRqe_take
    (wrsOf : List.Forall₂ (WrOf queue) heads wrs) (consume : Bool) {count : Nat} (bound : count ≤ wrs.length) :
    consumedRqe (wrs.take count) = (if consume then count else 0) ↔
      ∀ head ∈ heads.take count, (transformOpCode head.opcode).consumesRqe = consume := by
  induction wrsOf generalizing count with
  | nil =>
    have : count = 0 := by simpa using bound
    subst this
    simp [consumedRqe]
  | @cons head wr heads wrs wrOf _ ih =>
    cases count with
    | zero => simp [consumedRqe]
    | succ count =>
      have shorter := @ih count (by simpa using bound)
      have atMost : consumedRqe (wrs.take count) ≤ count := by
        refine Nat.le_trans countP_le_length ?_
        simp
      simp only [take_succ_cons, forall_mem_cons, ← shorter, ← wrOf.consumesRqe]
      simp only [consumedRqe, countP_cons] at atMost ⊢
      cases consume <;> cases wr.opcode.consumesRqe <;> (simp; try omega)

theorem TxCall.entryCheck_gain {call : TxCall} {before : Nat} (enabled : call.window = some before) :
    call.entryCheck.2.1 = some (before + call.entryCheck.2.2) ∧ before + call.entryCheck.2.2 ≤ uint16Max := by
  have limit := call.windowLe before enabled
  unfold TxCall.entryCheck
  split_ifs with skipped
  · simpa [enabled] using limit
  · simp only [enabled, CreditCall.apply, Option.some.injEq]
    unfold remoteRxWindowInc
    split_ifs <;> omega

theorem TxCall.entryCheck_none {call : TxCall} (disabled : call.window = none) : call.entryCheck.2.1 = none := by
  simp [TxCall.entryCheck, disabled]

theorem TxCall.heads_zero {call : TxCall} : call.heads[0]? = some call.first := rfl

/-- An exit before anything was posted that reports the whole chain. -/
theorem PostTxExact.refused {result : TxResult} (posted : result.posted = [])
    (bad : result.badQbuf = some call.first.addr)
    (window : ∀ before, call.window = some before → result.window = some (before + result.gained)) :
    PostTxExact call result := by
  refine ⟨fun before enabled => ⟨_, window before enabled, ?_⟩, fun _ => ⟨call.first, ?_, bad⟩⟩
  · simp [posted, consumedRqe]
  · simpa [posted] using call.heads_zero

theorem umqUbPostTx_refused (refused : ¬ call.Entered) : PostTxExact call (umqUbPostTx call) := by
  unfold umqUbPostTx
  split_ifs with early
  · exact .refused rfl rfl (fun before enabled => by simpa using enabled)
  · have ready : call.env.exiting = false ∧ call.queue.bound = true := by simpa using early
    split
    · rename_i err window gained check
      refine .refused rfl rfl (fun before enabled => ?_)
      have := (call.entryCheck_gain enabled).1
      rwa [check] at this
    · rename_i window gained check
      exact absurd ⟨ready.1, ready.2, by rw [check]⟩ refused

section

variable (entered : call.Entered)
include entered

theorem umqUbPostTx_entered :
    umqUbPostTx call = match umqUbTxBuild call.queue 0 false none call.chain with
      | .error stop => ⟨.error stop.err, if stop.badSet then some call.first.addr else none, [],
          call.entryCheck.2.1, call.entryCheck.2.2⟩
      | .ok (consume, wrs) => umqUbTxSubmit call.queue call.env call.first.addr consume wrs
          call.entryCheck.2.1 call.entryCheck.2.2 := by
  obtain ⟨running, bound, checked⟩ := entered
  unfold umqUbPostTx
  rw [if_neg (by simp [running, bound])]
  split
  · rename_i check
    rw [check] at checked
    cases checked
  · rename_i check
    rcases umqUbTxBuild call.queue 0 false none call.chain with stop | ⟨consume, wrs⟩ <;> simp only [check]

theorem umqUbPostTx_stopped {stop : TxStop} (stopped : umqUbTxBuild call.queue 0 false none call.chain = .error stop) :
    PostTxExact call (umqUbPostTx call) ↔ call.Accounted := by
  rw [umqUbPostTx_entered entered, stopped]
  have noBuild : ¬ Builds call.queue 0 call.chain := by
    intro builds
    obtain ⟨built, ok⟩ := builds.build false
    rw [stopped] at ok
    cases ok
  cases set : stop.badSet with
  | true =>
    refine iff_of_true (.refused rfl (by simp [set]) fun before enabled => (call.entryCheck_gain enabled).1) ?_
    refine ⟨fun reaches => ?_, fun builds => absurd builds noBuild, fun builds => absurd builds noBuild⟩
    obtain ⟨err, unset⟩ := reaches.build false
    rw [stopped] at unset
    cases unset
    cases set
  | false =>
    refine iff_of_false (fun exact => ?_) (fun accounted => ?_)
    · obtain ⟨head, -, bad⟩ := exact.bad (by simp)
      simp [set] at bad
    · exact accounted.registered (by simpa using umqUbTxBuild_unset cursor_nil stopped set)

theorem umqUbPostTx_built (built : umqUbTxBuild call.queue 0 false none call.chain = .ok (consume, wrs)) :
    PostTxExact call (umqUbPostTx call) ↔ call.Accounted := by
  rw [umqUbPostTx_entered entered, built]
  obtain ⟨builds, wrsOf, consumes⟩ := umqUbTxBuild_ok cursor_nil built
  rw [nil_append] at builds
  change List.Forall₂ (WrOf call.queue) call.heads wrs at wrsOf
  change consume = lastConsumes false call.heads at consumes
  have length : call.heads.length = wrs.length := wrsOf.length_eq
  have nonempty : 0 < wrs.length := by rw [← length]; exact Nat.succ_pos _
  have small : wrs.length ≤ umqBatchSize := by
    simpa using umqUbTxBuild_length built (by decide)
  have userCtx := userCtx_eq_addr wrsOf
  have distinct : (wrs.map (·.userCtx)).Nodup := by
    rw [userCtx]
    exact ((workRequestHeads_sublist 0 call.chain).map _).nodup call.distinct
  have headAt (index : Nat) : (wrs[index]?).map (·.userCtx) = (call.heads[index]?).map (·.addr) := by
    rw [← getElem?_map, ← getElem?_map, userCtx]
  have unreached : ¬ ReachesUnregistered call.queue 0 call.chain := by
    intro reaches
    obtain ⟨err, unset⟩ := reaches.build false
    rw [built] at unset
    cases unset
  have allowed : call.allowed = txAllowed consume call.entryCheck.2.1 wrs.length := by
    rw [TxCall.allowed, consumes, length]
  have limit (before : Nat) (enabled : call.entryCheck.2.1 = some before) : before ≤ uint16Max := by
    cases disabled : call.window with
    | none => rw [call.entryCheck_none disabled] at enabled; cases enabled
    | some original =>
      obtain ⟨after, bound⟩ := call.entryCheck_gain disabled
      rw [after] at enabled
      cases enabled
      exact bound
  by_cases broken : BrokenJetty call.queue call.env call.allowed
  · refine iff_of_false (fun exact => ?_) (fun accounted => accounted.jetty builds broken)
    rw [allowed] at broken
    obtain ⟨failed, unset⟩ := umqUbTxSubmit_broken small broken
    obtain ⟨head, -, bad⟩ := exact.bad (by dsimp only; rw [failed]; simp)
    dsimp only at bad
    rw [unset] at bad
    cases bad
  · have start : (wrs[0]?).map (·.userCtx) = some call.first.addr := by rw [headAt, call.heads_zero]; rfl
    have settled : Settled wrs consume call.entryCheck.2.1 call.entryCheck.2.2
        (call.env.urmaPost.count (txHanded call.queue call.env call.allowed)) _ :=
      allowed ▸ umqUbTxSubmit_settled distinct nonempty small limit start (allowed ▸ broken)
    generalize taken : call.env.urmaPost.count (txHanded call.queue call.env call.allowed) = count at settled
    have bound : count ≤ wrs.length := by
      rw [← taken]
      exact UrmaPost.count_le.trans (txHanded_le.trans (allowed ▸ txAllowed_le _ _ _))
    have agree := consumedRqe_take wrsOf consume bound
    constructor
    · intro exact
      refine ⟨unreached, fun _ => broken, fun _ enabled => ?_⟩
      obtain ⟨before, isEnabled⟩ := Option.ne_none_iff_exists'.mp enabled
      obtain ⟨gain, -⟩ := call.entryCheck_gain isEnabled
      obtain ⟨after, window, sum⟩ := settled.window _ gain
      obtain ⟨after', window', sum'⟩ := exact.window before isEnabled
      dsimp only at window' sum'
      rw [window] at window'
      cases window'
      rw [settled.posted] at sum'
      rw [taken, ← consumes]
      exact agree.mp (by omega)
    · intro accounted
      refine ⟨fun before enabled => ?_, fun failed => ?_⟩
      · obtain ⟨gain, -⟩ := call.entryCheck_gain enabled
        obtain ⟨after, window, sum⟩ := settled.window _ gain
        have uniform := accounted.uniform builds (by rw [enabled]; simp)
        rw [taken, ← consumes] at uniform
        refine ⟨after, window, ?_⟩
        dsimp only
        rw [settled.posted, agree.mpr uniform]
        omega
      · obtain ⟨inRange, bad⟩ := settled.bad failed
        dsimp only
        rw [settled.posted, bad, headAt, length_take, Nat.min_eq_left bound]
        rw [← length] at inRange
        rw [getElem?_eq_getElem inRange]
        exact ⟨_, rfl, rfl⟩

theorem TxCall.Entered.exact_iff : PostTxExact call (umqUbPostTx call) ↔ call.Accounted := by
  cases built : umqUbTxBuild call.queue 0 false none call.chain with
  | error stop => exact umqUbPostTx_stopped entered built
  | ok result => exact umqUbPostTx_built entered built

end

/-- The window is exact, and errors are reported, precisely for the calls that keep
track of it. -/
theorem umqUbPostTx_exact_iff (call : TxCall) :
    PostTxExact call (umqUbPostTx call) ↔ (call.Entered → call.Accounted) := by
  by_cases entered : call.Entered
  · simp only [entered, true_implies]
    exact entered.exact_iff
  · exact iff_of_true (umqUbPostTx_refused entered) (fun contradiction => absurd contradiction entered)

/-! ## What is posted -/

/-- Every request URMA took belongs to a head of the chain. -/
theorem umqUbPostTx_posted {call : TxCall} {wr : UrmaJfsWr} (posted : wr ∈ (umqUbPostTx call).posted) :
    ∃ head ∈ call.heads, WrOf call.queue head wr := by
  unfold umqUbPostTx at posted
  split at posted
  · cases posted
  · split at posted
    · cases posted
    · split at posted
      · cases posted
      · rename_i consume wrs built
        obtain ⟨-, wrsOf, -⟩ := umqUbTxBuild_ok cursor_nil built
        obtain ⟨index, short, rfl⟩ := mem_iff_getElem.mp (umqUbTxSubmit_posted posted)
        have length := wrsOf.length_eq
        exact ⟨_, getElem_mem (length ▸ short), wrsOf.get (length ▸ short) short⟩

theorem CreditCall.apply_zero {call : CreditCall} (nothing : call.returned = 0) (window : Option Nat) :
    call.apply window = (window, 0) := by
  cases window with
  | none => rfl
  | some window => simp [CreditCall.apply, nothing, remoteRxWindowInc]

/-- A post whose nested calls return no credit gains none. -/
theorem umqUbPostTx_gained {call : TxCall} (check : call.env.creditCheck.returned = 0)
    (request : call.env.creditReq.returned = 0) : (umqUbPostTx call).gained = 0 := by
  have entry : call.entryCheck.2.2 = 0 := by
    unfold TxCall.entryCheck
    split
    · rfl
    · simp [CreditCall.apply_zero check]
  unfold umqUbPostTx
  split
  · rfl
  · split
    · rename_i result
      rw [result] at entry
      exact entry
    · rename_i result
      rw [result] at entry
      split
      · exact entry
      · simp only [umqUbTxSubmit, umqUbTxPost, umqUbTxHandOver, umqUbTxRecover, CreditCall.apply_zero request]
          at entry ⊢
        subst entry
        repeat' split
        all_goals rfl

/-- A write followed by a send, all of it accepted: the flag of the send is applied to
both, so the window of 5 falls by two for the one receive entry that is used. -/
def mixedChain : TxCall where
  queue :=
    { umqId := 3, remoteUmqId := 7, bound := true, boundAt := fun _ => true, logicQueue := false, maxTxSge := 1
      remoteRxBufSize := 4096, txBufSize := 4096, remoteMemAccess := true, dataToHead := fun _ => none
      tsegList := fun mempoolId => mempoolId = 0, importedTseg := fun _ => true }
  env :=
    { exiting := false, creditCheck := ⟨.ok (), 0⟩, creditReq := ⟨.ok (), 0⟩, jettyNode := .ok ⟨0, 64, false⟩
      urmaPost := .success }
  window := some 5
  first := ⟨1, 100, 100, 1000, 0, false, .write, IoImm.zero, ⟨100, 0⟩⟩
  rest := [⟨2, 100, 100, 2000, 0, false, .send, IoImm.zero, ⟨0, 0⟩⟩]
  windowLe := by decide
  distinct := by decide

theorem umqUbPostTx_mixedChain :
    (umqUbPostTx mixedChain).window = some 3 ∧ consumedRqe (umqUbPostTx mixedChain).posted = 1 ∧
      ¬ PostTxExact mixedChain (umqUbPostTx mixedChain) := by
  have window : (umqUbPostTx mixedChain).window = some 3 := by decide
  have consumed : consumedRqe (umqUbPostTx mixedChain).posted = 1 := by decide
  have gained : (umqUbPostTx mixedChain).gained = 0 := by decide
  refine ⟨window, consumed, fun exact => ?_⟩
  obtain ⟨after, same, sum⟩ := exact.window 5 rfl
  rw [window] at same
  cases same
  rw [consumed, gained] at sum
  omega

end UbsComm.Ub
