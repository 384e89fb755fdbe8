import UbsComm.Sock.OneSide
import Mathlib.Algebra.Order.BigOperators.Group.List

/-! # When the handlers of one-sided messages are right

The handlers of reads and of the acknowledgements of reads and writes always are.  Those of writes,
of scatter writes and of the acknowledgements of scatter reads copy in a loop whose reads are inside
the body exactly when every run of entries that it copies ends there. -/

namespace UbsComm.Sock

open List

/-! ## Sums -/

theorem totalSize_cons {iov : SgeIov} {iovs : List SgeIov} : totalSize (iov :: iovs) = iov.size + totalSize iovs :=
  sum_cons

theorem dataSize32_eq {iovs : List SgeIov} : dataSize32 iovs = totalSize iovs % 2 ^ 32 := by
  have added : ∀ dataSize, iovs.foldl (fun dataSize iov => (dataSize + iov.size) % 2 ^ 32) (dataSize % 2 ^ 32) =
      (dataSize + totalSize iovs) % 2 ^ 32 := by
    induction iovs with
    | nil => exact fun _ => rfl
    | cons iov iovs ih =>
      intro dataSize
      rw [foldl_cons, Nat.mod_add_mod, ih, totalSize_cons, Nat.add_assoc]
  have fromZero := added 0
  rwa [Nat.zero_add] at fromZero

theorem totalSize_take_le (iovs : List SgeIov) (count : Nat) : totalSize (iovs.take count) ≤ totalSize iovs := by
  rw [totalSize, map_take]
  exact (take_sublist _ _).sum_le_sum fun _ _ => Nat.zero_le _

/-! ## The parts of the handlers -/

namespace Handled

variable {first second : Handled}

@[simp] theorem effects_stop {result : SResult} : (stop result).effects = [] := rfl

@[simp] theorem result_stop {result : SResult} : (stop result).result = result := rfl

/-- Where the second part has no effects of its own. -/
theorem effects_andThen (quiet : second.effects = []) : (first.andThen second).effects = first.effects := by
  unfold andThen
  split
  · rw [quiet]
    exact append_nil _
  · rfl

theorem result_andThen_eq_ok : (first.andThen second).result = .ok ↔ first.result = .ok ∧ second.result = .ok := by
  unfold andThen
  split
  · rename_i succeeded
    exact ⟨fun both => ⟨succeeded, both⟩, fun both => both.2⟩
  · rename_i failed
    exact ⟨fun succeeded => absurd succeeded failed, fun both => absurd both.1 failed⟩

end Handled

namespace Worker

variable {worker : Worker} {received : Received} {accepts : SgeIov → Bool} {target : SgeIov → Nat} {failed : SResult}
  {index offset length address data copyOffset : Nat} {effect : Effect} {iov : SgeIov} {iovs : List SgeIov}

theorem postAck_effects_nil {noOpCtx noSglCtx : SResult} : (worker.postAck noOpCtx noSglCtx []).effects = [] := by
  unfold postAck
  split
  · rfl
  · split <;> rfl

variable {noOpCtx noSglCtx : SResult} {body : List UInt8} {flag : OneSideFlag} {originalCtx : OriginalCtx}

theorem mem_postAck {effects : List Effect}
    (mem : effect ∈ (worker.postAck noOpCtx noSglCtx effects).effects) : effect ∈ effects := by
  unfold postAck at mem
  split at mem
  · cases mem
  · split at mem
    · cases mem
    · exact mem

theorem postAck_result {effects : List Effect} (noOp : noOpCtx ≠ .ok)
    (noSgl : noSglCtx ≠ .ok) : (worker.postAck noOpCtx noSglCtx effects).result = .ok ↔ worker.Answers := by
  unfold postAck Answers
  cases worker.opCtxLeft
  · simp [noOp]
  · cases worker.sglCtxLeft
    · simp [noSgl]
    · simp

/-! ## The copying loops -/

/-- What a loop does with its first entry: it copies it and goes on, or it stops there, without an effect or
after `memcpy_s` has cleared the destination. -/
theorem copyIovs_cons :
    let copied := worker.copyIovs accepts target data index copyOffset (iov :: iovs)
    let rest := worker.copyIovs accepts target data (index + 1) ((copyOffset + iov.size) % 2 ^ 32) iovs
    (accepts iov = true ∧ worker.memcpyS index = .copied ∧
      copied = ⟨.copy (data + copyOffset) iov.size (target iov) :: rest.effects, rest.result⟩) ∨
    (¬ (accepts iov = true ∧ worker.memcpyS index = .copied) ∧ copied.result ≠ .ok ∧
      ((accepts iov = false ∨ worker.memcpyS index = .refused) ∧ copied.effects = [] ∨
        (accepts iov = true ∧ worker.memcpyS index = .cleared) ∧ copied.effects = [.clear (target iov) iov.size])) := by
  cases accepted : accepts iov with
  | false => simp [copyIovs, accepted]
  | true =>
    cases outcome : worker.memcpyS index <;>
      simp [copyIovs, memcpy, accepted, outcome, Handled.andThen]

section

variable (mem : effect ∈ (worker.copyIovs accepts target data index copyOffset iovs).effects)
include mem

/-- Every effect of the loop is a write to an entry that was accepted. -/
theorem mem_copyIovs :
    ∃ iov ∈ iovs, accepts iov = true ∧
      ((∃ offset, effect = .copy offset iov.size (target iov)) ∨ effect = .clear (target iov) iov.size) := by
  induction iovs generalizing index copyOffset with
  | nil => cases mem
  | cons iov iovs ih =>
    obtain ⟨accepted, -, copies⟩ | ⟨-, -, ⟨-, stops⟩ | ⟨⟨accepted, -⟩, clears⟩⟩ :=
      @copyIovs_cons worker accepts target index data copyOffset iov iovs
    · rw [copies] at mem
      obtain rfl | later := mem_cons.mp mem
      · exact ⟨iov, mem_cons_self, accepted, .inl ⟨_, rfl⟩⟩
      · obtain ⟨found, inRest, rest⟩ := ih later
        exact ⟨found, mem_cons_of_mem _ inRest, rest⟩
    · rw [stops] at mem
      cases mem
    · rw [clears] at mem
      cases mem_singleton.mp mem
      exact ⟨iov, mem_cons_self, accepted, .inr rfl⟩

theorem writes_of_mem_copyIovs : effect.writes = true := by
  obtain ⟨_, _, _, ⟨_, rfl⟩ | rfl⟩ := mem_copyIovs mem <;> rfl

end

theorem copyIovs_effects_cons_nil :
    (worker.copyIovs accepts target data index copyOffset (iov :: iovs)).effects = [] ↔
      accepts iov = false ∨ worker.memcpyS index = .refused := by
  obtain ⟨accepted, copied, copies⟩ | ⟨-, -, ⟨blocked, stops⟩ | ⟨⟨accepted, cleared⟩, clears⟩⟩ :=
    @copyIovs_cons worker accepts target index data copyOffset iov iovs
  · simp [copies, accepted, copied]
  · simp [stops, blocked]
  · simp [clears, accepted, cleared]

theorem copyIovs_result :
    (worker.copyIovs accepts target data index copyOffset iovs).result = .ok ↔
      (∀ iov ∈ iovs, accepts iov = true) ∧ ∀ step < iovs.length, worker.memcpyS (index + step) = .copied := by
  induction iovs generalizing index copyOffset with
  | nil => simp [copyIovs]
  | cons iov iovs ih =>
    have split : (∀ step < (iov :: iovs).length, worker.memcpyS (index + step) = .copied) ↔
        worker.memcpyS index = .copied ∧ ∀ step < iovs.length, worker.memcpyS (index + 1 + step) = .copied := by
      rw [length_cons, Nat.forall_lt_succ_left]
      simp only [Nat.add_zero, Nat.add_assoc, Nat.add_comm 1]
    rw [split, forall_mem_cons]
    obtain ⟨accepted, copied, copies⟩ | ⟨blocked, fails, -⟩ :=
      @copyIovs_cons worker accepts target index data copyOffset iov iovs
    · rw [copies, ih]
      simp [accepted, copied]
    · exact iff_of_false fails fun all => blocked ⟨all.1.1, all.2.1⟩

/-- The loop reads inside the body exactly when every run of entries it copies ends there: as long
as that is so, the offset does not wrap. -/
theorem copyIovs_sources (short : body.length < 2 ^ 32) (inside : data + copyOffset ≤ body.length) :
    (∀ effect ∈ (worker.copyIovs accepts target data index copyOffset iovs).effects,
        effect.SourceOk worker.checker body) ↔
      ∀ count ≤ iovs.length, (∀ iov ∈ iovs.take count, accepts iov = true) →
        (∀ step < count, worker.memcpyS (index + step) = .copied) →
          data + copyOffset + totalSize (iovs.take count) ≤ body.length := by
  induction iovs generalizing index copyOffset with
  | nil =>
    constructor
    · intro _ count _ _ _
      rwa [take_nil]
    · exact fun _ _ mem => nomatch mem
  | cons iov iovs ih =>
    obtain ⟨accepted, outcome, copies⟩ | ⟨blocked, -, stops⟩ :=
      @copyIovs_cons worker accepts target index data copyOffset iov iovs
    · rw [copies, forall_mem_cons]
      by_cases fits : data + copyOffset + iov.size ≤ body.length
      · rw [ih (by omega)]
        constructor
        · rintro ⟨-, rest⟩ count bounded allAccepted allCopied
          cases count with
          | zero => exact inside
          | succ count =>
            have ends := rest count (Nat.le_of_succ_le_succ bounded)
              (fun iov mem => allAccepted iov (mem_cons_of_mem _ mem))
              (fun step before => by
                rw [Nat.add_assoc, Nat.add_comm 1]
                exact allCopied (step + 1) (Nat.succ_lt_succ before))
            rw [take_succ_cons, totalSize_cons]
            omega
        · intro all
          refine ⟨fits, fun count bounded allAccepted allCopied => ?_⟩
          have ends := all (count + 1) (Nat.succ_le_succ bounded)
            (forall_mem_cons.mpr ⟨accepted, allAccepted⟩)
            (Nat.forall_lt_succ_left.mpr ⟨outcome, fun step before => by
              rw [Nat.add_comm step 1, ← Nat.add_assoc]
              exact allCopied step before⟩)
          rw [take_succ_cons, totalSize_cons] at ends
          omega
      · constructor
        · exact fun both => absurd both.1 fits
        · intro all
          have ends := all 1 (by simp) (by simpa using accepted) (by simpa using outcome)
          rw [take_succ_cons, totalSize_cons] at ends
          exact absurd (show data + copyOffset + iov.size ≤ body.length by omega) fits
    · -- nothing is copied when the first entry is not
      refine iff_of_true ?_ fun count _ allAccepted allCopied => ?_
      · obtain ⟨-, stops⟩ | ⟨-, clears⟩ := stops
        · simp [stops]
        · simp [clears, Effect.SourceOk]
      · cases count with
        | zero => exact inside
        | succ count => exact absurd ⟨allAccepted iov mem_cons_self, allCopied 0 (Nat.succ_pos _)⟩ blocked

/-! ## Messages for which nothing is asked -/

theorem right_of_quiet (quiet : (worker.handleReceiveCtx received).effects = []) : worker.Right received where
  sources := fun _ mem => nomatch quiet ▸ mem
  targets := fun _ mem => nomatch quiet ▸ mem
  kept := fun _ _ _ _ _ mem => nomatch quiet ▸ mem

/-- A handler that only sends from the body and from registered memory is right. -/
theorem right_of_sends (sends : ∀ effect ∈ (worker.handleReceiveCtx received).effects,
    effect.writes = false ∧ effect.SourceOk worker.checker received.body) : worker.Right received where
  sources := fun effect mem => (sends effect mem).2
  targets := by
    intro effect mem
    have harmless := (sends effect mem).1
    cases effect with
    | copy | clear => cases harmless
    | echo | send => exact trivial
  kept := fun _ _ _ _ effect mem => (sends effect mem).1

/-- Of an acknowledgement nothing is asked when it fails. -/
theorem right_iff_of_ack (known : OneSideFlag.ofFlags received.flags = some flag)
    (ack : flag.request = false) (targets : ∀ effect ∈ (worker.handleReceiveCtx received).effects,
      effect.TargetOk worker.checker (worker.localBuffers received)) :
    worker.Right received ↔
      ∀ effect ∈ (worker.handleReceiveCtx received).effects, effect.SourceOk worker.checker received.body := by
  refine ⟨Right.sources, fun sources => ⟨sources, targets, fun other same request => ?_⟩⟩
  cases known.symm.trans same
  exact nomatch ack.symm.trans request

/-- Of a request whose only effects are writes. -/
theorem right_iff_of_write (known : OneSideFlag.ofFlags received.flags = some flag)
    (request : flag.request = true) (targets : ∀ effect ∈ (worker.handleReceiveCtx received).effects,
      effect.TargetOk worker.checker (worker.localBuffers received))
    (writing : ∀ effect ∈ (worker.handleReceiveCtx received).effects, effect.writes = true) :
    worker.Right received ↔
      (∀ effect ∈ (worker.handleReceiveCtx received).effects, effect.SourceOk worker.checker received.body) ∧
      ((worker.handleReceiveCtx received).result ≠ .ok → (worker.handleReceiveCtx received).effects = []) := by
  constructor
  · refine fun right => ⟨right.sources, fun failed => eq_nil_iff_forall_not_mem.mpr fun effect mem => ?_⟩
    exact nomatch (right.kept flag known request failed effect mem).symm.trans (writing effect mem)
  · rintro ⟨sources, unchanged⟩
    refine ⟨sources, targets, fun _ _ _ failed effect mem => ?_⟩
    rw [unchanged failed] at mem
    cases mem

/-! ## The handlers -/

theorem checkIovLen_eq_some {count : Nat} :
    checkIovLen body = some count ↔ sizeofIovCount ≤ body.length ∧ count = field body 0 sizeofIovCount ∧
      count ≠ 0 ∧ count ≤ 4 ∧ sizeofIovs count ≤ body.length := by
  unfold checkIovLen
  grind

theorem iovsOf_succ (body : List UInt8) (count : Nat) : ∃ rest, iovsOf body (count + 1) =
    iovAt body sizeofIovCount :: rest := by
  rw [iovsOf, range_succ_eq_map]
  exact ⟨_, rfl⟩

theorem length_iovsOf {body : List UInt8} {count : Nat} : (iovsOf body count).length = count := by
  simp [iovsOf]

theorem right_read (known : OneSideFlag.ofFlags received.flags = some .read) : worker.Right received := by
  apply right_of_sends
  have handled : worker.handleReceiveCtx received = worker.postReadAck received := by rw [handleReceiveCtx, known]
  rw [handled, postReadAck]
  intro effect mem
  split at mem
  · cases mem
  · split at mem
    · cases mem
    · dsimp only at mem
      split at mem
      · cases mem
      · rename_i valid
        rw [Bool.not_eq_true', Bool.not_eq_false] at valid
        cases mem_singleton.mp (mem_postAck mem)
        exact ⟨rfl, MemoryRegionChecker.covers_of_validate valid⟩

theorem right_readSgl (known : OneSideFlag.ofFlags received.flags = some .readSgl) : worker.Right received := by
  apply right_of_sends
  have handled : worker.handleReceiveCtx received = worker.postReadSglAck received := by rw [handleReceiveCtx, known]
  rw [handled, postReadSglAck]
  intro effect mem
  split at mem
  · cases mem
  · split at mem
    · cases mem
    · rename_i count checked
      dsimp only at mem
      split at mem
      · cases mem
      · rename_i valid
        rw [Bool.not_eq_true', Bool.not_eq_false, all_eq_true] at valid
        obtain rfl | sent := mem_cons.mp (mem_postAck mem)
        · exact ⟨rfl, (checkIovLen_eq_some.mp checked).2.2.2.2⟩
        · obtain ⟨iov, inList, rfl⟩ := mem_map.mp sent
          exact ⟨rfl, MemoryRegionChecker.covers_of_validate (valid iov inList)⟩

theorem Waits.unique {first second : OriginalCtx} (waits : worker.Waits received first)
    (others : worker.Waits received second) : second = first :=
  Option.some.inj (others.2.1.symm.trans waits.2.1)

/-- What the handler of an acknowledgement does is nothing, or what it does with a context that waits. -/
theorem withOriginalCtx_cases (worker : Worker) (received : Received) (handle : OriginalCtx → Handled) :
    ((worker.withOriginalCtx received handle).effects = [] ∧ ∀ originalCtx, ¬ worker.Waits received originalCtx) ∨
      ∃ originalCtx, worker.Waits received originalCtx ∧
        worker.withOriginalCtx received handle = handle originalCtx := by
  unfold Waits
  cases up : worker.upContext with
  | false => exact .inl ⟨by simp [withOriginalCtx, up], by simp⟩
  | true =>
    cases found : worker.ctxMap received.seqNo with
    | none => exact .inl ⟨by simp [withOriginalCtx, up, found], by simp⟩
    | some originalCtx =>
      by_cases sameSock : originalCtx.sock = worker.sock
      · exact .inr ⟨originalCtx, ⟨rfl, rfl, sameSock⟩, by simp [withOriginalCtx, up, found, sameSock]⟩
      · refine .inl ⟨by simp [withOriginalCtx, up, found, sameSock], ?_⟩
        rintro _ ⟨-, same, sock⟩
        cases same
        exact sameSock sock

theorem mem_localBuffers (waits : worker.Waits received originalCtx)
    (mem : iov ∈ originalCtx.iov) : (iov.lAddress, iov.size) ∈ worker.localBuffers received := by
  simp only [localBuffers, waits.2.1, waits.2.2]
  exact mem_map_of_mem mem

theorem right_writeAckHandle (handled : worker.handleReceiveCtx received = worker.writeAckHandle received) :
    worker.Right received := by
  apply right_of_quiet
  rw [handled, writeAckHandle]
  obtain ⟨quiet, -⟩ | ⟨originalCtx, -, handles⟩ := withOriginalCtx_cases worker received _
  · exact quiet
  · rw [handles]
    split <;> rfl

theorem right_readAck (known : OneSideFlag.ofFlags received.flags = some .readAck) : worker.Right received := by
  have handled : worker.handleReceiveCtx received = worker.postReadAckHandle received := by
    rw [handleReceiveCtx, known]
  obtain ⟨quiet, -⟩ | ⟨originalCtx, waits, handles⟩ := withOriginalCtx_cases worker received _
  · exact right_of_quiet (handled ▸ quiet)
  · rw [postReadAckHandle, handles] at handled
    have buffer : (originalCtx.iov.head originalCtx.iov_ne_nil) ∈ originalCtx.iov := head_mem _
    generalize originalCtx.iov.head originalCtx.iov_ne_nil = iov at handled buffer
    dsimp only at handled
    split at handled
    · exact right_of_quiet (handled ▸ rfl)
    · rename_i sameSize
      have effects : (worker.handleReceiveCtx received).effects =
          (worker.memcpy .paramInvalid 0 0 iov.size iov.lAddress).effects := by
        rw [handled]
        exact Handled.effects_andThen rfl
      have inBuffer := mem_localBuffers waits buffer
      cases outcome : worker.memcpyS 0 with
      | refused =>
        rw [memcpy, outcome] at effects
        exact right_of_quiet effects
      | copied | cleared =>
        rw [memcpy, outcome] at effects
        rw [right_iff_of_ack known rfl (by simpa [effects] using .inr inBuffer)]
        simp [effects, Effect.SourceOk, Nat.le_of_eq (not_not.mp sameSize)]

theorem length_body_lt (received : Received) : received.body.length < 2 ^ 32 :=
  Nat.lt_of_le_of_lt received.length_body_le (by decide)

/-- The handler of the acknowledgement of a scatter read copies when its checks are passed. -/
theorem postReadSglAckHandle_effects (waits : worker.Waits received originalCtx) :
    (worker.postReadSglAckHandle received).effects =
      if checkIovLen received.body = some originalCtx.iov.length ∧
          (originalCtx.dataLength + totalSize (iovsOf received.body originalCtx.iov.length)) % 2 ^ 32 =
            received.dataLength then
        (worker.copyIovs (fun _ => true) (·.lAddress) (sizeofIovs originalCtx.iov.length) 0 0 originalCtx.iov).effects
      else [] := by
  obtain ⟨-, none⟩ | ⟨other, others, handles⟩ := withOriginalCtx_cases worker received _
  · exact absurd waits (none originalCtx)
  · cases waits.unique others
    rw [postReadSglAckHandle, handles]
    simp only [checkIovLen_eq_some]
    split
    · exact (if_neg (by omega)).symm
    · split
      · rename_i illegal
        exact (if_neg (by grind)).symm
      · rename_i legal
        have count : field received.body 0 sizeofIovCount = originalCtx.iov.length := by grind
        rw [count]
        split
        · exact (if_neg (by omega)).symm
        · split
          · rename_i differs
            rw [dataSize32_eq, Nat.add_mod_mod] at differs
            exact (if_neg fun both => differs both.2).symm
          · rename_i same
            rw [dataSize32_eq] at same
            rw [if_pos (by grind)]
            exact Handled.effects_andThen rfl

theorem right_iff_readSglAck (known : OneSideFlag.ofFlags received.flags = some .readSglAck) :
    worker.Right received ↔ worker.ReadSglAckCareful received := by
  have handled : worker.handleReceiveCtx received = worker.postReadSglAckHandle received := by
    rw [handleReceiveCtx, known]
  obtain ⟨quiet, none⟩ | ⟨originalCtx, waits, -⟩ := withOriginalCtx_cases worker received _
  · exact iff_of_true (right_of_quiet (handled ▸ quiet)) fun originalCtx waits => absurd waits (none originalCtx)
  · have effects := handled ▸ postReadSglAckHandle_effects waits
    split at effects
    · rename_i passes
      have inside : sizeofIovs originalCtx.iov.length + 0 ≤ received.body.length :=
        (checkIovLen_eq_some.mp passes.1).2.2.2.2
      rw [right_iff_of_ack known rfl, effects, copyIovs_sources (length_body_lt received) inside]
      · constructor
        · intro sources other others _ _ count bounded copied
          cases waits.unique others
          exact sources count bounded (fun _ _ => rfl) (by simpa using copied)
        · intro careful count bounded _ copied
          exact careful originalCtx waits passes.1 passes.2 count bounded (by simpa using copied)
      · rw [effects]
        intro effect mem
        obtain ⟨iov, inList, -, written⟩ := mem_copyIovs mem
        obtain ⟨offset, rfl⟩ | rfl := written <;> exact .inr (mem_localBuffers waits inList)
    · rename_i fails
      refine iff_of_true (right_of_quiet effects) fun other others checked sizes => ?_
      cases waits.unique others
      exact absurd ⟨checked, sizes⟩ fails

theorem right_iff_write (known : OneSideFlag.ofFlags received.flags = some .write) :
    worker.Right received ↔ worker.WriteCareful received.body := by
  have handled : worker.handleReceiveCtx received = worker.postWriteAck received := by rw [handleReceiveCtx, known]
  rw [postWriteAck] at handled
  unfold WriteCareful
  split at handled
  · rename_i down
    exact iff_of_true (right_of_quiet (handled ▸ rfl)) fun up => by simp [up] at down
  split at handled
  · rename_i short
    exact iff_of_true (right_of_quiet (handled ▸ rfl)) fun _ long => absurd short (Nat.not_lt.mpr long)
  dsimp only at handled
  split at handled
  · rename_i invalid
    exact iff_of_true (right_of_quiet (handled ▸ rfl)) fun _ _ valid => by simp [valid] at invalid
  rename_i up long valid
  simp only [Bool.not_eq_true', Bool.not_eq_false] at up valid
  have effects : (worker.handleReceiveCtx received).effects = _ :=
    handled ▸ Handled.effects_andThen postAck_effects_nil
  have result : (worker.handleReceiveCtx received).result = .ok ↔ _ := handled ▸ Handled.result_andThen_eq_ok
  rw [postAck_result (by simp) (by simp)] at result
  simp only [up, Nat.not_lt.mp long, valid, forall_const]
  cases outcome : worker.memcpyS 0 with
  | refused =>
    rw [memcpy, outcome] at effects
    exact iff_of_true (right_of_quiet effects) trivial
  | copied | cleared =>
    simp only [memcpy, outcome] at effects result
    rw [right_iff_of_write known rfl]
    · simp [effects, result, Effect.SourceOk]
    · simp only [effects, forall_mem_singleton]
      exact .inl ⟨_, valid⟩
    · simp [effects, Effect.writes]

theorem right_iff_writeSgl (known : OneSideFlag.ofFlags received.flags = some .writeSgl) :
    worker.Right received ↔ worker.WriteSglCareful received.body := by
  have handled : worker.handleReceiveCtx received = worker.postWriteSglAck received := by
    rw [handleReceiveCtx, known]
  rw [postWriteSglAck] at handled
  split at handled
  · rename_i down
    exact iff_of_true (right_of_quiet (handled ▸ rfl)) fun _ up => by simp [up] at down
  rename_i up
  split at handled
  · rename_i unchecked
    exact iff_of_true (right_of_quiet (handled ▸ rfl)) fun _ _ checked => nomatch unchecked.symm.trans checked
  rename_i count checked
  dsimp only at handled
  rw [dataSize32_eq] at handled
  split at handled
  · rename_i short
    refine iff_of_true (right_of_quiet (handled ▸ rfl)) fun other _ same long => ?_
    cases checked.symm.trans same
    exact absurd short (Nat.not_lt.mpr long)
  rename_i long
  -- only the loop has effects, and its first entry decides whether it has any
  have effects : (worker.handleReceiveCtx received).effects = _ :=
    handled ▸ Handled.effects_andThen postAck_effects_nil
  have result : (worker.handleReceiveCtx received).result = .ok ↔ _ := handled ▸ Handled.result_andThen_eq_ok
  rw [postAck_result (by simp) (by simp), copyIovs_result, length_iovsOf] at result
  have nothing : (worker.handleReceiveCtx received).effects = [] ↔
      worker.validate (iovAt received.body sizeofIovCount) = false ∨ worker.memcpyS 0 = .refused := by
    obtain ⟨previous, rfl⟩ := Nat.exists_eq_succ_of_ne_zero (checkIovLen_eq_some.mp checked).2.2.1
    obtain ⟨rest, split⟩ := iovsOf_succ received.body previous
    rw [effects, split, copyIovs_effects_cons_nil]
  rw [right_iff_of_write known rfl]
  · have inside : sizeofIovs count + 0 ≤ received.body.length := (checkIovLen_eq_some.mp checked).2.2.2.2
    constructor
    · rintro ⟨sources, unchanged⟩ other _ same _
      cases checked.symm.trans same
      by_cases succeeded : (worker.handleReceiveCtx received).result = .ok
      · obtain ⟨⟨valid, copied⟩, answers⟩ := result.mp succeeded
        rw [effects, copyIovs_sources (length_body_lt received) inside] at sources
        have ends := sources count length_iovsOf.ge (fun iov mem => valid iov (mem_of_mem_take mem))
          copied
        have bounded := length_body_lt received
        rw [take_of_length_le length_iovsOf.le] at ends
        exact .inr ⟨valid, by simpa using copied, by omega, answers⟩
      · exact .inl (nothing.mp (unchanged succeeded))
    · intro careful
      obtain blocked | ⟨valid, copied, small, answers⟩ := careful count (by simpa using up) checked (Nat.not_lt.mp long)
      · rw [nothing.mpr blocked]
        exact ⟨fun _ mem => (nomatch mem), fun _ => rfl⟩
      · refine ⟨?_, fun failed => absurd (result.mpr ⟨⟨valid, by simpa using copied⟩, answers⟩) failed⟩
        rw [effects, copyIovs_sources (length_body_lt received) inside]
        intro taken _ _ _
        have part := totalSize_take_le (iovsOf received.body count) taken
        omega
  · rw [effects]
    intro effect mem
    obtain ⟨iov, -, valid, ⟨offset, rfl⟩ | rfl⟩ := mem_copyIovs mem <;> exact .inl ⟨_, valid⟩
  · rw [effects]
    exact fun _ => writes_of_mem_copyIovs

/-- Whatever the peer sends, the handler is right exactly when the data of a write are in its body
and its acknowledgement can be posted, when a scatter write is carried out wholly or not at all and
the sum of its sizes does not wrap, and when the acknowledgement of a scatter read is as long as the
buffers it is for. -/
theorem right_iff_careful (worker : Worker) (received : Received) :
    worker.Right received ↔ worker.Careful received := by
  unfold Careful
  split
  · rename_i known
    exact right_iff_write known
  · rename_i known
    exact right_iff_writeSgl known
  · rename_i known
    exact right_iff_readSglAck known
  · rename_i notWrite notWriteSgl notReadSglAck
    refine iff_of_true ?_ trivial
    cases known : OneSideFlag.ofFlags received.flags with
    | none => exact right_of_quiet (by simp [handleReceiveCtx, known])
    | some flag =>
      cases flag with
      | read => exact right_read known
      | readAck => exact right_readAck known
      | readSgl => exact right_readSgl known
      | write => exact absurd known notWrite
      | writeSgl => exact absurd known notWriteSgl
      | readSglAck => exact absurd known notReadSglAck
      | writeAck | writeSglAck => exact right_writeAckHandle (by rw [handleReceiveCtx, known]; rfl)

end Worker

/-! ## Messages that are not handled rightly -/

/-- A worker with one region of 16 bytes and one scatter read of 1000 bytes that waits. -/
def smallWorker : Worker where
  sock := 0
  upContext := true
  checker := ⟨fun key => if key = 1 then some (4096, 4112) else none⟩
  ctxMap := fun seqNo =>
    if seqNo = 7 then
      some { sock := 0, dataLength := 54, iov := [⟨8192, 0, 0, 1000⟩], iov_ne_nil := by simp, length_iov_le := by simp }
    else none
  opCtxLeft := true
  sglCtxLeft := true
  memcpyS := fun _ => .copied
  post := .ok
  modifyInEpollOut := .ok
  modifyInEpollWrNorm := .ok
  oneSideDone := .ok

/-- The bytes of an entry for remote address 4096. -/
def iovBytes (key size : UInt8) : List UInt8 :=
  replicate 8 0 ++ [0, 16] ++ replicate 14 0 ++ key :: replicate 7 0 ++ size :: replicate 19 0

def receivedOf (flags : UInt16) (seqNo : UInt32) (body : List UInt8) (pos : 0 < body.length)
    (small : body.length ≤ netSgeMaxSize) (full : noBodyFlag flags = false) : Received where
  flags := flags
  seqNo := seqNo
  dataLength := body.length
  body := body
  dataLength_pos := pos
  dataLength_le := small
  length_body := by rw [full]; rfl

/-- A write of 16 bytes without any data. -/
def bareWrite : Received := receivedOf 5 1 (iovBytes 1 16) (by decide) (by decide) rfl

/-- A scatter write whose second entry has a key that is not registered. -/
def halfWrite : Received :=
  receivedOf 9 1 ([2, 0] ++ iovBytes 1 4 ++ iovBytes 2 4 ++ replicate 8 0) (by decide) (by decide) rfl

/-- The acknowledgement of the scatter read, without any data. -/
def bareReadSglAck : Received := receivedOf 8 7 ([1, 0] ++ iovBytes 0 0) (by decide) (by decide) rfl

/-- The write and the acknowledgement are read past the ends of their bodies, and the scatter write
is rejected after its first entry was written. -/
theorem careless_messages :
    (bareWrite.body.length = 52 ∧ smallWorker.handleReceiveCtx bareWrite = ⟨[.copy 52 16 4096], .ok⟩ ∧
      ¬ smallWorker.Right bareWrite) ∧
    (smallWorker.handleReceiveCtx halfWrite = ⟨[.copy 106 4 4096], .invalidLkey⟩ ∧
      ¬ smallWorker.Right halfWrite) ∧
    (bareReadSglAck.body.length = 54 ∧
      smallWorker.handleReceiveCtx bareReadSglAck = ⟨[.copy 54 1000 8192], .ok⟩ ∧
      ¬ smallWorker.Right bareReadSglAck) := by
  have written : smallWorker.handleReceiveCtx bareWrite = ⟨[.copy 52 16 4096], .ok⟩ := by decide
  have rejected : smallWorker.handleReceiveCtx halfWrite = ⟨[.copy 106 4 4096], .invalidLkey⟩ := by decide
  have acknowledged : smallWorker.handleReceiveCtx bareReadSglAck = ⟨[.copy 54 1000 8192], .ok⟩ := by decide
  refine ⟨⟨rfl, written, fun right => ?_⟩, ⟨rejected, fun right => ?_⟩, rfl, acknowledged, fun right => ?_⟩
  · have inside := right.sources (.copy 52 16 4096) (by rw [written]; exact mem_singleton_self _)
    exact absurd inside (show ¬ 52 + 16 ≤ 52 by decide)
  · exact nomatch right.kept .writeSgl rfl rfl (by rw [rejected]; decide) (.copy 106 4 4096)
      (by rw [rejected]; exact mem_singleton_self _)
  · have inside := right.sources (.copy 54 1000 8192) (by rw [acknowledged]; exact mem_singleton_self _)
    exact absurd inside (show ¬ 54 + 1000 ≤ 54 by decide)

end UbsComm.Sock
