import UbsComm.Ub.PostTx

/-! # What the build loop of `umq_ub_post_tx` accepts

`IsWorkRequest` says when a stretch of the chain makes one work request and
`Builds` when the whole chain is cut into such stretches.  `ReachesUnregistered`
describes the chains on which the loop runs into a buffer without a registered
segment before any other fault: those are the exits that leave `*bad_qbuf` at NULL.
Both are shown to be exact for `umqUbTxBuild`. -/

namespace UbsComm.Ub

open List

def bytes (buffers : List UmqBuf) : Nat := (buffers.map (·.dataSize)).sum

@[simp] theorem bytes_nil : bytes [] = 0 := rfl

@[simp] theorem bytes_cons {buffer : UmqBuf} {rest : List UmqBuf} :
    bytes (buffer :: rest) = buffer.dataSize + bytes rest := by
  simp [bytes]

@[simp] theorem bytes_append {front back : List UmqBuf} : bytes (front ++ back) = bytes front + bytes back := by
  simp [bytes]

variable (queue : TxQueue)

def TxQueue.HeadAccepted (buffer : UmqBuf) : Prop :=
  buffer.totalDataSize ≠ 0 ∧
    ¬ (buffer.totalDataSize > queue.maxSendSize ∧ (buffer.opcode = .send ∨ buffer.opcode = .sendImm))

/-- The buffer's data lies in a pool whose segment the device has registered. -/
def TxQueue.Registered (buffer : UmqBuf) : Prop :=
  ∃ mempoolId, queue.realMempool buffer = some mempoolId ∧ mempoolId ≠ qbufPoolMempoolIdMax ∧
    queue.tsegList mempoolId = true

/-- The peer's segment is usable for the `wrIndex`-th request. -/
def TxQueue.RemoteReady (wrIndex : Nat) (remote : RefSge) : Prop :=
  queue.remoteMemAccess = true ∧ remote.mempoolId < umqMaxTsegNum ∧ queue.boundAt wrIndex = true ∧
    queue.importedTseg remote.mempoolId = true

def TxQueue.RemoteAccepted (wrIndex : Nat) (buffer : UmqBuf) : Prop :=
  match buffer.opcode with
  | .read => queue.RemoteReady wrIndex buffer.remoteSge ∧ buffer.remoteSge.length ≤ buffer.totalDataSize
  | .write | .writeImm =>
    queue.RemoteReady wrIndex buffer.remoteSge ∧ buffer.totalDataSize ≤ buffer.remoteSge.length
  | .send | .sendImm | .nop => True

/-- The buffers `taken` so far are part of a work request headed by `head` that still
misses bytes. -/
structure Unfinished (head : UmqBuf) (taken : List UmqBuf) : Prop where
  accepted : queue.HeadAccepted head
  registered : ∀ buffer ∈ taken, queue.Registered buffer
  missing : bytes taken < head.totalDataSize

/-- `before ++ [last]` makes one work request headed by `head`. -/
structure IsWorkRequest (wrIndex : Nat) (head : UmqBuf) (before : List UmqBuf) (last : UmqBuf) : Prop where
  unfinished : Unfinished queue head before
  headed : (before ++ [last]).head? = some head
  sges : before.length < queue.maxTxSge
  lastRegistered : queue.Registered last
  complete : bytes before + last.dataSize = head.totalDataSize
  remote : queue.RemoteAccepted wrIndex head

/-- The chain is cut into work requests without any fault, the next one being `wrIndex`. -/
inductive Builds (queue : TxQueue) : Nat → List UmqBuf → Prop where
  | done {wrIndex : Nat} : Builds queue wrIndex []
  | request {wrIndex : Nat} {head last : UmqBuf} {before rest : List UmqBuf}
      (request : IsWorkRequest queue wrIndex head before last)
      (room : rest ≠ [] → wrIndex + 1 ≠ umqBatchSize)
      (others : Builds queue (wrIndex + 1) rest) : Builds queue wrIndex (before ++ last :: rest)

/-- The first fault of the chain is a buffer without a registered segment. -/
inductive ReachesUnregistered (queue : TxQueue) : Nat → List UmqBuf → Prop where
  | here {wrIndex : Nat} {head buffer : UmqBuf} {taken rest : List UmqBuf}
      (unfinished : Unfinished queue head taken) (headed : (taken ++ [buffer]).head? = some head)
      (sges : taken.length < queue.maxTxSge) (unregistered : ¬ queue.Registered buffer) :
      ReachesUnregistered queue wrIndex (taken ++ buffer :: rest)
  | later {wrIndex : Nat} {head last : UmqBuf} {before rest : List UmqBuf}
      (request : IsWorkRequest queue wrIndex head before last) (room : wrIndex + 1 ≠ umqBatchSize)
      (others : ReachesUnregistered queue (wrIndex + 1) rest) :
      ReachesUnregistered queue wrIndex (before ++ last :: rest)

/-- The first buffers of the work requests a chain is cut into; `missing` is what the
request under way still lacks. -/
def workRequestHeads : Nat → List UmqBuf → List UmqBuf
  | _, [] => []
  | 0, buffer :: rest => buffer :: workRequestHeads (buffer.totalDataSize - buffer.dataSize) rest
  | missing + 1, buffer :: rest => workRequestHeads (missing + 1 - buffer.dataSize) rest

/-- The queue id in the immediate of a work request; only sends carry the peer's. -/
def immUmqId : UmqOpcode → Fin (2 ^ 18)
  | .send | .sendImm => Fin.ofNat _ queue.remoteUmqId
  | .write | .writeImm | .read | .nop => 0

/-- What a work request keeps of the buffer it starts with. -/
structure WrOf (buffer : UmqBuf) (wr : UrmaJfsWr) : Prop where
  userCtx : wr.userCtx = buffer.addr
  consumesRqe : wr.opcode.consumesRqe = (transformOpCode buffer.opcode).consumesRqe
  umqId : wr.imm.umqId = immUmqId queue buffer.opcode

/-! ## One round of the loops -/

variable {queue} {buffer : UmqBuf} {taken chain : List UmqBuf} {wrIndex : Nat} {current : Option PartialWr}
  {started filled : PartialWr} {stop : TxStop}

theorem umqUbTxStart_eq_ok :
    umqUbTxStart queue buffer = .ok started ↔
      queue.HeadAccepted buffer ∧ started = ⟨buffer, buffer.totalDataSize, []⟩ := by
  unfold umqUbTxStart TxQueue.HeadAccepted
  split_ifs with empty large
  · simp [empty]
  · simp [large]
  · simp only [Except.ok.injEq]
    exact ⟨fun same => ⟨⟨empty, large⟩, same.symm⟩, fun both => both.2.symm⟩

theorem umqUbTxStart_badSet (stopped : umqUbTxStart queue buffer = .error stop) : stop.badSet = true := by
  unfold umqUbTxStart at stopped
  split_ifs at stopped <;> cases stopped <;> rfl

theorem umqUbTxAddSge_eq_ok {current filled : PartialWr} (added : umqUbTxAddSge queue current buffer = .ok filled) :
    current.sges.length < queue.maxTxSge ∧ queue.Registered buffer ∧ buffer.dataSize ≤ current.restSize ∧
      filled.head = current.head ∧ filled.restSize = current.restSize - buffer.dataSize ∧
      filled.sges.length = current.sges.length + 1 := by
  unfold umqUbTxAddSge at added
  cases pool : queue.realMempool buffer with
  | none =>
    simp only [pool] at added
    split_ifs at added
  | some mempoolId =>
    simp only [pool] at added
    split_ifs at added with full escape missing small
    cases added
    refine ⟨by omega, ⟨mempoolId, pool, escape, by simpa using missing⟩, by omega, rfl, rfl, by simp⟩

theorem umqUbTxAddSge_accepts {current : PartialWr}
    (room : current.sges.length < queue.maxTxSge) (registered : queue.Registered buffer)
    (fits : buffer.dataSize ≤ current.restSize) : ∃ filled, umqUbTxAddSge queue current buffer = .ok filled := by
  obtain ⟨mempoolId, pool, notEscape, tseg⟩ := registered
  unfold umqUbTxAddSge
  rw [if_neg (by omega), pool]
  simp only [notEscape, tseg, if_false, Bool.not_true, Bool.false_eq_true]
  rw [if_neg (by omega)]
  exact ⟨_, rfl⟩

/-- The exits without `*bad_qbuf` are those for a buffer without a registered segment. -/
theorem umqUbTxAddSge_unset {current : PartialWr} :
    (∃ err, umqUbTxAddSge queue current buffer = .error ⟨err, false⟩) ↔
      current.sges.length < queue.maxTxSge ∧ ¬ queue.Registered buffer := by
  unfold umqUbTxAddSge TxQueue.Registered
  cases pool : queue.realMempool buffer with
  | none => split_ifs <;> simp_all
  | some mempoolId =>
    simp only [Option.some.injEq]
    split_ifs <;> simp_all

theorem umqUbRemoteCheck_eq_ok {lengthOk : Bool} {remote : RefSge} :
    umqUbRemoteCheck queue wrIndex lengthOk remote = .ok () ↔
      queue.RemoteReady wrIndex remote ∧ lengthOk = true := by
  unfold umqUbRemoteCheck TxQueue.RemoteReady
  split_ifs <;> simp_all

theorem umqUbFillWr_eq_ok {current : PartialWr} {wr : UrmaJfsWr} (filled : umqUbFillWr queue wrIndex current = .ok wr) :
    queue.RemoteAccepted wrIndex current.head ∧ WrOf queue current.head wr := by
  unfold umqUbFillWr at filled
  unfold TxQueue.RemoteAccepted
  cases opcode : current.head.opcode <;> simp only [opcode] at filled ⊢
  case send | sendImm | nop =>
    cases filled
    exact ⟨trivial, rfl, by simp [opcode, transformOpCode, UrmaOpcode.consumesRqe], by rw [opcode]; rfl⟩
  all_goals
    cases checked : umqUbRemoteCheck queue wrIndex _ _ with
    | error err => rw [checked] at filled; cases filled
    | ok _ =>
      rw [checked] at filled
      cases filled
      obtain ⟨ready, lengthOk⟩ := umqUbRemoteCheck_eq_ok.mp checked
      exact ⟨⟨ready, by simpa using lengthOk⟩, rfl, by simp [opcode], by rw [opcode]; rfl⟩

theorem umqUbFillWr_accepts {current : PartialWr}
    (remote : queue.RemoteAccepted wrIndex current.head) : ∃ wr, umqUbFillWr queue wrIndex current = .ok wr := by
  unfold TxQueue.RemoteAccepted at remote
  unfold umqUbFillWr
  cases opcode : current.head.opcode <;> simp only [opcode] at remote ⊢
  case send | sendImm | nop => exact ⟨_, rfl⟩
  all_goals
    rw [umqUbRemoteCheck_eq_ok.mpr ⟨remote.1, by simpa using remote.2⟩]
    exact ⟨_, rfl⟩

/-! ## The loops -/

/-- `taken` are the buffers the loop has put into the request it is filling. -/
def Cursor (queue : TxQueue) (taken : List UmqBuf) : Option PartialWr → Prop
  | none => taken = []
  | some current => taken.head? = some current.head ∧ Unfinished queue current.head taken ∧
      current.sges.length = taken.length ∧ current.restSize = current.head.totalDataSize - bytes taken

theorem cursor_nil {queue : TxQueue} : Cursor queue [] none := rfl

/-- The request `started` receives `buffer` after the buffers `taken`. -/
structure Opened (queue : TxQueue) (taken : List UmqBuf) (started : PartialWr) (buffer : UmqBuf) : Prop where
  headed : (taken ++ [buffer]).head? = some started.head
  unfinished : Unfinished queue started.head taken
  sges : started.sges.length = taken.length
  restSize : started.restSize = started.head.totalDataSize - bytes taken

theorem umqUbTxOpen_eq_ok (cursor : Cursor queue taken current)
    (opened : umqUbTxOpen queue current buffer = .ok started) : Opened queue taken started buffer := by
  cases current with
  | none =>
    obtain ⟨accepted, rfl⟩ := umqUbTxStart_eq_ok.mp opened
    cases cursor
    exact ⟨rfl, ⟨accepted, by simp, Nat.pos_of_ne_zero accepted.1⟩, rfl, by simp⟩
  | some current =>
    cases opened
    obtain ⟨headed, unfinished, sges, restSize⟩ := cursor
    exact ⟨by simp [headed], unfinished, sges, restSize⟩

variable {buffer head : UmqBuf} {ε α β : Type} {first : Except ε α} {next : α → Except ε β} {consume : Bool}

theorem umqUbTxOpen_accepts (cursor : Cursor queue taken current) (accepted : queue.HeadAccepted head)
    (headed : (taken ++ [buffer]).head? = some head) :
    ∃ started, umqUbTxOpen queue current buffer = .ok started ∧ started.head = head := by
  cases current with
  | none =>
    cases cursor
    simp only [nil_append, head?_cons, Option.some.injEq] at headed
    subst headed
    exact ⟨_, umqUbTxStart_eq_ok.mpr ⟨accepted, rfl⟩, rfl⟩
  | some current =>
    refine ⟨current, rfl, ?_⟩
    have := cursor.1
    simpa [this] using headed

section

variable (opened : Opened queue taken started buffer)
include opened

variable (added : umqUbTxAddSge queue started buffer = .ok filled)
include added

theorem Opened.extend :
    filled.head = started.head ∧ filled.restSize + (bytes taken + buffer.dataSize) = started.head.totalDataSize ∧
      queue.Registered buffer ∧ taken.length < queue.maxTxSge ∧ filled.sges.length = taken.length + 1 := by
  obtain ⟨room, registered, fits, head, restSize, sges⟩ := umqUbTxAddSge_eq_ok added
  have missing := opened.unfinished.missing
  have rest := opened.restSize
  have count := opened.sges
  exact ⟨head, by omega, registered, by omega, by omega⟩

theorem Opened.cursor (more : filled.restSize ≠ 0) : Cursor queue (taken ++ [buffer]) (some filled) := by
  obtain ⟨head, total, registered, -, sges⟩ := opened.extend added
  refine ⟨by rw [head]; exact opened.headed, ⟨by rw [head]; exact opened.unfinished.accepted, ?_, ?_⟩, ?_, ?_⟩
  · exact forall_mem_append.mpr ⟨opened.unfinished.registered, forall_mem_singleton.mpr registered⟩
  · rw [head]; simp; omega
  · simp [sges]
  · rw [head]; simp; omega

theorem Opened.request {wr : UrmaJfsWr} (complete : filled.restSize = 0)
    (made : umqUbFillWr queue wrIndex filled = .ok wr) :
    IsWorkRequest queue wrIndex started.head taken buffer ∧ WrOf queue started.head wr := by
  obtain ⟨head, total, registered, room, -⟩ := opened.extend added
  obtain ⟨remote, wrOf⟩ := umqUbFillWr_eq_ok made
  rw [head] at remote wrOf
  exact ⟨⟨opened.unfinished, opened.headed, room, registered, by omega, remote⟩, wrOf⟩

end

/-- One round of the loops, with the request it works on made explicit. -/
theorem umqUbTxBuild_cons {queue : TxQueue} {wrIndex : Nat} {consume : Bool} {current : Option PartialWr}
    {buffer : UmqBuf} {rest : List UmqBuf} :
    umqUbTxBuild queue wrIndex consume current (buffer :: rest) =
      (umqUbTxOpen queue current buffer >>= fun started =>
        umqUbTxAddSge queue started buffer >>= fun filled =>
          if filled.restSize ≠ 0 then umqUbTxBuild queue wrIndex consume (some filled) rest
          else (umqUbFillWr queue wrIndex filled).mapError (TxStop.mk · true) >>= fun wr =>
            if wrIndex + 1 = umqBatchSize ∧ rest ≠ [] then .error ⟨.einval, true⟩
            else umqUbTxBuild queue (wrIndex + 1) filled.head.opcode.consumeRqe none rest >>= fun built =>
              .ok (built.1, wr :: built.2)) := by
  cases current <;> rfl

theorem bind_eq_ok {result : β} :
    (first >>= next) = .ok result ↔ ∃ value, first = .ok value ∧ next value = .ok result := by
  cases first <;> simp [bind, Except.bind]

theorem bind_eq_error {stop : ε} :
    (first >>= next) = .error stop ↔
      first = .error stop ∨ ∃ value, first = .ok value ∧ next value = .error stop := by
  cases first <;> simp [bind, Except.bind]

theorem mapError_eq_ok {ε δ α : Type} {result : Except ε α} {f : ε → δ} {value : α} :
    result.mapError f = .ok value ↔ result = .ok value := by
  cases result <;> simp [Except.mapError]

def openHead : Option PartialWr → List UmqBuf
  | none => []
  | some current => [current.head]

def missingBytes : Option PartialWr → Nat
  | none => 0
  | some current => current.restSize

/-- `opcode_consume_rqe` after the requests with the given heads. -/
def lastConsumes (consume : Bool) (heads : List UmqBuf) : Bool :=
  heads.getLast?.elim consume (·.opcode.consumeRqe)

section

variable (cursor : Cursor queue taken current)
include cursor

theorem openHead_workRequestHeads (opened : umqUbTxOpen queue current buffer = .ok started) (rest : List UmqBuf) :
    openHead current ++ workRequestHeads (missingBytes current) (buffer :: rest) =
      started.head :: workRequestHeads (started.restSize - buffer.dataSize) rest := by
  cases current with
  | none =>
    obtain ⟨-, rfl⟩ := umqUbTxStart_eq_ok.mp opened
    rfl
  | some current =>
    cases opened
    obtain ⟨-, unfinished, -, restSize⟩ := cursor
    have missing := unfinished.missing
    obtain ⟨left, leftEqual⟩ : ∃ left, started.restSize = left + 1 := ⟨started.restSize - 1, by omega⟩
    simp only [openHead, missingBytes, leftEqual, workRequestHeads, singleton_append]

theorem umqUbTxBuild_ok {consume result : Bool} {wrs : List UrmaJfsWr}
    (built : umqUbTxBuild queue wrIndex consume current chain = .ok (result, wrs)) :
    Builds queue wrIndex (taken ++ chain) ∧
      List.Forall₂ (WrOf queue) (openHead current ++ workRequestHeads (missingBytes current) chain) wrs ∧
      result = lastConsumes consume (openHead current ++ workRequestHeads (missingBytes current) chain) := by
  induction chain generalizing wrIndex consume result current taken wrs with
  | nil =>
    cases current with
    | none =>
      cases cursor
      cases built
      exact ⟨.done, .nil, rfl⟩
    | some current => cases built
  | cons buffer rest ih =>
    rw [umqUbTxBuild_cons] at built
    obtain ⟨started, opened, built⟩ := bind_eq_ok.mp built
    obtain ⟨filled, added, built⟩ := bind_eq_ok.mp built
    rw [openHead_workRequestHeads cursor opened]
    have opened := umqUbTxOpen_eq_ok cursor opened
    obtain ⟨sameHead, total, -⟩ := opened.extend added
    have restSize : filled.restSize = started.restSize - buffer.dataSize := (umqUbTxAddSge_eq_ok added).2.2.2.2.1
    split at built
    · rename_i more
      have extended := ih (opened.cursor added more) built
      rw [← sameHead, ← restSize]
      simpa [openHead, missingBytes] using extended
    · rename_i complete
      have complete : filled.restSize = 0 := by simpa using complete
      obtain ⟨wr, made, built⟩ := bind_eq_ok.mp built
      obtain ⟨request, wrOf⟩ := opened.request added complete (mapError_eq_ok.mp made)
      split at built
      · cases built
      · rename_i room
        obtain ⟨⟨nextResult, nextWrs⟩, builtRest, same⟩ := bind_eq_ok.mp built
        cases same
        obtain ⟨builds, wrsOf, consumes⟩ := ih cursor_nil builtRest
        have missing : started.restSize - buffer.dataSize = 0 := by omega
        rw [missing]
        refine ⟨.request request (fun nonempty => fun full => room ⟨full, nonempty⟩) builds, .cons wrOf wrsOf, ?_⟩
        rw [consumes, sameHead]
        simp only [openHead, missingBytes, nil_append, lastConsumes, getLast?_cons]
        cases (workRequestHeads 0 rest).getLast? <;> rfl

theorem umqUbTxBuild_unset
    (built : umqUbTxBuild queue wrIndex consume current chain = .error stop) (unset : stop.badSet = false) :
    ReachesUnregistered queue wrIndex (taken ++ chain) := by
  induction chain generalizing wrIndex consume current taken with
  | nil =>
    cases current <;> cases built
    cases unset
  | cons buffer rest ih =>
    rw [umqUbTxBuild_cons] at built
    rcases bind_eq_error.mp built with stopped | ⟨started, opened, built⟩
    · cases current with
      | none => rw [umqUbTxStart_badSet stopped] at unset; cases unset
      | some current => cases stopped
    · have opened := umqUbTxOpen_eq_ok cursor opened
      rcases bind_eq_error.mp built with stopped | ⟨filled, added, built⟩
      · -- the buffer itself is the fault
        obtain ⟨err, badSet⟩ := stop
        cases unset
        obtain ⟨room, unregistered⟩ := umqUbTxAddSge_unset.mp ⟨err, stopped⟩
        exact .here opened.unfinished opened.headed (by rw [← opened.sges]; exact room) unregistered
      · split at built
        · rename_i more
          simpa using ih (opened.cursor added more) built
        · rename_i complete
          have complete : filled.restSize = 0 := by simpa using complete
          rcases bind_eq_error.mp built with stopped | ⟨wr, made, built⟩
          · cases made : umqUbFillWr queue wrIndex filled with
            | ok wr => rw [made] at stopped; cases stopped
            | error err => rw [made] at stopped; cases stopped; cases unset
          · obtain ⟨request, -⟩ := opened.request added complete (mapError_eq_ok.mp made)
            split at built
            · cases built; cases unset
            · rename_i room
              rcases bind_eq_error.mp built with stopped | ⟨next, -, impossible⟩
              · have reached := ih cursor_nil stopped
                refine .later request (fun full => room ⟨full, ?_⟩) reached
                rintro rfl
                cases stopped
              · cases impossible

end

theorem umqUbTxBuild_length {built : Bool × List UrmaJfsWr}
    (done : umqUbTxBuild queue wrIndex consume current chain = .ok built) (small : wrIndex < umqBatchSize) :
    wrIndex + built.2.length ≤ umqBatchSize := by
  induction chain generalizing wrIndex consume current built with
  | nil =>
    cases current <;> cases done
    exact Nat.le_of_lt small
  | cons buffer rest ih =>
    rw [umqUbTxBuild_cons] at done
    obtain ⟨started, -, done⟩ := bind_eq_ok.mp done
    obtain ⟨filled, -, done⟩ := bind_eq_ok.mp done
    split at done
    · exact ih done small
    · obtain ⟨wr, -, done⟩ := bind_eq_ok.mp done
      split at done
      · cases done
      · rename_i room
        obtain ⟨next, others, same⟩ := bind_eq_ok.mp done
        cases same
        simp only [length_cons]
        cases rest with
        | nil => cases others; simp only [length_nil]; omega
        | cons _ _ =>
          have := ih others (by simp at room; omega)
          omega

theorem workRequestHeads_sublist (missing : Nat) (chain : List UmqBuf) :
    (workRequestHeads missing chain).Sublist chain := by
  induction chain generalizing missing with
  | nil => cases missing <;> exact .slnil
  | cons buffer rest ih =>
    cases missing with
    | zero => exact (ih _).cons_cons buffer
    | succ missing => exact (ih _).cons buffer

/-! ## Running the loops on a described chain -/

theorem Unfinished.take {taken more : List UmqBuf}
    (unfinished : Unfinished queue head (taken ++ more)) : Unfinished queue head taken := by
  refine ⟨unfinished.accepted, fun buffer mem => unfinished.registered buffer (by simp [mem]), ?_⟩
  have missing := unfinished.missing
  simp only [bytes_append] at missing
  omega

theorem umqUbTxOpen_addSge (cursor : Cursor queue taken current) (accepted : queue.HeadAccepted head)
    (headed : (taken ++ [buffer]).head? = some head) (room : taken.length < queue.maxTxSge)
    (registered : queue.Registered buffer) (fits : bytes taken + buffer.dataSize ≤ head.totalDataSize) :
    ∃ started filled, umqUbTxOpen queue current buffer = .ok started ∧
      umqUbTxAddSge queue started buffer = .ok filled ∧ started.head = head ∧
      Opened queue taken started buffer := by
  obtain ⟨started, opens, sameHead⟩ := umqUbTxOpen_accepts cursor accepted headed
  have opened := umqUbTxOpen_eq_ok cursor opens
  have restSize := opened.restSize
  rw [sameHead] at restSize
  obtain ⟨filled, added⟩ := umqUbTxAddSge_accepts (by rw [opened.sges]; exact room)
    registered (by omega : buffer.dataSize ≤ started.restSize)
  exact ⟨started, filled, opens, added, sameHead, opened⟩

theorem umqUbTxBuild_fill (wrIndex : Nat) (consume : Bool) {rest more : List UmqBuf}
    (cursor : Cursor queue taken current) (headed : (taken ++ more ++ rest).head? = some head)
    (unfinished : Unfinished queue head (taken ++ more)) (room : (taken ++ more).length ≤ queue.maxTxSge) :
    ∃ filled, Cursor queue (taken ++ more) filled ∧
      umqUbTxBuild queue wrIndex consume current (more ++ rest) =
        umqUbTxBuild queue wrIndex consume filled rest := by
  induction more generalizing current taken with
  | nil => exact ⟨current, by simpa using cursor, rfl⟩
  | cons buffer more ih =>
    have split : taken ++ buffer :: more = taken ++ [buffer] ++ more := by simp
    rw [split] at unfinished headed room ⊢
    have firstMissing := unfinished.take.missing
    simp only [bytes_append, bytes_cons] at firstMissing
    have headedHere : (taken ++ [buffer]).head? = some head := by
      rw [← headed]
      cases taken <;> simp
    obtain ⟨started, filled, opens, added, sameHead, opened⟩ := umqUbTxOpen_addSge cursor unfinished.accepted
      headedHere (by simp at room; omega) (unfinished.registered buffer (by simp)) (by omega)
    obtain ⟨filledHead, total, -⟩ := opened.extend added
    have more : filled.restSize ≠ 0 := by rw [sameHead] at total; omega
    obtain ⟨next, nextCursor, same⟩ := ih (opened.cursor added more) headed unfinished room
    refine ⟨next, nextCursor, ?_⟩
    rw [← same, cons_append, umqUbTxBuild_cons, opens]
    simp only [bind, Except.bind, added]
    rw [if_pos more]

theorem IsWorkRequest.build {head last : UmqBuf} {before rest : List UmqBuf}
    (request : IsWorkRequest queue wrIndex head before last) (room : rest ≠ [] → wrIndex + 1 ≠ umqBatchSize)
    (consume : Bool) :
    ∃ wr, umqUbTxBuild queue wrIndex consume none (before ++ last :: rest) =
      (umqUbTxBuild queue (wrIndex + 1) head.opcode.consumeRqe none rest >>= fun built =>
        .ok (built.1, wr :: built.2)) := by
  have headed : ([] ++ before ++ last :: rest).head? = some head := by
    rw [← request.headed]
    cases before <;> simp
  obtain ⟨current, cursor, same⟩ := umqUbTxBuild_fill wrIndex consume
    cursor_nil headed (by simpa using request.unfinished) (by simpa using Nat.le_of_lt request.sges)
  rw [nil_append] at cursor
  obtain ⟨started, filled, opens, added, sameHead, opened⟩ := umqUbTxOpen_addSge cursor request.unfinished.accepted
    request.headed request.sges request.lastRegistered (by rw [request.complete])
  obtain ⟨filledHead, total, -⟩ := opened.extend added
  have complete : filled.restSize = 0 := by
    have := request.complete
    rw [sameHead] at total
    omega
  obtain ⟨wr, made⟩ := umqUbFillWr_accepts
    (by rw [filledHead, sameHead]; exact request.remote : queue.RemoteAccepted wrIndex filled.head)
  refine ⟨wr, ?_⟩
  rw [same, umqUbTxBuild_cons, opens]
  simp only [bind, Except.bind, added, complete, made, Except.mapError, ne_eq, not_true, if_false]
  rw [if_neg (fun both => room both.2 both.1), filledHead, sameHead]

theorem Builds.build (builds : Builds queue wrIndex chain) :
    ∀ consume, ∃ built, umqUbTxBuild queue wrIndex consume none chain = .ok built := by
  induction builds with
  | done => exact fun consume => ⟨_, rfl⟩
  | request request room _ ih =>
    intro consume
    obtain ⟨wr, same⟩ := request.build room consume
    obtain ⟨built, others⟩ := ih _
    rw [same, others]
    exact ⟨_, rfl⟩

theorem ReachesUnregistered.build (reaches : ReachesUnregistered queue wrIndex chain) :
    ∀ consume, ∃ err, umqUbTxBuild queue wrIndex consume none chain = .error ⟨err, false⟩ := by
  induction reaches with
  | @here wrIndex head buffer taken rest unfinished headed sges unregistered =>
    intro consume
    have headedChain : ([] ++ taken ++ buffer :: rest).head? = some head := by
      rw [← headed]
      cases taken <;> simp
    obtain ⟨current, cursor, same⟩ := umqUbTxBuild_fill wrIndex consume
      cursor_nil headedChain (by simpa using unfinished)
      (by simpa using Nat.le_of_lt sges)
    obtain ⟨started, opens, -⟩ := umqUbTxOpen_accepts cursor unfinished.accepted headed
    have opened := umqUbTxOpen_eq_ok cursor opens
    obtain ⟨err, stopped⟩ := umqUbTxAddSge_unset.mpr ⟨by rw [opened.sges]; exact sges, unregistered⟩
    refine ⟨err, ?_⟩
    rw [same, umqUbTxBuild_cons, opens]
    simp only [bind, Except.bind, stopped]
  | later request room _ ih =>
    intro consume
    obtain ⟨wr, same⟩ := request.build (fun _ => room) consume
    obtain ⟨err, stopped⟩ := ih _
    refine ⟨err, ?_⟩
    rw [same, stopped]
    rfl

end UbsComm.Ub
