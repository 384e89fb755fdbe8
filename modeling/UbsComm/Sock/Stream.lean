import UbsComm.Library.Run
import Mathlib.Logic.Function.Basic

/-! # The byte stream of a socket

Messages reach a socket without TLS from the send queue, which the worker drains with partial writes
that are resumed later, or directly from a call.  A state is the queue, the message that is being
sent, the marks on the operation contexts, the bytes written and a record of the messages begun and
of the sends reported. -/

namespace UbsComm.Sock

open Library List Function

/-- The operation types of contexts that are sent. -/
inductive SockOpType where
  | send
  | sendRaw
  | sendRawSgl
  | write
  | read
  | sglWrite
  | sglRead
  | writeAck
  | readAck
  | sglWriteAck
  | sglReadAck

/-- The types whose success is reported when they are sent. -/
def SockOpType.twoSide : SockOpType → Bool
  | .send | .sendRaw | .sendRawSgl => true
  | .write | .read | .sglWrite | .sglRead | .writeAck | .readAck | .sglWriteAck | .sglReadAck => false

/-- The types whose size is computed from the header's data length. -/
def SockOpType.sizedByHeader : SockOpType → Bool
  | .sendRawSgl | .readAck | .sglRead | .sglWrite | .sglReadAck => true
  | .send | .sendRaw | .write | .read | .writeAck | .sglWriteAck => false

/-- `UBSHcomNetTransSgeIov`: its own bytes and those at the two addresses. -/
structure TransIov where
  encoded : List UInt8
  atLocal : List UInt8
  atRemote : List UInt8

/-- What an operation context has to send; `request` is the payload of `SS_SEND` and `SS_SEND_RAW`. -/
structure OpRequest where
  opType : SockOpType
  header : List UInt8
  dataLength : Nat
  request : List UInt8
  iovCount : List UInt8
  iov : List TransIov
  header_pos : 0 < header.length

namespace OpRequest

variable (request : OpRequest)

/-- The scatter list of `COMPOSE_REQUEST`. -/
def chunks : List (List UInt8) :=
  match request.opType with
  | .send | .sendRaw => [request.header, request.request]
  | .sendRawSgl | .readAck => request.header :: request.iov.map (·.atLocal)
  | .write => request.header :: (request.iov.take 1).map (·.encoded) ++ (request.iov.take 1).map (·.atLocal)
  | .read => request.header :: (request.iov.take 1).map (·.encoded)
  | .writeAck | .sglWriteAck => [request.header]
  | .sglRead => [request.header, request.iovCount, (request.iov.map (·.encoded)).flatten]
  | .sglWrite =>
    [request.header, request.iovCount, (request.iov.map (·.encoded)).flatten] ++ request.iov.map (·.atLocal)
  | .sglReadAck =>
    [request.header, request.iovCount, (request.iov.map (·.encoded)).flatten] ++ request.iov.map (·.atRemote)

/-- The size that `COMPOSE_REQUEST` notes for the scatter list. -/
def remainSize : Nat :=
  match request.opType with
  | .send | .sendRaw => request.request.length + request.header.length
  | .sendRawSgl | .readAck | .sglRead | .sglWrite | .sglReadAck => request.dataLength + request.header.length
  | .write =>
    request.header.length + ((request.iov.take 1).map (·.encoded.length)).sum +
      ((request.iov.take 1).map (·.atLocal.length)).sum
  | .read => request.header.length + ((request.iov.take 1).map (·.encoded.length)).sum
  | .writeAck | .sglWriteAck => request.header.length

def bytes : List UInt8 := request.chunks.flatten

/-- The header's data length is the length of what follows it, where the size is taken from it. -/
def WellSized : Prop :=
  request.opType.sizedByHeader = true → request.dataLength + request.header.length = request.bytes.length

instance : Decidable request.WellSized := inferInstanceAs (Decidable (_ = _ → _ = _))

end OpRequest

/-- An operation context in the send queue; `post` is the number of the post that it came with. -/
structure QueueEntry where
  ctx : Nat
  post : Nat
  request : OpRequest

structure Message where
  post : Nat
  bytes : List UInt8

/-- `mSendingQueueRequest` -/
structure SendingRequest where
  iov : List (List UInt8)
  remainSize : Nat

/-- `cut` says that a direct write has left a message unfinished, `budget` what `ProcessQueueReq` may
still send. -/
structure SockState where
  blocking : Bool
  cbByWorker : Bool
  queue : List QueueEntry
  isSent : Nat → Bool
  sending : SendingRequest
  budget : Int
  posts : Nat
  stream : List UInt8
  started : List Message
  reported : List Nat
  cut : Bool

/-- `markSent` is another socket setting the mark of a context that it then returns to the pool.
`written` is what `writev` takes of the bytes it is given, and 0 where it fails. -/
inductive SockAction where
  | setBlockingIo (cbByWorker : Bool)
  | markSent (ctx : Nat)
  | post (ctx : Nat) (request : OpRequest) (written : Nat)
  | postSendNoCpy (header payload : List UInt8) (written : Nat)
  | processQueueReq (sendBufSizeKB : Nat)
  | pass (written : Nat)

namespace SockState

def initial : SockState where
  blocking := false
  cbByWorker := false
  queue := []
  isSent := fun _ => false
  sending := ⟨[], 0⟩
  budget := 0
  posts := 0
  stream := []
  started := []
  reported := []
  cut := false

variable (sock : SockState)

/-- `writev` of a whole message from a call. -/
def writeDirect (bytes : List UInt8) (written : Nat) : SockState :=
  if written = 0 then sock
  else
    { sock with
      stream := sock.stream ++ bytes.take written
      started := sock.started ++ [⟨sock.posts, bytes⟩]
      cut := sock.cut || written < bytes.length }

def nextPost : SockState := { sock with posts := sock.posts + 1 }

def push (ctx : Nat) (request : OpRequest) : SockState :=
  { sock with queue := sock.queue ++ [⟨ctx, sock.posts, request⟩] }

def report (post : Nat) : SockState := { sock with reported := post :: sock.reported }

/-- The posts with an operation context: `PostSend`, `PostSendSgl`, `PostSendHead`, `PostRead`, … -/
def post (ctx : Nat) (request : OpRequest) (written : Nat) : SockState :=
  if sock.blocking then
    let wrote := sock.writeDirect request.bytes written
    if written < request.bytes.length then wrote.nextPost
    else if request.opType.twoSide then
      if sock.cbByWorker then
        ({ wrote with isSent := update sock.isSent ctx true }.push ctx request).nextPost
      else (wrote.report sock.posts).nextPost
    else wrote.nextPost
  else (sock.push ctx request).nextPost

/-- A success is reported by the returned value. -/
def postSendNoCpy (bytes : List UInt8) (written : Nat) : SockState :=
  let wrote := sock.writeDirect bytes written
  if written < bytes.length then wrote.nextPost else (wrote.report sock.posts).nextPost

/-- `COMPOSE_REQUEST`: only when nothing is left of the last one. -/
def compose (entry : QueueEntry) : SockState :=
  if sock.sending.remainSize = 0 then
    { sock with
      sending := ⟨entry.request.chunks, entry.request.remainSize⟩
      started := sock.started ++ [⟨entry.post, entry.request.bytes⟩] }
  else sock

/-- The loop of `PROCESS_REQUEST` over the scatter list after a partial write. -/
def advanceIov : List (List UInt8) → Nat → Nat → SendingRequest
  | [], _, remainSize => ⟨[], remainSize⟩
  | chunk :: rest, result, remainSize =>
    if result < chunk.length then ⟨chunk.drop result :: rest, remainSize - result⟩
    else if result > chunk.length then
      let advanced := advanceIov rest (result - chunk.length) (remainSize - chunk.length)
      ⟨[] :: advanced.iov, advanced.remainSize⟩
    else ⟨[] :: rest, remainSize - chunk.length⟩

/-- `POST_PROCESS` of the first entry. -/
def popFront (entry : QueueEntry) (rest : List QueueEntry) : SockState :=
  let popped := { sock with queue := rest }
  if entry.request.opType.twoSide then popped.report entry.post else popped

/-- `PROCESS_REQUEST` and what follows it; a write that fails, or not all, ends `ProcessQueueReq`. -/
def process (entry : QueueEntry) (rest : List QueueEntry) (written : Nat) : SockState :=
  let count := min written sock.sending.iov.flatten.length
  if count = 0 then { sock with budget := 0 }
  else
    let wrote := { sock with stream := sock.stream ++ sock.sending.iov.flatten.take count }
    if count < sock.sending.remainSize then
      { wrote with sending := advanceIov sock.sending.iov count sock.sending.remainSize, budget := 0 }
    else
      { wrote with
        sending := { sock.sending with remainSize := 0 }
        budget := sock.budget - sock.sending.remainSize }.popFront entry rest

/-- A pass of the loop in `ProcessQueueReq`. -/
def pass (written : Nat) : SockState :=
  if sock.budget ≤ 0 then sock
  else
    match sock.queue with
    | [] => { sock with budget := 0 }
    | entry :: rest =>
      if sock.isSent entry.ctx then sock.popFront entry rest else (sock.compose entry).process entry rest written

def step : SockAction → SockState
  | .setBlockingIo cbByWorker => { sock with blocking := true, cbByWorker }
  | .markSent ctx =>
    if ctx ∈ sock.queue.map (·.ctx) then sock else { sock with isSent := update sock.isSent ctx true }
  | .post ctx request written => if ctx ∈ sock.queue.map (·.ctx) then sock else sock.post ctx request written
  | .postSendNoCpy header payload written =>
    if header = [] then sock else sock.postSendNoCpy (header ++ payload) written
  | .processQueueReq sendBufSizeKB => { sock with budget := sendBufSizeKB * 1024 }
  | .pass written => sock.pass written

/-! ## What is to hold -/

def allBytes (messages : List Message) : List UInt8 := messages.flatMap (·.bytes)

/-- All bytes of the post's message are in the stream, in its place. -/
def Complete (post : Nat) : Prop :=
  ∃ earlier message later, sock.started = earlier ++ message :: later ∧ message.post = post ∧
    allBytes (earlier ++ [message]) <+: sock.stream

/-- The stream is that of the messages in the order in which they were begun, where only the last
one may lack bytes at its end. -/
structure Right : Prop where
  within : sock.stream <+: allBytes sock.started
  whole : allBytes sock.started.dropLast <+: sock.stream
  reported : ∀ post ∈ sock.reported, sock.Complete post

/-- A direct write finds no message half sent. -/
def FreeToWrite : Prop := sock.sending.remainSize = 0 ∧ sock.cut = false

/-- Contexts go to the queue unmarked and with sizes that agree, direct writes do not meet a half
sent message, and nothing is written after a direct write that was cut off. -/
def Orderly : SockAction → Prop
  | .post ctx request _ => if sock.blocking then sock.FreeToWrite else sock.isSent ctx = false ∧ request.WellSized
  | .postSendNoCpy .. => sock.FreeToWrite
  | .pass _ => sock.cut = false
  | .setBlockingIo _ | .markSent _ | .processQueueReq _ => True

instance : Decidable sock.FreeToWrite := inferInstanceAs (Decidable (_ ∧ _))

instance (action) : Decidable (sock.Orderly action) := by
  cases action <;> dsimp only [Orderly] <;> infer_instance

/-! ## The scatter list -/

theorem advanceIov_spec {iov : List (List UInt8)} :
    ∀ {result remainSize : Nat}, result ≤ iov.flatten.length → result ≤ remainSize →
      (advanceIov iov result remainSize).iov.flatten = iov.flatten.drop result ∧
      (advanceIov iov result remainSize).remainSize = remainSize - result := by
  induction iov with
  | nil =>
    intro result remainSize inside _
    have zero : result = 0 := Nat.le_zero.mp inside
    subst zero
    exact ⟨rfl, rfl⟩
  | cons chunk rest ih =>
    intro result remainSize inside small
    rw [flatten_cons, length_append] at inside
    unfold advanceIov
    rcases Nat.lt_trichotomy result chunk.length with within | same | beyond
    · rw [if_pos within]
      simp [drop_append_of_le_length (Nat.le_of_lt within)]
    · rw [same]
      simp
    · rw [if_neg (by omega), if_pos beyond]
      obtain ⟨iov, remain⟩ := @ih (result - chunk.length) (remainSize - chunk.length) (by omega) (by omega)
      refine ⟨?_, ?_⟩
      · rw [flatten_cons, iov, flatten_cons, drop_append, drop_eq_nil_of_le (Nat.le_of_lt beyond)]
      · rw [remain]
        omega

theorem bytes_pos {request : OpRequest} : 0 < request.bytes.length := by
  have header : request.header.length ≤ request.bytes.length := by
    unfold OpRequest.bytes OpRequest.chunks
    cases request.opType <;> simp
  exact Nat.lt_of_lt_of_le request.header_pos header

variable {request : OpRequest}

theorem remainSize_eq (sized : request.WellSized) : request.remainSize = request.bytes.length := by
  cases opType : request.opType with
  | sendRawSgl | readAck | sglRead | sglWrite | sglReadAck =>
    rw [← sized (by rw [opType]; rfl)]
    simp only [OpRequest.remainSize, opType]
  | send | sendRaw | writeAck | sglWriteAck =>
    simp [OpRequest.remainSize, OpRequest.bytes, OpRequest.chunks, opType, Nat.add_comm]
  | write | read =>
    simp [OpRequest.remainSize, OpRequest.bytes, OpRequest.chunks, opType, comp_def, Nat.add_assoc]

/-! ## Messages in the stream -/

theorem allBytes_append (earlier later : List Message) :
    allBytes (earlier ++ later) = allBytes earlier ++ allBytes later :=
  flatMap_append

theorem allBytes_singleton {message : Message} : allBytes [message] = message.bytes := by
  simp [allBytes]

variable {sock wrote : SockState}

/-- What is in the stream stays there. -/
structure Extends (sock wrote : SockState) : Prop where
  started : sock.started <+: wrote.started
  stream : sock.stream <+: wrote.stream

theorem Extends.refl {sock : SockState} : sock.Extends sock := ⟨prefix_refl _, prefix_refl _⟩

theorem Complete.extend {post : Nat} (complete : sock.Complete post) (extends' : sock.Extends wrote) :
    wrote.Complete post := by
  obtain ⟨earlier, message, later, started, isPost, inStream⟩ := complete
  obtain ⟨more, startedMore⟩ := extends'.started
  refine ⟨earlier, message, later ++ more, ?_, isPost, inStream.trans extends'.stream⟩
  rw [← startedMore, started, append_assoc, cons_append]

/-- No message is being sent, and the stream is that of the ones begun. -/
structure Idle (sock : SockState) : Prop where
  remainSize : sock.sending.remainSize = 0
  cut : sock.cut = false
  stream : sock.stream = allBytes sock.started

/-- The first entry of the queue is being sent. -/
structure Half (sock : SockState) (entry : QueueEntry) (earlier : List Message) : Prop where
  queued : ∃ rest, sock.queue = entry :: rest
  unmarked : sock.isSent entry.ctx = false
  cut : sock.cut = false
  started : sock.started = earlier ++ [⟨entry.post, entry.request.bytes⟩]
  stream : sock.stream ++ sock.sending.iov.flatten = allBytes sock.started
  size : sock.sending.iov.flatten.length = sock.sending.remainSize
  left : 0 < sock.sending.remainSize
  whole : allBytes earlier <+: sock.stream

/-- A direct write has left its message unfinished. -/
structure Broken (sock : SockState) : Prop where
  cut : sock.cut = true
  within : sock.stream <+: allBytes sock.started
  whole : allBytes sock.started.dropLast <+: sock.stream

def Phase (sock : SockState) : Prop := sock.Idle ∨ (∃ entry earlier, sock.Half entry earlier) ∨ sock.Broken

/-- The phase is that of the stream, the message being sent and the first entry of the queue. -/
theorem Phase.of_same (phase : sock.Phase) (sending : wrote.sending = sock.sending) (cut : wrote.cut = sock.cut)
    (stream : wrote.stream = sock.stream) (started : wrote.started = sock.started)
    (first : ∀ entry rest, sock.queue = entry :: rest → sock.isSent entry.ctx = false →
      (∃ rest, wrote.queue = entry :: rest) ∧ wrote.isSent entry.ctx = false) : wrote.Phase := by
  rcases phase with ⟨remainSize, notCut, inStream⟩ | ⟨entry, earlier, half⟩ | ⟨isCut, within, whole⟩
  · exact .inl ⟨sending ▸ remainSize, cut ▸ notCut, by rw [stream, started, inStream]⟩
  · obtain ⟨rest, queue⟩ := half.queued
    obtain ⟨queued, unmarked⟩ := first entry rest queue half.unmarked
    refine .inr (.inl ⟨entry, earlier, queued, unmarked, cut ▸ half.cut, ?_, ?_, ?_, ?_, ?_⟩)
    · rw [started, half.started]
    · rw [stream, sending, started, half.stream]
    · rw [sending, half.size]
    · rw [sending]
      exact half.left
    · rw [stream]
      exact half.whole
  · exact .inr (.inr ⟨cut ▸ isCut, by rwa [stream, started], by rwa [stream, started]⟩)

structure Sound (sock : SockState) : Prop where
  phase : sock.Phase
  reported : ∀ post ∈ sock.reported, sock.Complete post
  marked : ∀ entry ∈ sock.queue, sock.isSent entry.ctx = true → sock.Complete entry.post
  sized : ∀ entry ∈ sock.queue, sock.isSent entry.ctx = false → entry.request.WellSized

/-- More bytes in the stream, and nothing else. -/
theorem Sound.of_extends (sound : sock.Sound) (extend : sock.Extends wrote) (phase : wrote.Phase)
    (queue : wrote.queue = sock.queue) (isSent : wrote.isSent = sock.isSent)
    (reported : wrote.reported = sock.reported) :
    wrote.Sound where
  phase := phase
  reported := by
    rw [reported]
    exact fun post mem => (sound.reported post mem).extend extend
  marked := by
    rw [queue, isSent]
    exact fun entry queued mark => (sound.marked entry queued mark).extend extend
  sized := by
    rw [queue, isSent]
    exact sound.sized

theorem Sound.right (sound : sock.Sound) : sock.Right := by
  refine { within := ?_, whole := ?_, reported := sound.reported }
  all_goals rcases sound.phase with idle | ⟨entry, earlier, half⟩ | broken
  · exact ⟨[], by rw [append_nil, idle.stream]⟩
  · exact ⟨_, half.stream⟩
  · exact broken.within
  · rw [idle.stream]
    obtain ⟨last, split⟩ := dropLast_prefix sock.started
    exact ⟨allBytes last, by rw [← allBytes_append, split]⟩
  · rw [half.started, dropLast_concat]
    exact half.whole
  · exact broken.whole

/-! ## Direct writes -/

section Direct

variable {bytes : List UInt8} {written : Nat}

@[simp] theorem writeDirect_queue : (sock.writeDirect bytes written).queue = sock.queue := by
  unfold writeDirect
  split <;> rfl

@[simp] theorem writeDirect_isSent : (sock.writeDirect bytes written).isSent = sock.isSent := by
  unfold writeDirect
  split <;> rfl

@[simp] theorem writeDirect_reported : (sock.writeDirect bytes written).reported = sock.reported := by
  unfold writeDirect
  split <;> rfl

@[simp] theorem writeDirect_posts : (sock.writeDirect bytes written).posts = sock.posts := by
  unfold writeDirect
  split <;> rfl

theorem extends_writeDirect : sock.Extends (sock.writeDirect bytes written) := by
  unfold writeDirect
  split
  · exact .refl
  · exact ⟨prefix_append _ _, prefix_append _ _⟩

theorem Idle.writeDirect_whole (idle : sock.Idle) (some : 0 < bytes.length) (all : bytes.length ≤ written) :
    (sock.writeDirect bytes written).Idle ∧ (sock.writeDirect bytes written).Complete sock.posts := by
  have notCut : decide (written < bytes.length) = false := decide_eq_false (by omega)
  have stream : sock.stream ++ bytes.take written = allBytes (sock.started ++ [⟨sock.posts, bytes⟩]) := by
    rw [allBytes_append, allBytes_singleton, idle.stream, take_of_length_le all]
  rw [writeDirect, if_neg (by omega)]
  refine ⟨⟨idle.remainSize, by rw [idle.cut, notCut]; rfl, stream⟩, sock.started, ⟨sock.posts, bytes⟩, [], rfl, rfl, ?_⟩
  exact ⟨[], by rw [append_nil]; exact stream.symm⟩

theorem Idle.writeDirect_part (idle : sock.Idle) (part : written < bytes.length) :
    (sock.writeDirect bytes written).Phase := by
  unfold writeDirect
  split
  · exact .inl idle
  · refine .inr (.inr ⟨?_, ?_, ?_⟩)
    · simp [part]
    · rw [allBytes_append, allBytes_singleton, idle.stream]
      exact (prefix_append_right_inj _).mpr ( take_prefix _ _)
    · rw [dropLast_concat, idle.stream]
      exact prefix_append _ _

theorem Sound.writeDirect (sound : sock.Sound) (phase : (sock.writeDirect bytes written).Phase) :
    (sock.writeDirect bytes written).Sound :=
  sound.of_extends extends_writeDirect phase writeDirect_queue writeDirect_isSent writeDirect_reported

end Direct

/-! ## Steps that write nothing -/

section

variable (sound : sock.Sound)
include sound

theorem Sound.nextPost : sock.nextPost.Sound where
  phase := sound.phase.of_same rfl rfl rfl rfl fun _ rest queue unmarked => ⟨⟨rest, queue⟩, unmarked⟩
  reported := sound.reported
  marked := sound.marked
  sized := sound.sized

theorem Sound.report {post : Nat} (complete : sock.Complete post) : (sock.report post).Sound where
  phase := sound.phase.of_same rfl rfl rfl rfl fun _ rest queue unmarked => ⟨⟨rest, queue⟩, unmarked⟩
  reported := forall_mem_cons.mpr ⟨complete, sound.reported⟩
  marked := sound.marked
  sized := sound.sized

/-- Marking a context that is not in the queue. -/
theorem Sound.mark {ctx : Nat} (notQueued : ctx ∉ sock.queue.map (·.ctx)) :
    Sound { sock with isSent := update sock.isSent ctx true } := by
  have same : ∀ entry ∈ sock.queue, update sock.isSent ctx true entry.ctx = sock.isSent entry.ctx :=
    fun entry queued => update_of_ne
      (fun (isCtx : entry.ctx = ctx) => notQueued (isCtx ▸ mem_map_of_mem queued)) ..
  exact
    { phase := sound.phase.of_same rfl rfl rfl rfl fun entry rest queue unmarked =>
        ⟨⟨rest, queue⟩, (same entry (queue ▸ mem_cons_self)).trans unmarked⟩
      reported := sound.reported
      marked := fun entry queued mark => sound.marked entry queued ((same entry queued).symm.trans mark)
      sized := fun entry queued mark => sound.sized entry queued ((same entry queued).symm.trans mark) }

theorem Sound.push {ctx : Nat}
    (marked : sock.isSent ctx = true → sock.Complete sock.posts) (sized : sock.isSent ctx = false → request.WellSized) :
    (sock.push ctx request).Sound where
  phase := sound.phase.of_same rfl rfl rfl rfl fun entry rest queue unmarked =>
    ⟨⟨rest ++ [_], by rw [SockState.push, queue]; rfl⟩, unmarked⟩
  reported := sound.reported
  marked := forall_mem_append.mpr ⟨sound.marked, forall_mem_singleton.mpr marked⟩
  sized := forall_mem_append.mpr ⟨sound.sized, forall_mem_singleton.mpr sized⟩

theorem Idle.of_free (free : sock.FreeToWrite) : sock.Idle := by
  rcases sound.phase with idle | ⟨entry, earlier, half⟩ | broken
  · exact idle
  · exact absurd free.1 (Nat.ne_of_gt half.left)
  · exact nomatch broken.cut.symm.trans free.2

/-! ## Posts -/

theorem Sound.post {ctx written : Nat} (notQueued : ctx ∉ sock.queue.map (·.ctx))
    (orderly : if sock.blocking then sock.FreeToWrite else sock.isSent ctx = false ∧ request.WellSized) :
    (sock.post ctx request written).Sound := by
  unfold SockState.post
  cases blocking : sock.blocking with
  | false =>
    rw [blocking] at orderly
    exact (sound.push (fun mark => nomatch mark.symm.trans orderly.1) fun _ => orderly.2).nextPost
  | true =>
    rw [blocking] at orderly
    rw [if_pos rfl]
    have idle := Idle.of_free sound orderly
    split
    next part => exact (sound.writeDirect (idle.writeDirect_part part)).nextPost
    next all =>
      obtain ⟨idleAfter, complete⟩ := idle.writeDirect_whole bytes_pos (Nat.le_of_not_lt all)
      have wroteSound := sound.writeDirect (.inl idleAfter)
      refine guarded wroteSound.nextPost fun _ => ?_
      split
      · -- the worker will report it: the context is marked and queued
        have stillNotQueued : ctx ∉ (sock.writeDirect request.bytes written).queue.map (·.ctx) := by
          rwa [writeDirect_queue]
        have marking := wroteSound.mark stillNotQueued
        rw [writeDirect_isSent] at marking
        refine (marking.push (fun _ => ?_) fun mark => ?_).nextPost
        · rw [← @writeDirect_posts sock request.bytes written] at complete
          exact complete.extend ⟨prefix_refl _, prefix_refl _⟩
        · exact absurd mark (by simp)
      · exact (wroteSound.report complete).nextPost

theorem Sound.postSendNoCpy {bytes : List UInt8} (some : 0 < bytes.length) {written : Nat}
    (free : sock.FreeToWrite) : (sock.postSendNoCpy bytes written).Sound := by
  have idle := Idle.of_free sound free
  unfold SockState.postSendNoCpy
  split
  next part => exact (sound.writeDirect (idle.writeDirect_part part)).nextPost
  next all =>
    obtain ⟨idleAfter, complete⟩ := idle.writeDirect_whole some (Nat.le_of_not_lt all)
    exact ((sound.writeDirect (.inl idleAfter)).report complete).nextPost

/-! ## The worker -/

variable {entry : QueueEntry} {rest : List QueueEntry} {earlier : List Message}

section

variable (queue : sock.queue = entry :: rest)
include queue

/-- The first entry is composed, or was before. -/
theorem Sound.compose (unmarked : sock.isSent entry.ctx = false)
    (notCut : sock.cut = false) : (sock.compose entry).Sound ∧ ∃ earlier, (sock.compose entry).Half entry earlier := by
  have sized := remainSize_eq (sound.sized entry (queue ▸ mem_cons_self) unmarked)
  rcases sound.phase with idle | ⟨first, earlier, half⟩ | broken
  · rw [SockState.compose, if_pos idle.remainSize]
    have half : Half { sock with
        sending := ⟨entry.request.chunks, entry.request.remainSize⟩
        started := sock.started ++ [⟨entry.post, entry.request.bytes⟩] } entry sock.started :=
      { queued := ⟨rest, queue⟩
        unmarked := unmarked
        cut := notCut
        started := rfl
        stream := by
          rw [allBytes_append, allBytes_singleton, idle.stream]
          rfl
        size := sized.symm
        left := sized ▸ bytes_pos
        whole := idle.stream ▸ prefix_refl _ }
    exact ⟨sound.of_extends ⟨prefix_append _ _, prefix_refl _⟩ (.inr (.inl ⟨_, _, half⟩)) rfl rfl rfl, _, half⟩
  · have isFirst : first = entry := by
      obtain ⟨tail, isFirst⟩ := half.queued
      exact (cons.inj (isFirst.symm.trans queue)).1
    have same : sock.compose entry = sock := if_neg (Nat.ne_of_gt half.left)
    rw [same]
    exact ⟨sound, earlier, isFirst ▸ half⟩
  · exact nomatch broken.cut.symm.trans notCut

theorem Sound.popFront (idle : sock.Idle) (complete : sock.Complete entry.post) : (sock.popFront entry rest).Sound := by
  have popped : Sound { sock with queue := rest } :=
    { phase := .inl ⟨idle.remainSize, idle.cut, idle.stream⟩
      reported := sound.reported
      marked := fun entry queued => sound.marked entry (queue ▸ mem_cons_of_mem _ queued)
      sized := fun entry queued => sound.sized entry (queue ▸ mem_cons_of_mem _ queued) }
  exact guarded popped fun _ => popped.report complete

theorem Sound.process (half : sock.Half entry earlier) {written : Nat} : (sock.process entry rest written).Sound := by
  unfold SockState.process
  dsimp only
  have bound : min written sock.sending.iov.flatten.length ≤ sock.sending.remainSize :=
    half.size ▸ Nat.min_le_right _ _
  generalize min written sock.sending.iov.flatten.length = count at bound
  have extend : sock.stream <+: sock.stream ++ sock.sending.iov.flatten.take count := prefix_append _ _
  split
  next =>
    exact sound.of_extends ⟨prefix_refl _, prefix_refl _⟩
      (sound.phase.of_same rfl rfl rfl rfl fun _ rest queue unmarked => ⟨⟨rest, queue⟩, unmarked⟩) rfl rfl rfl
  next =>
    split
    next part =>
      obtain ⟨iov, remain⟩ := advanceIov_spec (half.size ▸ bound) bound
      refine sound.of_extends ⟨prefix_refl _, extend⟩ (.inr (.inl ⟨entry, earlier, ?_⟩)) rfl rfl rfl
      exact
        { half with
          stream := by
            rw [iov, append_assoc, take_append_drop, half.stream]
          size := by
            rw [iov, remain, length_drop, half.size]
          left := by
            rw [remain]
            omega
          whole := half.whole.trans extend }
    next all =>
      have stream : sock.stream ++ sock.sending.iov.flatten.take count = allBytes sock.started := by
        rw [take_of_length_le (by rw [half.size]; omega), half.stream]
      have idle : Idle { sock with
          stream := sock.stream ++ sock.sending.iov.flatten.take count
          sending := { sock.sending with remainSize := 0 }
          budget := sock.budget - sock.sending.remainSize } := ⟨rfl, half.cut, stream⟩
      refine (sound.of_extends ?_ (.inl idle) rfl rfl rfl).popFront queue idle ⟨earlier, _, [], half.started, rfl, ?_⟩
      · exact ⟨prefix_refl _, extend⟩
      · exact ⟨[], by rw [append_nil, ← half.started, ← stream]⟩

end

theorem Sound.pass (notCut : sock.cut = false) {written : Nat} : (sock.pass written).Sound := by
  unfold SockState.pass
  split
  next => exact sound
  next =>
    split
    next =>
      exact sound.of_extends ⟨prefix_refl _, prefix_refl _⟩
        (sound.phase.of_same rfl rfl rfl rfl fun _ rest queue unmarked => ⟨⟨rest, queue⟩, unmarked⟩) rfl rfl rfl
    next entry rest queue =>
      split
      next marked =>
        -- a marked first entry is not the one being sent, so nothing is
        have idle : sock.Idle := by
          rcases sound.phase with idle | ⟨first, earlier, half⟩ | broken
          · exact idle
          · obtain ⟨tail, isFirst⟩ := half.queued
            have same : first = entry := (cons.inj (isFirst.symm.trans queue)).1
            rw [← same, half.unmarked] at marked
            cases marked
          · exact nomatch broken.cut.symm.trans notCut
        exact sound.popFront queue idle (sound.marked entry (queue ▸ mem_cons_self) marked)
      next unmarked =>
        obtain ⟨composed, earlier, half⟩ := sound.compose queue (Bool.eq_false_iff.mpr unmarked) notCut
        refine composed.process ?_ half
        rw [SockState.compose]
        split <;> exact queue

theorem Sound.step {action : SockAction} (orderly : sock.Orderly action) : (sock.step action).Sound := by
  have unchanged : ∀ wrote : SockState, wrote.sending = sock.sending → wrote.cut = sock.cut →
      wrote.stream = sock.stream → wrote.started = sock.started → wrote.queue = sock.queue →
      wrote.isSent = sock.isSent → wrote.reported = sock.reported → wrote.Sound := by
    intro wrote sending cut stream started queue isSent reported
    refine sound.of_extends ⟨started ▸ prefix_refl _, stream ▸ prefix_refl _⟩ ?_ queue isSent reported
    exact sound.phase.of_same sending cut stream started fun _ rest isFirst unmarked =>
      ⟨⟨rest, queue.trans isFirst⟩, isSent ▸ unmarked⟩
  cases action with
  | setBlockingIo | processQueueReq => exact unchanged _ rfl rfl rfl rfl rfl rfl rfl
  | markSent ctx =>
    rw [SockState.step]
    split
    next => exact sound
    next notQueued => exact sound.mark notQueued
  | post ctx request written =>
    rw [SockState.step]
    split
    next => exact sound
    next notQueued => exact sound.post notQueued orderly
  | postSendNoCpy header payload written =>
    rw [SockState.step]
    split
    next => exact sound
    next some =>
      refine sound.postSendNoCpy ?_ orderly
      rw [length_append]
      exact Nat.add_pos_left (length_pos_iff.mpr some) _
  | pass written => exact sound.pass orderly

end

theorem sound_initial : initial.Sound := ⟨.inl ⟨rfl, rfl, rfl⟩, nofun, nofun, nofun⟩

/-- In every orderly run the stream is that of the messages in their order, and a send is reported
only when it is in the stream. -/
theorem right_of_orderly_stream (sock : SockState) (run : Run step Orderly initial sock) : sock.Right :=
  Sound.right (run.invariant (motive := Sound) sound_initial fun _ _ sound orderly => sound.step orderly)

def sendOf (post : UInt8) : OpRequest where
  opType := .send
  header := [post, 0]
  dataLength := 2
  request := [post, post]
  iovCount := []
  iov := []
  header_pos := Nat.zero_lt_two

/-- Two messages, the first with a partial write, and a direct one. -/
def twoAndOne : List SockAction :=
  [.post 0 (sendOf 1) 0, .post 1 (sendOf 2) 0, .processQueueReq 1, .pass 3, .processQueueReq 1, .pass 1, .pass 4,
    .postSendNoCpy [3] [3] 2]

theorem right_twoAndOne :
    ∃ sock, Run step Orderly initial sock ∧ sock.stream = [1, 0, 1, 1, 2, 0, 2, 2, 3, 3] ∧ sock.reported = [2, 1, 0] ∧
      sock.Right :=
  have run : Run step Orderly initial (twoAndOne.foldl step initial) := .ofList (by decide)
  ⟨_, run, by decide, by decide, right_of_orderly_stream _ run⟩

/-- The context of the first send still has the mark of another socket. -/
def staleMark : List SockAction := [.markSent 0, .post 0 (sendOf 1) 0, .processQueueReq 1, .pass 4]

/-- A direct send comes while a message from the queue is half sent. -/
def directBetween : List SockAction := [.post 0 (sendOf 1) 0, .processQueueReq 1, .pass 3, .postSendNoCpy [3] [3] 2]

theorem orderly_needed :
    (∃ sock, Run step (fun _ _ => True) initial sock ∧ sock.stream = [] ∧ sock.reported = [0] ∧ ¬ sock.Right) ∧
    (∃ sock, Run step (fun _ _ => True) initial sock ∧ sock.stream = [1, 0, 1, 3, 3] ∧ ¬ sock.Right) := by
  constructor
  · have run : Run step (fun _ _ => True) initial (staleMark.foldl step initial) := .ofList (by decide)
    refine ⟨_, run, by decide, by decide, fun right => ?_⟩
    obtain ⟨earlier, message, later, started, -, -⟩ := right.reported 0 (by decide)
    have none : (staleMark.foldl step initial).started = [] := by decide
    rw [none] at started
    exact absurd started.symm (by simp)
  · have run : Run step (fun _ _ => True) initial (directBetween.foldl step initial) := .ofList (by decide)
    exact ⟨_, run, by decide, fun right => absurd right.within (by decide)⟩

end SockState

end UbsComm.Sock
