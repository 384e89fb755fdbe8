import UbsComm.Library.Lists
import Mathlib.Algebra.Order.Group.Nat

/-! # The handlers of one-sided messages

What the worker of a socket does with a read, write, scatter read or scatter write of the peer and
with the acknowledgement of one of its own.  A handler is given the body that was received and
yields the copies it makes, in order, and its result.  Memory is a space of addresses; which bytes
it holds is left out. -/

namespace UbsComm.Sock

/-! ## Messages -/

/-- The `NET_FLAGS` of one-sided messages. -/
inductive OneSideFlag where
  | read
  | readAck
  | write
  | writeAck
  | readSgl
  | readSglAck
  | writeSgl
  | writeSglAck

/-- `flags & 0xff`, as `HandleReceiveCtx` looks at it. -/
def OneSideFlag.ofFlags (flags : UInt16) : Option OneSideFlag :=
  match flags.toNat % 2 ^ 8 with
  | 3 => some .read
  | 4 => some .readAck
  | 5 => some .write
  | 6 => some .writeAck
  | 7 => some .readSgl
  | 8 => some .readSglAck
  | 9 => some .writeSgl
  | 10 => some .writeSglAck
  | _ => none

def OneSideFlag.request : OneSideFlag → Bool
  | .read | .write | .readSgl | .writeSgl => true
  | .readAck | .writeAck | .readSglAck | .writeSglAck => false

/-- `NO_BODY_FLAG`, which compares all the bits. -/
def noBodyFlag (flags : UInt16) : Bool := flags == 6 || flags == 10

def netSgeMaxSize : Nat := 524288000

/-- A message whose header has passed `ValidateHeader`, with the body that `HandleIn` has received. -/
structure Received where
  flags : UInt16
  seqNo : UInt32
  dataLength : Nat
  body : List UInt8
  dataLength_pos : 0 < dataLength
  dataLength_le : dataLength ≤ netSgeMaxSize
  length_body : body.length = if noBodyFlag flags then 0 else dataLength

theorem Received.length_body_le {received : Received} : received.body.length ≤ netSgeMaxSize := by
  rw [received.length_body]
  split
  · exact Nat.zero_le _
  · exact received.dataLength_le

/-! ## Scatter lists -/

/-- `UBSHcomNetTransSgeIov`, as far as the handlers read it. -/
structure SgeIov where
  lAddress : Nat
  rAddress : Nat
  rKey : Nat
  size : Nat

/-- The size of the packed `UBSHcomNetTransSgeIov`. -/
def sizeofIov : Nat := 52

/-- The size of `UBSHcomNetTransSglRequest::iovCount`. -/
def sizeofIovCount : Nat := 2

/-- A number of the wire, its lowest byte first. -/
def littleEndian (bytes : List UInt8) : Nat := bytes.foldr (fun byte rest => byte.toNat + 2 ^ 8 * rest) 0

variable (body : List UInt8)

def field (offset length : Nat) : Nat := littleEndian ((body.drop offset).take length)

def iovAt (offset : Nat) : SgeIov where
  lAddress := field body offset 8
  rAddress := field body (offset + 8) 8
  rKey := field body (offset + 24) 8
  size := field body (offset + 32) 4

/-- The `count` entries behind the count. -/
def iovsOf (count : Nat) : List SgeIov :=
  (List.range count).map fun index => iovAt body (sizeofIovCount + sizeofIov * index)

/-- The sum of the sizes in a `uint32_t`. -/
def dataSize32 (iovs : List SgeIov) : Nat := iovs.foldl (fun dataSize iov => (dataSize + iov.size) % 2 ^ 32) 0

def totalSize (iovs : List SgeIov) : Nat := (iovs.map (·.size)).sum

/-- The `count` entries and the count itself. -/
def sizeofIovs (count : Nat) : Nat := sizeofIovCount + sizeofIov * count

/-! ## Registered memory -/

/-- `MemoryRegionChecker`: the range registered under a key. -/
structure MemoryRegionChecker where
  rangeCache : Nat → Option (Nat × Nat)

namespace MemoryRegionChecker

def validate (checker : MemoryRegionChecker) (key address size : Nat) : Bool :=
  if size = 0 then false
  else
    match checker.rangeCache key with
    | none => false
    | some (first, last) => first ≤ address && address < last && size ≤ last - address

/-- Some region contains the `length` bytes at `address`. -/
def Covers (checker : MemoryRegionChecker) (address length : Nat) : Prop :=
  ∃ key first last, checker.rangeCache key = some (first, last) ∧ first ≤ address ∧ address + length ≤ last

theorem covers_of_validate {checker : MemoryRegionChecker} {key address size : Nat}
    (valid : checker.validate key address size = true) : checker.Covers address size := by
  unfold validate at valid
  split at valid
  · cases valid
  · split at valid
    · cases valid
    · rename_i first last registered
      simp only [Bool.and_eq_true, decide_eq_true_eq] at valid
      exact ⟨key, first, last, registered, valid.1.1, by omega⟩

end MemoryRegionChecker

/-! ## What a handler does -/

/-- The copies of a handler: of the body to memory, of the body or of memory to the peer; and the
clearing of a destination by a failing `memcpy_s`. -/
inductive Effect where
  | copy (offset length address : Nat)
  | clear (address length : Nat)
  | echo (offset length : Nat)
  | send (address length : Nat)
  deriving DecidableEq

inductive SResult where
  | ok
  | error
  | paramInvalid
  | ctxFull
  | sendEagain
  | invalidLkey
  | invalidParam
  | other (code : Nat)
  deriving DecidableEq

structure Handled where
  effects : List Effect
  result : SResult
  deriving DecidableEq

namespace Handled

/-- Return without having done anything. -/
def stop (result : SResult) : Handled := ⟨[], result⟩

/-- Go on if the first part has succeeded. -/
def andThen (first second : Handled) : Handled :=
  if first.result = .ok then ⟨first.effects ++ second.effects, second.result⟩ else first

end Handled

/-- What comes of a call of `memcpy_s`: it copies, or it fails and has left the destination as it
was or cleared it. -/
inductive MemcpyResult where
  | copied
  | refused
  | cleared

/-- A context of an operation of this side that waits for its acknowledgement. -/
structure OriginalCtx where
  sock : Nat
  dataLength : Nat
  iov : List SgeIov
  iov_ne_nil : iov ≠ []
  length_iov_le : iov.length ≤ 4

/-- What a handler finds: the state of the socket and its worker, and what the calls it makes
return.  `memcpyS` is about its calls of `memcpy_s` in order, and `post` about the call that hands
the acknowledgement to the socket. -/
structure Worker where
  sock : Nat
  upContext : Bool
  checker : MemoryRegionChecker
  ctxMap : UInt32 → Option OriginalCtx
  opCtxLeft : Bool
  sglCtxLeft : Bool
  memcpyS : Nat → MemcpyResult
  post : SResult
  modifyInEpollOut : SResult
  modifyInEpollWrNorm : SResult
  oneSideDone : SResult

namespace Worker

variable (worker : Worker)

def validate (iov : SgeIov) : Bool := worker.checker.validate iov.rKey iov.rAddress iov.size

/-- Call number `index` of `memcpy_s`; `failed` is what the handler returns when it fails. -/
def memcpy (failed : SResult) (index offset length address : Nat) : Handled :=
  match worker.memcpyS index with
  | .copied => ⟨[.copy offset length address], .ok⟩
  | .refused => .stop failed
  | .cleared => ⟨[.clear address length], failed⟩

/-- What the handlers of requests return once the acknowledgement is handed to the socket. -/
def postResult : SResult :=
  match worker.post with
  | .ok => .ok
  | .sendEagain => worker.modifyInEpollOut
  | result => if worker.modifyInEpollWrNorm = .ok then result else worker.modifyInEpollWrNorm

/-- The end of the handlers of requests: the contexts of the acknowledgement and its posting. -/
def postAck (noOpCtx noSglCtx : SResult) (effects : List Effect) : Handled :=
  if !worker.opCtxLeft then .stop noOpCtx
  else if !worker.sglCtxLeft then .stop noSglCtx
  else ⟨effects, worker.postResult⟩

/-- The loops that copy the data behind a scatter list to the entries of one. -/
def copyIovs (accepts : SgeIov → Bool) (target : SgeIov → Nat) (data : Nat) :
    (index copyOffset : Nat) → List SgeIov → Handled
  | _, _, [] => .stop .ok
  | index, copyOffset, iov :: iovs =>
    if accepts iov then
      (worker.memcpy .invalidParam index (data + copyOffset) iov.size (target iov)).andThen
        (copyIovs accepts target data (index + 1) ((copyOffset + iov.size) % 2 ^ 32) iovs)
    else .stop .invalidLkey

end Worker

def checkIovLen : Option Nat :=
  if body.length < sizeofIovCount then none
  else
    let count := field body 0 sizeofIovCount
    if count = 0 || count > 4 then none
    else if body.length < sizeofIovs count then none
    else some count

namespace Worker

variable (worker : Worker) (received : Received)

/-! ## The handlers -/

def postReadAck : Handled :=
  if !worker.upContext then .stop .error
  else if received.body.length < sizeofIov then .stop .paramInvalid
  else
    let rawIov := iovAt received.body 0
    if !worker.validate rawIov then .stop .invalidLkey
    else worker.postAck .ctxFull .ctxFull [.send rawIov.rAddress rawIov.size]

/-- The start of the handlers of acknowledgements: find the context that waits for this one. -/
def withOriginalCtx (handle : OriginalCtx → Handled) : Handled :=
  if !worker.upContext then .stop .error
  else
    match worker.ctxMap received.seqNo with
    | none => .stop .paramInvalid
    | some originalCtx => if originalCtx.sock ≠ worker.sock then .stop .paramInvalid else handle originalCtx

def postReadAckHandle : Handled :=
  worker.withOriginalCtx received fun originalCtx =>
    let iov := originalCtx.iov.head originalCtx.iov_ne_nil
    if iov.size ≠ received.body.length then .stop .paramInvalid
    else (worker.memcpy .paramInvalid 0 0 iov.size iov.lAddress).andThen (.stop worker.oneSideDone)

def postReadSglAck : Handled :=
  if !worker.upContext then .stop .error
  else
    match checkIovLen received.body with
    | none => .stop .paramInvalid
    | some iovCount =>
      let rawIov := iovsOf received.body iovCount
      if !rawIov.all worker.validate then .stop .invalidLkey
      else
        worker.postAck .ctxFull .ctxFull
          (.echo sizeofIovCount (sizeofIov * iovCount) :: rawIov.map fun iov => .send iov.rAddress iov.size)

/-- The sizes that are added up are those of the message, the sizes that are copied those of the
original request. -/
def postReadSglAckHandle : Handled :=
  worker.withOriginalCtx received fun originalCtx =>
    if received.body.length < sizeofIovCount then .stop .paramInvalid
    else
      let iovCount := field received.body 0 sizeofIovCount
      if iovCount = 0 || iovCount > 4 || iovCount != originalCtx.iov.length then .stop .paramInvalid
      else if received.body.length < sizeofIovs iovCount then .stop .paramInvalid
      else if (originalCtx.dataLength + dataSize32 (iovsOf received.body iovCount)) % 2 ^ 32 ≠ received.dataLength then
        .stop .paramInvalid
      else
        (worker.copyIovs (fun _ => true) (·.lAddress) (sizeofIovs iovCount) 0 0 originalCtx.iov).andThen
          (.stop worker.oneSideDone)

/-- The data are copied before the contexts of the acknowledgement are taken. -/
def postWriteAck : Handled :=
  if !worker.upContext then .stop .error
  else if received.body.length < sizeofIov then .stop .paramInvalid
  else
    let rawIov := iovAt received.body 0
    if !worker.validate rawIov then .stop .invalidLkey
    else
      (worker.memcpy .paramInvalid 0 sizeofIov rawIov.size rawIov.rAddress).andThen
        (worker.postAck .paramInvalid .ctxFull [])

def postWriteSglAck : Handled :=
  if !worker.upContext then .stop .error
  else
    match checkIovLen received.body with
    | none => .stop .paramInvalid
    | some iovCount =>
      let iov := iovsOf received.body iovCount
      if received.body.length < sizeofIovs iovCount + dataSize32 iov then .stop .paramInvalid
      else
        (worker.copyIovs worker.validate (·.rAddress) (sizeofIovs iovCount) 0 0 iov).andThen
          (worker.postAck .paramInvalid .paramInvalid [])

/-- The handlers of the acknowledgements of writes, which have no body. -/
def writeAckHandle : Handled :=
  worker.withOriginalCtx received fun originalCtx =>
    if originalCtx.dataLength ≠ received.dataLength then .stop .paramInvalid else .stop worker.oneSideDone

def postWriteAckHandle : Handled := worker.writeAckHandle received

def postWriteSglAckHandle : Handled := worker.writeAckHandle received

/-- `HandleReceiveCtx` for one-sided messages. -/
def handleReceiveCtx : Handled :=
  match OneSideFlag.ofFlags received.flags with
  | some .read => worker.postReadAck received
  | some .readAck => worker.postReadAckHandle received
  | some .readSgl => worker.postReadSglAck received
  | some .readSglAck => worker.postReadSglAckHandle received
  | some .write => worker.postWriteAck received
  | some .writeAck => worker.postWriteAckHandle received
  | some .writeSgl => worker.postWriteSglAck received
  | some .writeSglAck => worker.postWriteSglAckHandle received
  | none => .stop .paramInvalid

end Worker

/-! ## What is asked of a handler -/

namespace Effect

/-- The bytes copied were received or belong to a registered region. -/
def SourceOk (checker : MemoryRegionChecker) (body : List UInt8) : Effect → Prop
  | .copy offset length _ | .echo offset length => offset + length ≤ body.length
  | .send address length => checker.Covers address length
  | .clear _ _ => True

/-- The bytes written are a range that the check has accepted or one of the local buffers. -/
def TargetOk (checker : MemoryRegionChecker) (buffers : List (Nat × Nat)) : Effect → Prop
  | .copy _ length address | .clear address length =>
    (∃ key, checker.validate key address length = true) ∨ (address, length) ∈ buffers
  | .echo _ _ | .send _ _ => True

def writes : Effect → Bool
  | .copy _ _ _ | .clear _ _ => true
  | .echo _ _ | .send _ _ => false

end Effect

namespace Worker

variable (worker : Worker) (received : Received)

/-- The local buffers of the request that a message acknowledges. -/
def localBuffers : List (Nat × Nat) :=
  match worker.ctxMap received.seqNo with
  | none => []
  | some originalCtx =>
    if originalCtx.sock = worker.sock then originalCtx.iov.map fun iov => (iov.lAddress, iov.size) else []

structure Right : Prop where
  sources : ∀ effect ∈ (worker.handleReceiveCtx received).effects, effect.SourceOk worker.checker received.body
  targets : ∀ effect ∈ (worker.handleReceiveCtx received).effects,
    effect.TargetOk worker.checker (worker.localBuffers received)
  /-- A request that is rejected has written nothing. -/
  kept : ∀ flag, OneSideFlag.ofFlags received.flags = some flag → flag.request = true →
    (worker.handleReceiveCtx received).result ≠ .ok →
      ∀ effect ∈ (worker.handleReceiveCtx received).effects, effect.writes = false

/-! ## When it holds -/

/-- An acknowledgement can be posted. -/
def Answers : Prop := worker.opCtxLeft = true ∧ worker.sglCtxLeft = true ∧ worker.postResult = .ok

/-- A write that passes the checks has its data in the body and can be acknowledged. -/
def WriteCareful (body : List UInt8) : Prop :=
  worker.upContext = true → sizeofIov ≤ body.length → worker.validate (iovAt body 0) = true →
    match worker.memcpyS 0 with
    | .copied => sizeofIov + (iovAt body 0).size ≤ body.length ∧ worker.Answers
    | .refused => True
    | .cleared => False

/-- Of a scatter write that passes the checks of its lengths nothing is written, or all of it is and
it can be acknowledged; and the sum of its sizes fits into 32 bits. -/
def WriteSglCareful (body : List UInt8) : Prop :=
  ∀ count, worker.upContext = true → checkIovLen body = some count →
    sizeofIovs count + totalSize (iovsOf body count) % 2 ^ 32 ≤ body.length →
      (worker.validate (iovAt body sizeofIovCount) = false ∨ worker.memcpyS 0 = .refused) ∨
      ((∀ iov ∈ iovsOf body count, worker.validate iov = true) ∧ (∀ index < count, worker.memcpyS index = .copied) ∧
        totalSize (iovsOf body count) < 2 ^ 32 ∧ worker.Answers)

/-- A context that waits for this message. -/
def Waits (originalCtx : OriginalCtx) : Prop :=
  worker.upContext = true ∧ worker.ctxMap received.seqNo = some originalCtx ∧ originalCtx.sock = worker.sock

/-- The body of the acknowledgement of a scatter read that passes the checks has as many bytes as
the buffers of the original request that are copied to. -/
def ReadSglAckCareful : Prop :=
  ∀ originalCtx, worker.Waits received originalCtx → checkIovLen received.body = some originalCtx.iov.length →
    (originalCtx.dataLength + totalSize (iovsOf received.body originalCtx.iov.length)) % 2 ^ 32 =
        received.dataLength →
      ∀ copied ≤ originalCtx.iov.length, (∀ index < copied, worker.memcpyS index = .copied) →
        sizeofIovs originalCtx.iov.length + totalSize (originalCtx.iov.take copied) ≤ received.body.length

def Careful : Prop :=
  match OneSideFlag.ofFlags received.flags with
  | some .write => worker.WriteCareful received.body
  | some .writeSgl => worker.WriteSglCareful received.body
  | some .readSglAck => worker.ReadSglAckCareful received
  | _ => True

end Worker

end UbsComm.Sock
