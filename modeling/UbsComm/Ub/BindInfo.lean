import UbsComm.Library.Tlv

/-! # Bind info

The bytes two queues exchange before they are bound: a version, a device, a queue and a
flow-control section.  The peer's bytes are not trusted; pointers into them are offsets
here, and reading outside of them is a fault. -/

namespace UbsComm.Ub

open Library
open Library.Tlv (Element Section headSize)

inductive BindInfoType where
  | version | dev | queue | fc

/-- `umq_ub_bind_info_type_t` -/
def BindInfoType.code : BindInfoType → UInt32
  | .version => 0x10000
  | .dev => 0x10001
  | .queue => 0x10002
  | .fc => 0x10003

def umqUbBindVersion : UInt32 := 0

def umqNamespaceSize : Nat := 256

/-- `sizeof(umq_ub_bind_version_info_t)` and so on. -/
def sizeofVersionInfo : Nat := 4
def sizeofDevInfo : Nat := 32
def sizeofQueueInfo : Nat := 32
def sizeofFcInfo : Nat := 16
def sizeofUrmaSeg : Nat := 48
def sizeofUrmaRjetty : Nat := 48

/-! ## What the sections say -/

structure BindDevInfo where
  umqTransMode : UInt32
  bufPoolMode : UInt32
  feature : UInt32
  pid : UInt32
  mempoolTokenValue : UInt32
  bindNamespace : List UInt8
  seg : List UInt8

structure BindQueueInfo where
  token : UInt32
  umqId : UInt32
  isBinded : Bool
  rxDepth : UInt32
  txDepth : UInt32
  rxBufSize : UInt32
  state : UInt32
  rjetty : List UInt8

structure BindFcInfo where
  token : UInt32
  initialCredit : UInt16
  rjetty : List UInt8

/-- `umq_ub_bind_info_t`: where in the buffer the sections are. -/
structure BindInfo where
  versionInfo : Option Nat
  devInfo : Option Nat
  queueInfo : Option Nat
  fcInfo : Option Nat

def BindInfo.empty : BindInfo := ⟨none, none, none, none⟩

/-! The fields behind a section pointer. -/

variable (bytes : List UInt8)

def devNamespaceLen (dev : Nat) : Except Fault UInt32 := read32 bytes (dev + 16)

def devSegSize (dev : Nat) : Except Fault UInt32 := read32 bytes (dev + 20)

def queueRjettySize (queue : Nat) : Except Fault UInt32 := read32 bytes (queue + 28)

def fcRjettySize (fc : Nat) : Except Fault UInt32 := read32 bytes (fc + 8)

def BindDevInfo.read (dev : Nat) : Except Fault BindDevInfo := do
  let namespaceLen ← devNamespaceLen bytes dev
  let segSize ← devSegSize bytes dev
  return {
    umqTransMode := ← read32 bytes dev
    bufPoolMode := ← read32 bytes (dev + 4)
    feature := ← read32 bytes (dev + 8)
    pid := ← read32 bytes (dev + 12)
    mempoolTokenValue := ← read32 bytes (dev + 24)
    bindNamespace := ← readBytes bytes (dev + sizeofDevInfo) namespaceLen.toNat
    seg := ← readBytes bytes (dev + sizeofDevInfo + namespaceLen.toNat) segSize.toNat }

/-- `is_binded` is the lowest bit of its word. -/
def BindQueueInfo.read (queue : Nat) : Except Fault BindQueueInfo := do
  let rjettySize ← queueRjettySize bytes queue
  return {
    token := ← read32 bytes queue
    umqId := ← read32 bytes (queue + 4)
    isBinded := decide ((← read32 bytes (queue + 8)).toNat % 2 = 1)
    rxDepth := ← read32 bytes (queue + 12)
    txDepth := ← read32 bytes (queue + 16)
    rxBufSize := ← read32 bytes (queue + 20)
    state := ← read32 bytes (queue + 24)
    rjetty := ← readBytes bytes (queue + sizeofQueueInfo) rjettySize.toNat }

/-- `initial_credit` is the lower half of its word. -/
def BindFcInfo.read (fc : Nat) : Except Fault BindFcInfo := do
  let rjettySize ← fcRjettySize bytes fc
  return {
    token := ← read32 bytes fc
    initialCredit := (← read32 bytes (fc + 4)).toUInt16
    rjetty := ← readBytes bytes (fc + sizeofFcInfo) rjettySize.toNat }

/-! ## `umq_ub_bind_info_deserialize` -/

def devInfoDeserialize (element : Element) (info : BindInfo) : Except Fault BindInfo :=
  if element.len < sizeofDevInfo then .error .invalid
  else do
    let namespaceLen ← devNamespaceLen bytes element.value
    let segSize ← devSegSize bytes element.value
    -- a sum of `size_t`, which cannot overflow
    if segSize.toNat < sizeofUrmaSeg ∨ element.len < sizeofDevInfo + namespaceLen.toNat + segSize.toNat then
      .error .invalid
    else
      let len ← strnlen bytes (element.value + sizeofDevInfo) namespaceLen.toNat
      if len = namespaceLen.toNat then .error .invalid
      else return { info with devInfo := some element.value }

/-- The checks of the two sections that end with an rjetty; `readSize` reads its size. -/
def jettyInfoDeserialize (sizeofInfo : Nat) (readSize : Nat → Except Fault UInt32) (element : Element)
    (info : BindInfo) : Except Fault BindInfo :=
  if element.len < sizeofInfo then .error .invalid
  else do
    let rjettySize ← readSize element.value
    if element.len < sizeofInfo + rjettySize.toNat then .error .invalid
    else return info

def queueInfoDeserialize (element : Element) (info : BindInfo) : Except Fault BindInfo :=
  jettyInfoDeserialize sizeofQueueInfo (queueRjettySize bytes) element { info with queueInfo := some element.value }

def fcInfoDeserialize (element : Element) (info : BindInfo) : Except Fault BindInfo :=
  jettyInfoDeserialize sizeofFcInfo (fcRjettySize bytes) element { info with fcInfo := some element.value }

/-- The body of the loop.  A section of an unknown type is skipped; the last section of
a type is the one that counts. -/
def bindInfoVisit (info : BindInfo) (element : Element) : Except Fault BindInfo :=
  if element.type = BindInfoType.version.code then
    if element.len < sizeofVersionInfo then .error .invalid
    else .ok { info with versionInfo := some element.value }
  else if element.type = BindInfoType.dev.code then devInfoDeserialize bytes element info
  else if element.type = BindInfoType.queue.code then queueInfoDeserialize bytes element info
  else if element.type = BindInfoType.fc.code then fcInfoDeserialize bytes element info
  else .ok info

def umqUbBindInfoDeserialize : Except Fault BindInfo :=
  if bytes.length < headSize then .error .invalid
  else Tlv.walk (bindInfoVisit bytes) bytes 0 bytes.length .empty

/-! ## `umq_ub_bind_info_serialize`

A serializer writes at an offset of the caller's buffer and returns the length of what
it wrote; `none` is the return value 0. -/

/-- What `readlink` finds; it fills at most `UMQ_NAMESPACE_SIZE - 1` bytes. -/
inductive Readlink where
  | path (bytes : List UInt8) (short : bytes.length < umqNamespaceSize)
  | missing
  | failed

/-- What `urma_get_seg_ctx` hands out: a `urma_seg_t` with an extension of at most 1024
bytes, which is what `UMQ_MEMPOOL_INFO_MAX_SIZE` reserves. -/
structure SegCtx where
  bytes : List UInt8
  short : bytes.length ≤ sizeofUrmaSeg + 1024

structure Tseg where
  userCtx : UInt64
  segCtx : Option SegCtx

/-- What `urma_get_rjetty` hands out: a `urma_rjetty_t`, perhaps with an extension. -/
structure Rjetty where
  bytes : List UInt8
  complete : sizeofUrmaRjetty ≤ bytes.length
  short : bytes.length < 2 ^ 32

structure LocalDev where
  transMode : UInt32
  bufMode : UInt32
  feature : UInt32
  pid : UInt32
  readlink : Readlink
  tseg : Option Tseg

/-- `credit` is what the pool gives for `UMQ_INITIAL_CREDIT`. -/
structure LocalFc where
  token : UInt32
  rjetty : Option Rjetty
  localRxAllocated : Nat
  credit : UInt16

structure LocalQueue where
  isBinded : Bool
  token : UInt32
  rxDepth : UInt32
  txDepth : UInt32
  rxBufSize : UInt32
  state : UInt32
  umqId : UInt32
  tpType : UInt32
  rjetty : Option Rjetty
  flowControl : Option LocalFc

variable (dev : LocalDev)

/-- `UMQ_FEATURE_ENABLE_TOKEN_POLICY` -/
def LocalDev.tokenPolicy : Bool := dev.feature.toNat / 2 % 2 = 1

/-- `token_policy_get`: `URMA_TOKEN_PLAIN_TEXT` or `URMA_TOKEN_NONE`. -/
def tokenPolicyGet (enable : Bool) : Nat := if enable then 1 else 0

def umqUbVersionInfoSerialize (buffer : List UInt8) (start : Nat) : Option (List UInt8 × Nat) :=
  if buffer.length - start < sizeofVersionInfo + headSize then none
  else
    let buffer := poke buffer (start + headSize) (le32 umqUbBindVersion)
    some (poke buffer start (le32 BindInfoType.version.code ++ le32 (.ofNat sizeofVersionInfo)),
      headSize + sizeofVersionInfo)

/-- The link's target with a terminating zero; the length it returns counts the zero. -/
def umqUbGetNamespace : Readlink → Option (List UInt8)
  | .path bytes _ => if bytes.length + 1 > umqNamespaceSize then none else some (bytes ++ [0])
  | .missing => some [0]
  | .failed => none

/-- Round up to a multiple of `UMQ_LEN_ALIGNMENT_8`. -/
def align8 (length : Nat) : Nat := (length + 7) / 8 * 8

/-- What `umq_ub_get_namespace` leaves in a buffer of `size` bytes. -/
def padZeros (size : Nat) (name : List UInt8) : List UInt8 := name ++ List.replicate (size - name.length) 0

def umqUbDevInfoSerialize (buffer : List UInt8) (start : Nat) : Option (List UInt8 × Nat) :=
  let leftBufSize := buffer.length - start
  if leftBufSize < sizeofDevInfo + headSize + umqNamespaceSize then none
  else do
    let name ← umqUbGetNamespace dev.readlink
    let namespaceLen := align8 name.length
    let tseg ← dev.tseg
    let seg ← tseg.segCtx
    if seg.bytes.length < sizeofUrmaSeg then none
    else
      let total := (sizeofDevInfo + namespaceLen + seg.bytes.length) % 2 ^ 32
      if leftBufSize < (headSize + total) % 2 ^ 32 then none
      else
        let devInfo := start + headSize
        -- the word behind these is not written
        let buffer := poke buffer devInfo (le32s [dev.transMode, dev.bufMode, dev.feature, dev.pid,
          .ofNat namespaceLen, .ofNat seg.bytes.length, tseg.userCtx.toUInt32])
        let buffer := poke buffer (devInfo + sizeofDevInfo) (padZeros umqNamespaceSize name)
        let buffer := poke buffer (devInfo + sizeofDevInfo + namespaceLen) seg.bytes
        some (poke buffer start (le32 BindInfoType.dev.code ++ le32 (.ofNat total)), (headSize + total) % 2 ^ 32)

/-- Token policy and transport type of the local side replace those of the jetty. -/
def rjettyPatch (tokenPolicy : Nat) (tpType : UInt32) (bytes : List UInt8) : List UInt8 :=
  let flag := unLe32 ((bytes.drop 36).take 4)
  poke (poke bytes 36 (le32 (.ofNat (flag.toNat / 8 * 8 + tokenPolicy)))) 40 (le32 tpType)

variable (queue : LocalQueue)

def umqUbRjettyGet (rjetty : Option Rjetty) (leftBufSize : Nat) :
    Option (List UInt8) := do
  let rjetty ← rjetty
  if leftBufSize < rjetty.bytes.length ∨ rjetty.bytes.length = 0 then none
  else some (rjettyPatch (tokenPolicyGet dev.tokenPolicy) queue.tpType rjetty.bytes)

def umqUbQueueInfoSerialize (buffer : List UInt8) (start : Nat) : Option (List UInt8 × Nat) :=
  let leftBufSize := buffer.length - start
  let tempSize := sizeofQueueInfo + headSize
  if leftBufSize < tempSize then none
  else do
    let rjetty ← umqUbRjettyGet dev queue queue.rjetty (leftBufSize - tempSize)
    let queueInfo := start + headSize
    let len := (sizeofQueueInfo + rjetty.length) % 2 ^ 32
    let buffer := poke buffer queueInfo (le32s [queue.token, queue.umqId, if queue.isBinded then 1 else 0,
      queue.rxDepth, queue.txDepth, queue.rxBufSize, queue.state, .ofNat rjetty.length])
    let buffer := poke buffer (queueInfo + sizeofQueueInfo) rjetty
    some (poke buffer start (le32 BindInfoType.queue.code ++ le32 (.ofNat len)), (headSize + len) % 2 ^ 32)

/-- Only a queue that has handed out nothing yet grants an initial credit. -/
def LocalFc.initialCredit (fc : LocalFc) : UInt16 := if fc.localRxAllocated = 0 then fc.credit else 0

/-- The rjetty and the first two words of the section. -/
def fcFields (leftBufSize : Nat) : Option (List UInt8 × UInt32 × UInt16) :=
  match queue.flowControl with
  | none => some ([], 0, 0)
  | some fc => do
    let rjetty ← umqUbRjettyGet dev queue fc.rjetty leftBufSize
    return (rjetty, fc.token, fc.initialCredit)

def umqUbFcInfoSerialize (buffer : List UInt8) (start : Nat) : Option (List UInt8 × Nat) :=
  let leftBufSize := buffer.length - start
  let tempSize := sizeofFcInfo + headSize
  if leftBufSize < tempSize then none
  else do
    let (rjetty, token, credit) ← fcFields dev queue (leftBufSize - tempSize)
    let fcInfo := start + headSize
    let len := (sizeofFcInfo + rjetty.length) % 2 ^ 32
    -- four bytes of padding stand before the rjetty
    let buffer := poke buffer fcInfo (le32s [token, credit.toUInt32, .ofNat rjetty.length])
    let buffer := poke buffer (fcInfo + sizeofFcInfo) rjetty
    some (poke buffer start (le32 BindInfoType.fc.code ++ le32 (.ofNat len)), (headSize + len) % 2 ^ 32)

def umqUbBindInfoSerialize (buffer : List UInt8) : Option (List UInt8 × Nat) := do
  let (buffer, versionSize) ← umqUbVersionInfoSerialize buffer 0
  let (buffer, devSize) ← umqUbDevInfoSerialize dev buffer versionSize
  let (buffer, queueSize) ← umqUbQueueInfoSerialize dev queue buffer (versionSize + devSize)
  let (buffer, fcSize) ← umqUbFcInfoSerialize dev queue buffer (versionSize + devSize + queueSize)
  return (buffer, versionSize + devSize + queueSize + fcSize)

end UbsComm.Ub
