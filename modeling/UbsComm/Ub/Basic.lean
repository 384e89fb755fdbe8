import Mathlib.Algebra.Ring.Nat
import Mathlib.Data.Fin.Basic

/-! # UB transport: shared data types

The data the UB data path reads and writes: user and URMA opcodes, immediate
data, send buffers, work requests and return codes.  A return code is
`Except UmqErr Unit`; the constructors of `UmqErr` are the `UMQ_ERR_*` macros
(and `UMQ_FAIL`). -/

namespace UbsComm.Ub

/-- `UMQ_BATCH_SIZE`, the number of work requests one call may build. -/
def umqBatchSize : Nat := 256

/-- `QBUF_POOL_MEMPOOL_ID_MAX`, the id of buffers that live outside every pool. -/
def qbufPoolMempoolIdMax : Nat := 1023

/-- `UMQ_MAX_TSEG_NUM`, the number of segments a device can register. -/
def umqMaxTsegNum : Nat := 1024

def uint16Max : Nat := 65535

inductive UmqErr where
  | fail | eperm | eagain | enomem | eexist | einval | enodev | efault | emlink | enobufs
  | etimeout | einprogress | etsegNonImported | eflowctl | eflowctlFatal | eflowctlEagain
  deriving DecidableEq

abbrev UmqRet := Except UmqErr Unit

/-- The statuses of `urma_status_t` other than `URMA_SUCCESS`. -/
inductive UrmaError where
  | fail | eagain | enomem | enoperm | etimeout | einval | eexist | einprogress | unrecognized

def umqStatusConvert : UrmaError → UmqErr
  | .fail => .fail
  | .eagain => .eagain
  | .enomem => .enomem
  | .enoperm => .eperm
  | .etimeout => .etimeout
  | .einval => .einval
  | .eexist => .eexist
  | .einprogress => .einprogress
  | .unrecognized => .fail

inductive UmqOpcode where
  | write | writeImm | read | send | sendImm | nop
  deriving DecidableEq

inductive UrmaOpcode where
  | write | writeImm | read | send | sendImm

/-- The opcode test `umq_ub_post_tx` and `umq_ub_on_tx_done` use. -/
def UmqOpcode.consumeRqe : UmqOpcode → Bool
  | .send | .sendImm | .writeImm => true
  | .write | .read | .nop => false

/-- Which URMA operations take an entry off the peer's receive queue. -/
def UrmaOpcode.consumesRqe : UrmaOpcode → Bool
  | .send | .sendImm | .writeImm => true
  | .write | .read => false

/-- `opcode_map` has no entry for `UMQ_OPC_NOP`, so it falls back to a plain send. -/
def transformOpCode : UmqOpcode → UrmaOpcode
  | .write => .write
  | .writeImm => .writeImm
  | .read => .read
  | .send => .send
  | .sendImm => .sendImm
  | .nop => .send

/-- `umq_ub_imm_type_t`, the two low bits of the immediate. -/
inductive ImmType where
  | user | userWithoutImm | controlMsg | reserved
  deriving DecidableEq

instance neZero_18 : NeZero (2 ^ 18) := ⟨by decide⟩
instance neZero_20 : NeZero (2 ^ 20) := ⟨by decide⟩
instance neZero_24 : NeZero (2 ^ 24) := ⟨by decide⟩
instance neZero_32 : NeZero (2 ^ 32) := ⟨by decide⟩
instance neZero_1024 : NeZero 1024 := ⟨by decide⟩

/-- The `io_imm` view of `umq_ub_imm_t`: 2 + 18 + 20 + 24 bits. -/
structure IoImm where
  type : ImmType
  umqId : Fin (2 ^ 18)
  rsvd1 : Fin (2 ^ 20)
  userData : Fin (2 ^ 24)

/-- An immediate whose 64 bits are all zero. -/
def IoImm.zero : IoImm := ⟨.user, 0, 0, 0⟩

/-- `buf_pro->imm.rsvd0 = 0` clears the 40 low bits: everything but `user_data`. -/
def IoImm.clearRsvd0 (imm : IoImm) : IoImm := { IoImm.zero with userData := imm.userData }

structure RefSge where
  length : Nat
  mempoolId : Nat

/-- The part of `umq_buf_t` and its `umq_buf_pro_t` extension the data path reads. -/
structure UmqBuf where
  addr : Nat
  totalDataSize : Nat
  dataSize : Nat
  bufData : Nat
  mempoolId : Nat
  mempoolWithoutData : Bool
  opcode : UmqOpcode
  immData : IoImm
  remoteSge : RefSge

structure UrmaSge where
  addr : Nat
  len : Nat
  tseg : Nat

/-- `imm` is `send.imm_data` for a send and `rw.notify_data` for a write. -/
structure UrmaJfsWr where
  userCtx : Nat
  opcode : UrmaOpcode
  sges : List UrmaSge
  imm : IoImm
  remote : Option RefSge

end UbsComm.Ub
