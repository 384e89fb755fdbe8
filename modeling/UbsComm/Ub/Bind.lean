import UbsComm.Ub.Basic
import UbsComm.Ub.BindInfo
import Mathlib.Logic.Function.Basic

/-! # The ids of queues and their peers

A queue gets its own id from a bitmap of `UMQ_ID_ALLOC_SIZE` bits.  The id of its peer comes in the peer's bind info and
is taken over as it is: none of the checks of a bind looks at it. -/

namespace UbsComm.Ub

/-- `UMQ_ID_ALLOC_SIZE`. -/
def umqIdAllocSize : Nat := 2 ^ 17

/-- `urpc_bitmap_id_generator_t` -/
structure IdGenerator where
  bitmap : Nat → Bool
  cur : Nat
  total : Nat

namespace IdGenerator

/-- `urpc_bitmap_find_next_zero_bit`, which is `total` if there is none. -/
def findNextZeroBit (generator : IdGenerator) (start : Nat) : Nat :=
  ((List.range' start (generator.total - start)).find? (!generator.bitmap ·)).getD generator.total

/-- `urpc_bitmap_id_generator_alloc_auto_inc` -/
def alloc (generator : IdGenerator) (min : Nat) : Option (Nat × IdGenerator) :=
  -- `(int)min < 0`
  if 2 ^ 31 ≤ min then none
  else
    let minBit := min % generator.total
    let bit := generator.findNextZeroBit (if minBit > generator.cur then minBit else generator.cur)
    let bit := if bit ≥ generator.total then generator.findNextZeroBit minBit else bit
    if bit ≥ generator.total then none
    else some (bit,
      { generator with
        bitmap := Function.update generator.bitmap bit true
        cur := if bit + 1 ≥ generator.total then generator.total else bit + 1 })

/-- Some generator of that many ids gives this one to a new queue. -/
def Gives (total id : Nat) : Prop :=
  ∃ generator rest : IdGenerator, generator.total = total ∧ generator.alloc 0 = some (id, rest)

theorem gives_iff {total id : Nat} : Gives total id ↔ id < total := by
  constructor
  · rintro ⟨generator, rest, rfl, given⟩
    rw [alloc, if_neg (by decide)] at given
    extract_lets minBit found bit at given
    split at given
    next => cases given
    next inside =>
      obtain rfl : bit = id := congrArg Prod.fst (Option.some.inj given)
      exact Nat.not_le.mp inside
  · intro small
    let generator : IdGenerator := ⟨fun _ => false, id, total⟩
    have found : generator.findNextZeroBit id = id := by
      obtain ⟨left, same⟩ := Nat.exists_eq_add_of_lt small
      simp [findNextZeroBit, generator, same, Nat.add_assoc, List.range'_succ]
    obtain ⟨rest, given⟩ : ∃ rest, generator.alloc 0 = some (id, rest) := by
      simp [alloc, show generator.cur = id from rfl, show generator.total = total from rfl, found, Nat.not_le.mpr small]
    exact ⟨generator, rest, rfl, given⟩

end IdGenerator

/-- What a bind compares with the peer's bind info. -/
structure BindQueue where
  flowControl : Bool
  state : UInt32
  transMode : UInt32
  tpMode : UInt32
  tpType : UInt32
  feature : UInt32
  bufPoolMode : UInt32
  isBinded : Bool

/-- The sections that `umq_ub_bind_info_deserialize` has found, and two fields of the rjetty of the queue section. -/
structure PeerInfo where
  version : Bool
  dev : Option BindDevInfo
  queue : Option BindQueueInfo
  rjettyTransMode : UInt32
  rjettyTpType : UInt32
  fc : Option BindFcInfo

/-- `UMQ_TRANS_MODE_UB` or `UMQ_TRANS_MODE_UB_PLUS` -/
def isUbTransMode (mode : UInt32) : Bool := mode = 0 ∨ mode = 5

/-- The features but `UMQ_FEATURE_ENABLE_STATS` and `UMQ_FEATURE_ENABLE_PERF` are the same. -/
def umqUbBindFeatureCheck (localFeature remoteFeature : UInt32) : Bool :=
  (localFeature ^^^ remoteFeature) &&& ~~~(4 ||| 8) = 0

/-- The checks once there are a version, a device and a queue section; a state above 1 is not `QUEUE_STATE_IDLE` or
`QUEUE_STATE_READY`. -/
def umqUbBindInfoCheck (queue : BindQueue) (info : PeerInfo) (dev : BindDevInfo) (peer : BindQueueInfo) : UmqRet :=
  if queue.flowControl ∧ info.fc = none then .error .einval
  else if ¬ isUbTransMode dev.umqTransMode then .error .einval
  else if queue.state > 1 ∨ peer.state > 1 then .error .einval
  else if queue.transMode ≠ dev.umqTransMode then .error .einval
  else if queue.tpMode ≠ info.rjettyTransMode then .error .einval
  else if queue.tpType ≠ info.rjettyTpType then .error .einval
  else if ¬ umqUbBindFeatureCheck queue.feature dev.feature then .error .einval
  else if dev.bufPoolMode ≠ queue.bufPoolMode then .error .einval
  else if queue.isBinded ∨ peer.isBinded then .error .eexist
  else .ok ()

/-- The `remote_umq_id` after `umq_ub_bind_impl`; `connected` says that the jetties are connected, the receive buffers
posted and the peer's segments imported. -/
def umqUbBindImpl (queue : BindQueue) (info : PeerInfo) (connected : Bool) : Except UmqErr UInt32 :=
  match info.version, info.dev, info.queue with
  | true, some dev, some peer => do
    umqUbBindInfoCheck queue info dev peer
    if dev.bindNamespace.length > umqNamespaceSize then .error .einval
    else if connected then .ok peer.umqId
    else .error .fail
  | _, _, _ => .error .einval

end UbsComm.Ub
