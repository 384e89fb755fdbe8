import Mathlib.Data.Nat.Log
import UbsComm.Library.Packed
import UbsComm.Library.Run

/-! # The context store

Contexts wait for their answer in flat buckets, one word each, which hold a version over the address
of the context.  Buckets are taken and emptied by compare-and-swap; a context that finds no empty
bucket in three tries goes to a hash map.  A state is what the threads share, what each of them is
about to do, and a record of what was stored, looked up and removed. -/

namespace UbsComm.Service

open Library Function

/-- `VERSION_SHIFT`, above which no bit of an address may be set. -/
def versionBit : Nat := 58

/-- A context's address, as `PTR_MASK` gives it back. -/
abbrev Pointer := Fin (2 ^ 58)

instance neZero_58 : NeZero (2 ^ 58) := ⟨by decide⟩

/-- `HcomSeqNo` -/
structure SeqNo where
  realSeq : Nat
  version : Nat
  fromFlat : Bool
  isResp : Bool
  deriving DecidableEq

/-- `SetValue`, into bit fields. -/
def SeqNo.setValue (flat : Bool) (ver seq : Nat) : SeqNo where
  realSeq := seq % 2 ^ 24
  version := ver % 2 ^ 6
  fromFlat := flat
  isResp := false

/-- The number without the mark of a reply. -/
def SeqNo.request (seqNo : SeqNo) : SeqNo := { seqNo with isResp := false }

/-- `mVersionShift`: the flat capacity, brought into its limits, is rounded down to `2 ^ shift`. -/
def versionShift (flatCapacity : Nat) : Nat := Nat.log2 (min (max flatCapacity 128) (16 * 1024 * 1024))

/-- A context that `PutAndGetSeqNo` stored; `ticket` is the count of fetches at its last one. -/
structure Put where
  ticket : Nat
  ctx : Pointer
  seqNo : SeqNo
  deriving DecidableEq

inductive Place where
  | flat (bucket : Nat)
  | hash (key : SeqNo)
  deriving DecidableEq

def SeqNo.place (seqNo : SeqNo) : Place := if seqNo.fromFlat then .flat seqNo.realSeq else .hash seqNo.request

/-- A context returned for a number that was asked for, and what was stored there. -/
structure Take where
  asked : SeqNo
  returned : Nat
  put : Option Put
  deriving DecidableEq

/-- What was returned is what was stored under the number asked for. -/
def Take.Exact (take : Take) : Prop :=
  ∃ put, take.put = some put ∧ put.seqNo = take.asked.request ∧ put.ctx.val = take.returned

/-- A thread before its next access to the store. -/
inductive StoreCall where
  | idle
  /-- `PutAndGetSeqNo` before it fetches a number, with this many tries behind it. -/
  | fetch (tries : Nat) (ctx : Pointer) (value : Nat)
  /-- The bucket would have been the first one: fetch again. -/
  | refetch (tries : Nat) (ctx : Pointer) (value : Nat)
  | swap (tries : Nat) (ctx : Pointer) (value ticket : Nat)
  | emplace (ctx : Pointer) (value ticket : Nat)
  /-- `GetSeqNoAndRemove` before it empties the bucket it has read; `seen` was stored then. -/
  | remove (asked : SeqNo) (value : Nat) (seen : Option Put)
  deriving DecidableEq

structure CtxStore where
  shift : Nat
  index : Nat
  flat : Nat → Nat
  hash : SeqNo → Option Nat
  calls : Nat → StoreCall
  stored : Place → Option Put
  puts : List Put
  lookups : List Take
  removals : List Take

inductive StoreAction where
  | put (thread : Nat) (ctx : Pointer)
  | get (seqNo : SeqNo)
  | remove (thread : Nat) (seqNo : SeqNo)
  | advance (thread : Nat)

namespace CtxStore

def initial (flatCapacity : Nat) : CtxStore where
  shift := versionShift flatCapacity
  index := 1
  flat := fun _ => 0
  hash := fun _ => none
  calls := fun _ => .idle
  stored := fun _ => none
  puts := []
  lookups := []
  removals := []

variable (store : CtxStore)

def capacity : Nat := 2 ^ store.shift

/-- `newSeqAndVersion & mSeqNoMask` -/
def bucketOf (shift ticket : Nat) : Nat := ticket % 2 ^ 32 &&& (2 ^ shift - 1)

def versionOf (shift ticket : Nat) : Nat := (ticket % 2 ^ 32) >>> shift &&& 0x3f

def numberOf (shift ticket : Nat) (flat : Bool) : SeqNo :=
  .setValue flat (versionOf shift ticket) (bucketOf shift ticket)

def goto (thread : Nat) (call : StoreCall) : CtxStore :=
  { store with calls := update store.calls thread call }

/-- A number is fetched, and its version goes over the value. -/
def toSwap (thread tries : Nat) (ctx : Pointer) (value : Nat) : CtxStore :=
  { store with index := store.index + 1 }.goto thread
    (.swap tries ctx (pack versionBit (versionOf store.shift store.index) value) store.index)

/-- The context is in, and the call returns its number. -/
def keep (thread : Nat) (put : Put) : CtxStore :=
  { store with
    stored := update store.stored put.seqNo.place (some put)
    puts := put :: store.puts }.goto thread .idle

/-- The context is out, and the call returns it. -/
def takeOut (asked : SeqNo) (returned : Nat) : CtxStore :=
  { store with
    stored := update store.stored asked.place none
    removals := ⟨asked, returned, store.stored asked.place⟩ :: store.removals }

def lookUp (asked : SeqNo) (returned : Nat) : CtxStore :=
  { store with lookups := ⟨asked, returned, store.stored asked.place⟩ :: store.lookups }

def ptrMask : Nat := 2 ^ 58 - 1

def getBySeqNo (seqNo : SeqNo) : CtxStore :=
  if seqNo.fromFlat then
    if store.capacity ≤ seqNo.realSeq ∨ store.flat seqNo.realSeq &&& ptrMask = 0 then store
    else store.lookUp seqNo (store.flat seqNo.realSeq &&& ptrMask)
  else
    match store.hash seqNo.request with
    | some value => store.lookUp seqNo (value &&& ptrMask)
    | none => store

/-- `GetSeqNoAndRemove` to its read of the bucket, or with the map's lock held. -/
def getSeqNoAndRemove (thread : Nat) (seqNo : SeqNo) : CtxStore :=
  if seqNo.fromFlat then
    if store.capacity ≤ seqNo.realSeq then store
    else store.goto thread (.remove seqNo (store.flat seqNo.realSeq &&& ptrMask) (store.stored seqNo.place))
  else
    match store.hash seqNo.request with
    | some value =>
      { store with hash := update store.hash seqNo.request none }.takeOut seqNo (value &&& ptrMask)
    | none => store

def advance (thread : Nat) : CtxStore :=
  match store.calls thread with
  | .idle => store
  | .fetch tries ctx value =>
    if bucketOf store.shift store.index = 0 then
      { store with index := store.index + 1 }.goto thread (.refetch tries ctx value)
    else store.toSwap thread tries ctx value
  | .refetch tries ctx value => store.toSwap thread tries ctx value
  | .swap tries ctx value ticket =>
    if store.flat (bucketOf store.shift ticket) = 0 then
      { store with flat := update store.flat (bucketOf store.shift ticket) value }.keep thread
        ⟨ticket, ctx, numberOf store.shift ticket true⟩
    else if tries < 2 then store.goto thread (.fetch (tries + 1) ctx value)
    else store.goto thread (.emplace ctx value ticket)
  | .emplace ctx value ticket =>
    match store.hash (numberOf store.shift ticket false) with
    | some _ => store.goto thread .idle
    | none =>
      { store with hash := update store.hash (numberOf store.shift ticket false) (some value) }.keep thread
        ⟨ticket, ctx, numberOf store.shift ticket false⟩
  | .remove asked value _ =>
    if store.flat asked.realSeq = pack versionBit asked.version value then
      let emptied := { store with flat := update store.flat asked.realSeq 0 }.goto thread .idle
      if value = 0 then emptied else emptied.takeOut asked value
    else store.goto thread .idle

def step : StoreAction → CtxStore
  | .put thread ctx =>
    if store.calls thread = .idle ∧ ctx ≠ 0 then store.goto thread (.fetch 0 ctx ctx) else store
  | .get seqNo => store.getBySeqNo seqNo
  | .remove thread seqNo => if store.calls thread = .idle then store.getSeqNoAndRemove thread seqNo else store
  | .advance thread => store.advance thread

/-! ## What is to hold -/

structure Right : Prop where
  distinct : ∀ place other put another, store.stored place = some put → store.stored other = some another →
    put.seqNo = another.seqNo → place = other
  /-- A number comes again only after the bucket's 64 versions. -/
  apart : ∀ put ∈ store.puts, ∀ other ∈ store.puts, put.seqNo = other.seqNo → put.ticket < other.ticket →
    put.ticket + 64 * store.capacity ≤ other.ticket
  /-- A context is in the store until one call has removed it. -/
  kept : ∀ put ∈ store.puts, (∃ place, store.stored place = some put) ↔ ∀ take ∈ store.removals, take.put ≠ some put
  once : (store.removals.map (·.put)).Nodup
  removed : ∀ take ∈ store.removals, take.Exact
  found : ∀ take ∈ store.lookups, take.Exact
  /-- A call that has read the bucket with the context in it takes it out if it is still there. -/
  finishes : ∀ thread asked value put, store.calls thread = .remove asked value (some put) →
    asked.request = put.seqNo → store.stored asked.place = some put →
    (store.step (.advance thread)).removals = ⟨asked, put.ctx, some put⟩ :: store.removals
  removable : ∀ place put, store.stored place = some put → ∀ thread, store.calls thread = .idle →
    ∀ asked : SeqNo, asked.request = put.seqNo →
    ((store.step (.remove thread asked)).step (.advance thread)).removals = ⟨asked, put.ctx, some put⟩ :: store.removals

/-- When a try to store succeeds, the versions of the tries before have no bit that its own does
not have. -/
def Plain : StoreCall → Prop
  | .swap _ _ value ticket =>
    store.flat (bucketOf store.shift ticket) = 0 → value >>> versionBit = versionOf store.shift ticket
  | _ => True

instance (call) : Decidable (store.Plain call) := by
  cases call <;> dsimp only [Plain] <;> infer_instance

/-- A lookup finds the bucket empty or with the version asked for. -/
def Steady : StoreAction → Prop
  | .get seqNo =>
    seqNo.fromFlat = true → store.flat seqNo.realSeq = 0 ∨ store.flat seqNo.realSeq >>> versionBit = seqNo.version
  | .advance thread => store.Plain (store.calls thread)
  | .put .. | .remove .. => True

instance (action) : Decidable (store.Steady action) := by
  cases action <;> dsimp only [Steady] <;> infer_instance

/-! ## Numbers -/

variable {shift ticket other : Nat}

section

variable (small : shift ≤ 24)
include small

theorem bucketOf_eq : bucketOf shift ticket = ticket % 2 ^ shift := by
  rw [bucketOf, Nat.and_two_pow_sub_one_eq_mod]
  exact Nat.mod_mod_of_dvd _ (Nat.pow_dvd_pow 2 (by omega))

theorem versionOf_eq : versionOf shift ticket = ticket / 2 ^ shift % 64 := by
  have split : 2 ^ 32 = 2 ^ shift * 2 ^ (32 - shift) := by rw [← Nat.pow_add]; congr 1; omega
  rw [versionOf, show 0x3f = 2 ^ 6 - 1 from rfl, Nat.and_two_pow_sub_one_eq_mod, Nat.shiftRight_eq_div_pow, split,
    Nat.mod_mul_right_div_self]
  exact Nat.mod_mod_of_dvd _ (Nat.pow_dvd_pow 2 (show 6 ≤ 32 - shift by omega))

theorem realSeq_numberOf (flat : Bool) : (numberOf shift ticket flat).realSeq = bucketOf shift ticket := by
  apply Nat.mod_eq_of_lt
  rw [bucketOf_eq small]
  exact Nat.lt_of_lt_of_le (Nat.mod_lt _ (Nat.two_pow_pos _)) (Nat.pow_le_pow_right (by decide) small)

theorem version_numberOf (flat : Bool) : (numberOf shift ticket flat).version = versionOf shift ticket := by
  apply Nat.mod_eq_of_lt
  rw [versionOf_eq small]
  exact Nat.mod_lt _ (by decide)

/-- Two tickets with one number are a whole turn of the versions apart. -/
theorem numberOf_apart {flat : Bool}
    (same : numberOf shift ticket flat = numberOf shift other flat) (before : ticket < other) :
    ticket + 64 * 2 ^ shift ≤ other := by
  have bucket : ticket % 2 ^ shift = other % 2 ^ shift := by
    have realSeq := congrArg SeqNo.realSeq same
    rwa [realSeq_numberOf small, realSeq_numberOf small, bucketOf_eq small, bucketOf_eq small] at realSeq
  have version : ticket / 2 ^ shift % 64 = other / 2 ^ shift % 64 := by
    have version := congrArg SeqNo.version same
    rwa [version_numberOf small, version_numberOf small, versionOf_eq small, versionOf_eq small] at version
  have congruent : ticket % (2 ^ shift * 64) = other % (2 ^ shift * 64) := by
    rw [Nat.mod_mul, Nat.mod_mul, bucket, version]
  have divides : 2 ^ shift * 64 ∣ other - ticket :=
    Nat.dvd_of_mod_eq_zero (Nat.sub_mod_eq_zero_of_mod_eq congruent.symm)
  have := Nat.le_of_dvd (by omega) divides
  omega

end

theorem place_request {seqNo : SeqNo} : seqNo.request.place = seqNo.place := rfl

theorem versionShift_le {flatCapacity : Nat} : versionShift flatCapacity ≤ 24 := by
  have small : min (max flatCapacity 128) (16 * 1024 * 1024) < 2 ^ 25 := by omega
  have := (Nat.log2_lt (show min (max flatCapacity 128) (16 * 1024 * 1024) ≠ 0 by omega)).mpr small
  unfold versionShift
  omega

end CtxStore

end UbsComm.Service
