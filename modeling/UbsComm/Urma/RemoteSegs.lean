import UbsComm.Library.Run
import Mathlib.Logic.Function.Basic

/-! # Segments of a peer's blocks

The blocks of a peer are imported when they are first needed.  A call looks for the segment in the table
without the lock, and if it is not there, again under the lock before it imports the block. -/

namespace UbsComm.Urma.RemoteSegs

open Library Function List

/-- What the calls read of `RemoteSegments` and of the options, and do not change. -/
structure Peer where
  remoteStartAddr : UInt64
  blockCount : Nat
  blockSizeMb : Nat

/-- The block of an address, counted from the start of the peer's pool. -/
def Peer.blockOf (peer : Peer) (address : UInt64) : Nat :=
  (address - peer.remoteStartAddr).toNat / 2 ^ 20 / peer.blockSizeMb

/-- The same as a number of 32 bits. -/
def Peer.blockIndex (peer : Peer) (address : UInt64) : Nat := peer.blockOf address % 2 ^ 32

/-- `get_remote_target_seg`, and `store_remote_target_seg` with and without an output. -/
inductive SegCall where
  | lookup | storeOut | store
  deriving DecidableEq

/-- `valid` says that the checks in front of the address are passed. -/
inductive SegThread where
  | idle
  | reading (call : SegCall) (address : UInt64) (valid : Bool)
  | locking (out : Bool) (address : UInt64)
  deriving DecidableEq

/-- `remote_target_segs_`, the blocks imported with their segments, and for each call that returned OK and has
an output its address and the output. -/
structure SegTable where
  table : Nat → Option Nat
  threads : Nat → SegThread
  imports : List (Nat × Nat)
  outputs : List (UInt64 × Option Nat)

inductive SegAction where
  | call (thread : Nat) (call : SegCall) (address : UInt64) (valid : Bool)
  | read (thread : Nat)
  /-- The section under the lock, with what `urma_import_seg` returns if it is called. -/
  | lock (thread : Nat) (target : Option Nat)

namespace SegTable

def initial : SegTable := ⟨fun _ => none, fun _ => .idle, [], []⟩

def setThread (segs : SegTable) (thread : Nat) (phase : SegThread) : SegTable :=
  { segs with threads := update segs.threads thread phase }

def finish (segs : SegTable) (thread : Nat) (outputs : List (UInt64 × Option Nat)) : SegTable :=
  { segs.setThread thread .idle with outputs := outputs ++ segs.outputs }

variable (peer : Peer)

/-- Up to the first look at the table. -/
def read (segs : SegTable) (thread : Nat) (call : SegCall) (address : UInt64) (valid : Bool) : SegTable :=
  if !valid ∨ peer.blockIndex address ≥ peer.blockCount then segs.finish thread []
  else
    match segs.table (peer.blockIndex address), call with
    | some seg, .lookup | some seg, .storeOut => segs.finish thread [(address, some seg)]
    | some _, .store | none, .lookup => segs.finish thread []
    | none, .storeOut => segs.setThread thread (.locking true address)
    | none, .store => segs.setThread thread (.locking false address)

/-- Under the lock.  Where another thread has been faster, the output stays as the first look has left it.
With an output the caller's segment is imported, without one the block of the index. -/
def lock (segs : SegTable) (thread : Nat) (out : Bool) (address : UInt64) (target : Option Nat) : SegTable :=
  match segs.table (peer.blockIndex address), target with
  | some _, _ => segs.finish thread (if out then [(address, none)] else [])
  | none, none => segs.finish thread []
  | none, some seg =>
    { segs.finish thread (if out then [(address, some seg)] else []) with
      table := update segs.table (peer.blockIndex address) (some seg)
      imports := (if out then peer.blockOf address else peer.blockIndex address, seg) :: segs.imports }

def step (segs : SegTable) : SegAction → SegTable
  | .call thread call address valid =>
    if segs.threads thread = .idle then segs.setThread thread (.reading call address valid) else segs
  | .read thread =>
    match segs.threads thread with
    | .reading call address valid => segs.read peer thread call address valid
    | .idle | .locking _ _ => segs
  | .lock thread target =>
    match segs.threads thread with
    | .locking out address => segs.lock peer thread out address target
    | .idle | .reading _ _ _ => segs

/-- No block is imported twice, and every output is the segment imported for the block. -/
structure Right (segs : SegTable) : Prop where
  once : (segs.imports.map Prod.fst).Nodup
  outputs : ∀ output ∈ segs.outputs, ∃ seg, output.2 = some seg ∧ (peer.blockOf output.1, seg) ∈ segs.imports

/-- The block has a number of 32 bits, and a call with an output is not overtaken on its way to the lock. -/
def Careful (segs : SegTable) : SegAction → Prop
  | .call _ _ address _ => peer.blockOf address < 2 ^ 32
  | .read _ => True
  | .lock thread _ =>
    match segs.threads thread with
    | .locking true address => segs.table (peer.blockIndex address) = none
    | .locking false _ | .idle | .reading _ _ _ => True

/-! ## Runs of careful calls -/

variable {peer} {segs : SegTable} {thread : Nat} {address : UInt64}

/-- A call under way asks for a block with a number of 32 bits. -/
def Fits (peer : Peer) : SegThread → Prop
  | .idle => True
  | .reading _ address _ | .locking _ address => peer.blockIndex address = peer.blockOf address

structure Inv (peer : Peer) (segs : SegTable) : Prop extends Right peer segs where
  stored : ∀ block seg, (block, seg) ∈ segs.imports ↔ segs.table block = some seg
  fits : ∀ thread, Fits peer (segs.threads thread)

section

variable (inv : segs.Inv peer)
include inv

theorem Inv.setThread {phase : SegThread} (fits : Fits peer phase) : (segs.setThread thread phase).Inv peer :=
  { inv with fits := (forall_update_iff segs.threads fun _ => Fits peer).mpr ⟨fits, fun other _ => inv.fits other⟩ }

theorem Inv.finish {outputs : List (UInt64 × Option Nat)}
    (right : ∀ output ∈ outputs, ∃ seg, output.2 = some seg ∧ (peer.blockOf output.1, seg) ∈ segs.imports) :
    (segs.finish thread outputs).Inv peer :=
  { (inv.setThread trivial : (segs.setThread thread .idle).Inv peer) with
    outputs := forall_mem_append.mpr ⟨right, inv.outputs⟩ }

theorem Inv.read {call : SegCall} {valid : Bool} (fits : peer.blockIndex address = peer.blockOf address) :
    (segs.read peer thread call address valid).Inv peer := by
  unfold SegTable.read
  split
  · exact inv.finish nofun
  have found : ∀ seg, segs.table (peer.blockIndex address) = some seg →
      (segs.finish thread [(address, some seg)]).Inv peer := by
    intro seg found
    rw [fits, ← inv.stored] at found
    exact inv.finish (forall_mem_singleton.mpr ⟨seg, rfl, found⟩)
  split
  next listed => exact found _ listed
  next listed => exact found _ listed
  · exact inv.finish nofun
  · exact inv.finish nofun
  · exact inv.setThread fits
  · exact inv.setThread fits

theorem Inv.lock {out : Bool} (fits : peer.blockIndex address = peer.blockOf address)
    {target : Option Nat} (first : out = true → segs.table (peer.blockIndex address) = none) :
    (segs.lock peer thread out address target).Inv peer := by
  unfold SegTable.lock
  split
  next found =>
    cases out with
    | true => cases (first rfl).symm.trans found
    | false => exact inv.finish nofun
  · exact inv.finish nofun
  next seg free =>
    rw [fits] at free
    rw [fits]
    have new : ∀ seg, (peer.blockOf address, seg) ∉ segs.imports := by simp [inv.stored, free]
    have idle : (segs.setThread thread .idle).Inv peer := inv.setThread trivial
    refine { idle with once := nodup_cons.mpr ⟨?_, inv.once⟩, outputs := forall_mem_append.mpr ⟨?_, ?_⟩, stored := ?_ }
    · simp [new]
    · cases out with
      | true => exact forall_mem_singleton.mpr ⟨seg, rfl, mem_cons_self⟩
      | false => exact nofun
    · intro output mem
      obtain ⟨seg, same, listed⟩ := inv.outputs output mem
      exact ⟨seg, same, mem_cons_of_mem _ listed⟩
    · intro block other
      by_cases same : block = peer.blockOf address
      · simp [same, new, eq_comm]
      · simp [same, inv.stored]

theorem Inv.step {action : SegAction} (careful : segs.Careful peer action) : (segs.step peer action).Inv peer := by
  cases action with
  | call thread call address valid => exact guarded inv fun _ => inv.setThread (Nat.mod_eq_of_lt careful)
  | read thread =>
    have fits := inv.fits thread
    rw [SegTable.step]
    split
    next reading =>
      rw [reading] at fits
      exact inv.read fits
    all_goals exact inv
  | lock thread target =>
    have fits := inv.fits thread
    rw [SegTable.step]
    split
    next locking =>
      rw [locking] at fits
      rw [Careful, locking] at careful
      refine inv.lock fits ?_
      rintro rfl
      exact careful
    all_goals exact inv

end

/-- In every run of careful calls no block is imported twice and every output is the segment imported for the
block; and a failed import leaves the table as it was. -/
theorem segs_right_of_careful_calls (peer : Peer) :
    (∀ segs, Run (step peer) (Careful peer) initial segs → segs.Right peer) ∧
      ∀ (segs : SegTable) (thread : Nat), (segs.step peer (.lock thread none)).table = segs.table := by
  constructor
  · intro segs run
    have inv : segs.Inv peer := run.invariant ⟨⟨.nil, nofun⟩, by simp [initial], fun _ => trivial⟩
      fun _ action inv careful => inv.step careful
    exact inv.toRight
  · intro segs thread
    rw [step]
    split
    · unfold lock
      split
      · rfl
      · rfl
      · contradiction
    all_goals rfl

/-- A pool of 1024 blocks of 2 MB. -/
def smallPeer : Peer := ⟨0, 1024, 2⟩

/-- One thread imports the first block, and another finds it. -/
def inTurn : List SegAction :=
  [.call 0 .storeOut 64 true, .read 0, .lock 0 (some 7), .call 1 .storeOut 64 true, .read 1]

theorem segs_right_inTurn :
    (inTurn.foldl (step smallPeer) initial).outputs = [(64, some 7), (64, some 7)] ∧
      (inTurn.foldl (step smallPeer) initial).Right smallPeer :=
  ⟨by decide, (segs_right_of_careful_calls smallPeer).1 _
    (.ofList ⟨Nat.zero_lt_succ _, trivial, rfl, Nat.zero_lt_succ _, trivial, trivial⟩)⟩

/-- Both threads have looked before one of them imports. -/
def overtaken : List SegAction :=
  [.call 0 .storeOut 64 true, .call 1 .storeOut 64 true, .read 0, .read 1, .lock 0 (some 7), .lock 1 none]

/-- The second call returns OK with a null segment. -/
theorem overtaken_null :
    Run (step smallPeer) (fun _ _ => True) initial (overtaken.foldl (step smallPeer) initial) ∧
      (overtaken.foldl (step smallPeer) initial).outputs = [(64, none), (64, some 7)] ∧
      ¬ (overtaken.foldl (step smallPeer) initial).Right smallPeer := by
  refine ⟨.ofList (by decide), by decide, fun right => ?_⟩
  obtain ⟨seg, isSome, -⟩ := right.outputs (64, none) (by decide)
  cases isSome

end SegTable

end UbsComm.Urma.RemoteSegs
