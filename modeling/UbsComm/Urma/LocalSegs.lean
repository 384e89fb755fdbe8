import UbsComm.Library.Run
import Mathlib.Data.List.Perm.Basic
import Mathlib.Data.List.TakeWhile

/-! # Segments of the own blocks

A block by which the pool is expanded is registered with every device context, and it is unregistered when the
pool is taken down. -/

namespace UbsComm.Urma

open Library List

/-- The contexts that are not null, as registration and as the table go through them, and the sizes of the pool. -/
structure SegOptions where
  contexts : List Nat
  order : List Nat
  spaceMb : Nat
  blockSizeMb : Nat
  perm : order.Perm contexts
  nodup : order.Nodup

/-- A call of `ExpandBlock`: `registers` says which contexts accept the block. -/
structure BlockExpansion where
  forDirectAllocation : Bool
  registers : Nat → Bool

/-- `table` says for which context and block `local_target_segs_` has a segment; `live` has the context and the
block of every segment that is registered. -/
structure LocalSegs where
  table : Nat → Nat → Bool
  blocks : Nat
  directAllocBlocks : List Nat
  tcAllocBlocks : List Nat
  live : List (Nat × Nat)

namespace LocalSegs

def new : LocalSegs := ⟨fun _ _ => false, 0, [], [], []⟩

variable (options : SegOptions) (segs : LocalSegs)

/-- The loop stops at the first context that does not accept the block. -/
def registerMem (registers : Nat → Bool) : LocalSegs × Bool :=
  let done := options.contexts.takeWhile registers
  ({ segs with
      table := fun ctx block => (ctx ∈ done ∧ block = segs.blocks) || segs.table ctx block
      live := segs.live ++ done.map (·, segs.blocks) }, done = options.contexts)

def expandBlock (expansion : BlockExpansion) : LocalSegs :=
  if segs.blocks * options.blockSizeMb ≥ options.spaceMb then segs
  else
    let (segs, registered) := segs.registerMem options expansion.registers
    if !registered then segs
    else if expansion.forDirectAllocation then
      { segs with directAllocBlocks := segs.directAllocBlocks ++ [segs.blocks], blocks := segs.blocks + 1 }
    else { segs with tcAllocBlocks := segs.tcAllocBlocks ++ [segs.blocks], blocks := segs.blocks + 1 }

def blockCount : Nat := options.spaceMb / options.blockSizeMb

/-- The calls that unregister: the loop stops where there is no segment and where a call fails. -/
def deregisterMem (unregisters : Nat × Nat → Bool) (block : Nat) : List Nat → List (Nat × Nat)
  | [] => []
  | ctx :: rest =>
    if blockCount options ≤ block ∨ segs.table ctx block = false then []
    else (ctx, block) :: if unregisters (ctx, block) then deregisterMem unregisters block rest else []

def shrinkAllBlocks (unregisters : Nat × Nat → Bool) : List (Nat × Nat) :=
  (segs.directAllocBlocks ++ segs.tcAllocBlocks).flatMap
    fun block => segs.deregisterMem options unregisters block options.order

/-- Every context has one segment for each block of the pool and no other one, and each is unregistered once. -/
structure Right (unregisters : Nat × Nat → Bool) : Prop where
  registered : segs.live.Perm ((range segs.blocks).flatMap fun block => options.contexts.map (·, block))
  unregistered : (segs.shrinkAllBlocks options unregisters).Perm segs.live

/-- The table has a place for the block, and no context refuses it after another one has accepted it. -/
def Careful (expansion : BlockExpansion) : Prop :=
  segs.blocks * options.blockSizeMb < options.spaceMb → segs.blocks < blockCount options ∧
    ((∀ ctx ∈ options.contexts, expansion.registers ctx) ∨
      ∀ ctx ∈ options.contexts.head?, expansion.registers ctx = false)

/-- Only the last context of the table may fail to unregister. -/
def CarefulEnd (unregisters : Nat × Nat → Bool) : Prop :=
  ∀ ctx ∈ options.order.dropLast, ∀ block, unregisters (ctx, block)

instance (expansion : BlockExpansion) : Decidable (segs.Careful options expansion) :=
  inferInstanceAs (Decidable (_ → _ ∧ (_ ∨ _)))

structure Inv : Prop where
  table : ∀ block < segs.blocks, ∀ ctx ∈ options.contexts, segs.table ctx block = true
  live : segs.live.Perm ((range segs.blocks).flatMap fun block => options.contexts.map (·, block))
  listed : (segs.directAllocBlocks ++ segs.tcAllocBlocks).Perm (range segs.blocks)
  size : segs.blocks ≤ blockCount options

variable {options segs} {unregisters : Nat × Nat → Bool} {block : Nat}

theorem deregisterMem_eq (inside : block < blockCount options) {order : List Nat}
    (held : ∀ ctx ∈ order, segs.table ctx block = true) (last : ∀ ctx ∈ order.dropLast, unregisters (ctx, block)) :
    segs.deregisterMem options unregisters block order = order.map (·, block) := by
  induction order with
  | nil => rfl
  | cons ctx rest ih =>
    obtain ⟨first, held⟩ := forall_mem_cons.mp held
    rw [deregisterMem, if_neg (by simp [first, inside]), map_cons]
    cases rest with
    | nil => simp [deregisterMem]
    | cons other rest =>
      obtain ⟨unregistered, last⟩ := forall_mem_cons.mp last
      rw [if_pos unregistered, ih held last]

variable (inv : segs.Inv options)
include inv

theorem Inv.right (careful : CarefulEnd options unregisters) : segs.Right options unregisters := by
  refine ⟨inv.live, .trans (inv.listed.flatMap fun block listed => ?_) inv.live.symm⟩
  have below := mem_range.mp (inv.listed.mem_iff.mp listed)
  rw [deregisterMem_eq (Nat.lt_of_lt_of_le below inv.size) (fun ctx mem =>
    inv.table block below ctx (options.perm.mem_iff.mp mem)) fun ctx mem => careful ctx mem block]
  exact options.perm.map _

theorem Inv.step {expansion : BlockExpansion} (careful : segs.Careful options expansion) :
    (segs.expandBlock options expansion).Inv options := by
  rw [expandBlock]
  by_cases full : segs.blocks * options.blockSizeMb ≥ options.spaceMb
  · rwa [if_pos full]
  obtain ⟨inside, accepted⟩ := careful (Nat.lt_of_not_le full)
  rw [if_neg full, registerMem]
  by_cases done : options.contexts.takeWhile expansion.registers = options.contexts
  · have table : ∀ block < segs.blocks + 1, ∀ ctx ∈ options.contexts,
        (decide (ctx ∈ options.contexts ∧ block = segs.blocks) || segs.table ctx block) = true := by
      intro block below ctx mem
      obtain before | rfl := Nat.lt_succ_iff_lt_or_eq.mp below
      · simp [inv.table block before ctx mem]
      · simp [mem]
    have live : (segs.live ++ options.contexts.map (·, segs.blocks)).Perm
        ((range (segs.blocks + 1)).flatMap fun block => options.contexts.map (·, block)) := by
      rw [range_succ, flatMap_append, flatMap_singleton]
      exact inv.live.append_right _
    have listed := inv.listed.append_right [segs.blocks]
    rw [← range_succ, append_assoc] at listed
    simp only [done, decide_true, Bool.not_true, Bool.false_eq_true, if_false]
    cases expansion.forDirectAllocation with
    | false => exact ⟨table, live, listed, inside⟩
    | true =>
      refine ⟨table, live, .trans ?_ listed, inside⟩
      show (segs.directAllocBlocks ++ [segs.blocks] ++ segs.tcAllocBlocks).Perm _
      rw [append_assoc]
      exact perm_append_comm.append_left _
  · have nothing : options.contexts.takeWhile expansion.registers = [] := by
      obtain all | refused := accepted
      · exact absurd (takeWhile_eq_self_iff.mpr all) done
      · cases found : options.contexts with
        | nil => rfl
        | cons ctx rest => simp [refused ctx (by rw [found]; rfl)]
    rw [nothing] at done ⊢
    simpa [done] using inv

omit inv

theorem new_inv : new.Inv options := ⟨nofun, .nil, .nil, Nat.zero_le _⟩

/-- After every run of careful expansions each context has one segment for each block, and the end unregisters them. -/
theorem localSegs_right_of_careful_expansions (careful : CarefulEnd options unregisters)
    (run : Run (expandBlock options) (Careful options) new segs) : segs.Right options unregisters :=
  (run.invariant new_inv fun _ _ inv careful => inv.step careful).right careful

/-- Two contexts and room for two blocks. -/
def twoContexts : SegOptions := ⟨[1, 2], [2, 1], 64, 32, by decide, by decide⟩

/-- The first attempt is refused, and in the end the last context does not unregister. -/
theorem localSegs_right_retried :
    ([⟨false, fun _ => false⟩, ⟨false, fun _ => true⟩, ⟨true, fun _ => true⟩].foldl (expandBlock twoContexts) new).Right
      twoContexts (·.1 = 2) :=
  localSegs_right_of_careful_expansions (by simp [CarefulEnd, twoContexts]) (.ofList (by decide))

/-- The second context refuses the block: the segment of the first one stays, and the retry registers it again. -/
theorem localSegs_halfRegistered :
    (new.expandBlock twoContexts ⟨false, (· = 1)⟩).live = [(1, 0)] ∧
      ((new.expandBlock twoContexts ⟨false, (· = 1)⟩).expandBlock twoContexts ⟨false, fun _ => true⟩).live =
        [(1, 0), (1, 0), (2, 0)] ∧
      ¬ (new.expandBlock twoContexts ⟨false, (· = 1)⟩).Right twoContexts fun _ => true := by
  refine ⟨by decide, by decide, fun right => ?_⟩
  exact absurd right.registered.length_eq (by decide)

end LocalSegs

end UbsComm.Urma
