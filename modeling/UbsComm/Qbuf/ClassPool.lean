import UbsComm.Library.Lists
import UbsComm.Qbuf.Basic

/-! # What the operations on the lists of a size class keep

Returning buffers moves them between the lists of their class: none is lost, none is
doubled, every buffer of a slot comes back to its slot, and the counters follow. -/

namespace UbsComm.Qbuf

open Library List

/-! ## The expansion pool -/

def ExpansionPool.bufs (expansion : ExpansionPool) : List Buf := expansion.slotList.flatMap Slot.freeBlockList

def Slot.mempoolId (slot : Slot) : Nat := slot.slotId + qbufPoolExpSlotIdMin

structure Slot.Valid (slot : Slot) : Prop where
  small : slot.slotId < qbufPoolExpSlotTableSize
  routed : ∀ buf ∈ slot.freeBlockList, buf.mempoolId = slot.mempoolId
  counted : slot.freeBlockCnt = slot.freeBlockList.length

structure ExpansionPool.Valid (expansion : ExpansionPool) : Prop where
  distinct : (expansion.slotList.map Slot.slotId).Nodup
  slots : ∀ slot ∈ expansion.slotList, slot.Valid
  total : expansion.expTotalBlockNum = (expansion.slotList.map Slot.freeBlockCnt).sum

def ExpansionPool.Has (expansion : ExpansionPool) (mempoolId : Nat) : Prop :=
  ∃ slot ∈ expansion.slotList, slot.mempoolId = mempoolId

variable {slots : List Slot} {slot : Slot} {change : Slot → Slot} {batch : List Buf} {expansion : ExpansionPool}
  {slotId mempoolId : Nat}

theorem slotIdOf_mempoolId (small : slot.slotId < qbufPoolExpSlotTableSize) :
    slotIdOf slot.mempoolId = slot.slotId := by
  simp only [slotIdOf, Slot.mempoolId, qbufPoolExpSlotTableSize] at *
  omega

theorem map_slotId_modifySlot (keeps : ∀ slot, (change slot).slotId = slot.slotId) :
    (modifySlot slotId change slots).map Slot.slotId = slots.map Slot.slotId := by
  induction slots with
  | nil => rfl
  | cons slot slots ih =>
    rw [modifySlot]
    split
    · simp [keeps]
    · simp [ih]

theorem forall_modifySlot {p : Slot → Prop} (all : ∀ slot ∈ slots, p slot)
    (kept : ∀ slot ∈ slots, slot.slotId = slotId → p (change slot)) :
    ∀ slot ∈ modifySlot slotId change slots, p slot := by
  induction slots with
  | nil => exact all
  | cons slot slots ih =>
    rw [forall_mem_cons] at all kept
    rw [modifySlot]
    split
    · rename_i same
      exact forall_mem_cons.mpr ⟨kept.1 same, all.2⟩
    · exact forall_mem_cons.mpr ⟨all.1, ih all.2 kept.2⟩

/-- The slot that `find?` finds is the one that changes. -/
theorem perm_modifySlot {α : Type*} {contents : Slot → List α} {added : List α}
    (adds : ∀ slot, contents (change slot) = added ++ contents slot)
    (found : slots.find? (·.slotId = slotId) = some slot) :
    ((modifySlot slotId change slots).flatMap contents).Perm (added ++ slots.flatMap contents) := by
  induction slots with
  | nil => cases found
  | cons first slots ih =>
    rw [modifySlot]
    by_cases same : first.slotId = slotId
    · rw [if_pos same, flatMap_cons, flatMap_cons, adds, append_assoc]
    · rw [find?_cons_of_neg (by simpa using same)] at found
      rw [if_neg same, flatMap_cons, flatMap_cons]
      apply ((ih found).append_left _).trans
      rw [← append_assoc, ← append_assoc]
      exact perm_append_comm.append_right _

theorem sum_modifySlot {amount : Nat} (adds : ∀ slot, (change slot).freeBlockCnt = slot.freeBlockCnt + amount)
    (found : slots.find? (·.slotId = slotId) = some slot) :
    ((modifySlot slotId change slots).map Slot.freeBlockCnt).sum = (slots.map Slot.freeBlockCnt).sum + amount := by
  induction slots with
  | nil => cases found
  | cons first slots ih =>
    rw [modifySlot]
    by_cases same : first.slotId = slotId
    · rw [if_pos same, map_cons, map_cons, sum_cons, sum_cons, adds]
      omega
    · rw [find?_cons_of_neg (by simpa using same)] at found
      rw [if_neg same, map_cons, map_cons, sum_cons, sum_cons, ih found]
      omega

/-! A batch of one mempool comes back to its slot. -/

section

variable (valid : expansion.Valid)
include valid

theorem ExpansionPool.Valid.find? (mem : slot ∈ expansion.slotList) :
    expansion.slotList.find? (·.slotId = slot.slotId) = some slot := find?_key valid.distinct mem

theorem returnBatchToExpansionPool_found (mem : slot ∈ expansion.slotList) (batch : List Buf) :
    ∃ (pending : Slot → Bool) (tasks : List Nat), returnBatchToExpansionPool expansion slot.mempoolId batch =
      { expansion with
        slotList := modifySlot slot.slotId (fun slot =>
          { slot with
            freeBlockList := batch ++ slot.freeBlockList
            freeBlockCnt := slot.freeBlockCnt + batch.length
            shrinkPending := pending slot }) expansion.slotList
        expTotalBlockNum := expansion.expTotalBlockNum + batch.length
        shrinkTasks := tasks } := by
  have small := (valid.slots slot mem).small
  unfold returnBatchToExpansionPool
  simp only [slotIdOf_mempoolId small, valid.find? mem, if_neg (Nat.not_le_of_lt small)]
  exact ⟨_, _, rfl⟩

variable (has : expansion.Has mempoolId)
include has

theorem returnBatchToExpansionPool_perm (batch : List Buf) :
    (returnBatchToExpansionPool expansion mempoolId batch).bufs.Perm (batch ++ expansion.bufs) := by
  obtain ⟨slot, mem, rfl⟩ := has
  obtain ⟨pending, tasks, returned⟩ := returnBatchToExpansionPool_found valid mem batch
  rw [returned]
  exact perm_modifySlot (fun _ => rfl) (valid.find? mem)

theorem returnBatchToExpansionPool_ids (batch : List Buf) :
    (returnBatchToExpansionPool expansion mempoolId batch).slotList.map Slot.slotId =
      expansion.slotList.map Slot.slotId := by
  obtain ⟨slot, mem, rfl⟩ := has
  obtain ⟨pending, tasks, returned⟩ := returnBatchToExpansionPool_found valid mem batch
  rw [returned]
  exact map_slotId_modifySlot fun _ => rfl

theorem returnBatchToExpansionPool_valid (routed : ∀ buf ∈ batch, buf.mempoolId = mempoolId) :
    (returnBatchToExpansionPool expansion mempoolId batch).Valid := by
  have ids := returnBatchToExpansionPool_ids valid has batch
  obtain ⟨slot, mem, rfl⟩ := has
  obtain ⟨pending, tasks, returned⟩ := returnBatchToExpansionPool_found valid mem batch
  constructor
  · rw [ids]
    exact valid.distinct
  · rw [returned]
    apply forall_modifySlot valid.slots
    intro other otherListed same
    have otherValid := valid.slots other otherListed
    refine ⟨otherValid.small, forall_mem_append.mpr ⟨fun buf new => ?_, otherValid.routed⟩, ?_⟩
    · rw [routed buf new, Slot.mempoolId, Slot.mempoolId, same]
    · rw [length_append, otherValid.counted, Nat.add_comm]
  · rw [returned]
    exact (congrArg (· + batch.length) valid.total).trans
      (sum_modifySlot (fun _ => rfl) (valid.find? mem)).symm

end

/-! ## Returning a list -/

/-- `home` is the mempool of the global list. -/
structure PoolsValid (home : Nat) (pools : BufList × ExpansionPool) : Prop where
  counted : pools.1.cnt = pools.1.head.length
  homed : ∀ buf ∈ pools.1.head, buf.mempoolId = home
  expansion : pools.2.Valid

def poolsBufs (pools : BufList × ExpansionPool) : List Buf := pools.1.head ++ pools.2.bufs

/-- The buffer belongs to the class: to its global list or to one of its slots. -/
def Belongs (home : Nat) (expansion : ExpansionPool) (buf : Buf) : Prop :=
  buf.mempoolId = home ∨ expansion.Has buf.mempoolId

structure Returned (home : Nat) (before : BufList × ExpansionPool) (list : List Buf) (after : BufList × ExpansionPool) :
    Prop where
  perm : (poolsBufs after).Perm (list ++ poolsBufs before)
  ids : after.2.slotList.map Slot.slotId = before.2.slotList.map Slot.slotId
  valid : PoolsValid home after

theorem has_iff_mem_ids :
    expansion.Has mempoolId ↔ ∃ id ∈ expansion.slotList.map Slot.slotId, id + qbufPoolExpSlotIdMin = mempoolId := by
  simp [ExpansionPool.Has, Slot.mempoolId]

theorem Belongs.of_ids {home : Nat} {other : ExpansionPool} {buf : Buf} (belongs : Belongs home expansion buf)
    (ids : other.slotList.map Slot.slotId = expansion.slotList.map Slot.slotId) : Belongs home other buf := by
  rcases belongs with homed | has
  · exact .inl homed
  · right
    rw [has_iff_mem_ids] at has ⊢
    rwa [ids]

/-- A list goes back to the global list only under these ids. -/
def IsHome (home : Nat) : Prop := home = umqQbufDefaultMempoolId ∨ home = umqTinyQbufMempoolId

variable {home : Nat} {pools after : BufList × ExpansionPool} {list : List Buf}

theorem Has.not_isHome (valid : expansion.Valid) (has : expansion.Has mempoolId) :
    mempoolId ≠ umqQbufDefaultMempoolId ∧ mempoolId ≠ umqTinyQbufMempoolId := by
  obtain ⟨slot, mem, rfl⟩ := has
  have small := (valid.slots slot mem).small
  simp only [Slot.mempoolId, umqQbufDefaultMempoolId, umqTinyQbufMempoolId, qbufPoolExpSlotIdMin,
    qbufPoolExpSlotTableSize] at *
  omega

theorem returnBatch_home (isHome : IsHome home) (homed : ∀ buf ∈ list, buf.mempoolId = home) :
    returnBatch pools list = (pools.1.prepend list, pools.2) := by
  cases list with
  | nil => rfl
  | cons first rest =>
    have firstHome := homed first mem_cons_self
    have back : ¬ (first.mempoolId ≠ umqQbufDefaultMempoolId ∧ first.mempoolId ≠ umqTinyQbufMempoolId) := by
      rw [firstHome]
      rcases isHome with rfl | rfl <;> simp
    rw [returnBatch, if_neg back]

theorem returnBatch_slot (valid : pools.2.Valid) (has : pools.2.Has mempoolId) (nonempty : list ≠ [])
    (routed : ∀ buf ∈ list, buf.mempoolId = mempoolId) :
    returnBatch pools list = (pools.1, returnBatchToExpansionPool pools.2 mempoolId list) := by
  obtain ⟨first, rest, rfl⟩ := exists_cons_of_ne_nil nonempty
  rw [returnBatch, routed first mem_cons_self, if_pos (Has.not_isHome valid has)]

/-- A batch of one mempool that belongs to the class. -/
theorem returnBatch_returned (isHome : IsHome home) (valid : PoolsValid home pools) (nonempty : list ≠ [])
    (same : ∀ buf ∈ list, buf.mempoolId = mempoolId) (belongs : ∀ buf ∈ list, Belongs home pools.2 buf) :
    Returned home pools list (returnBatch pools list) := by
  obtain ⟨first, firstListed⟩ := exists_mem_of_ne_nil list nonempty
  rcases belongs first firstListed with homed | has
  · have allHome : ∀ buf ∈ list, buf.mempoolId = home := by
      intro buf mem
      rw [same buf mem, ← same first firstListed, homed]
    rw [returnBatch_home isHome allHome]
    constructor
    · simp [poolsBufs, BufList.prepend]
    · rfl
    · refine ⟨?_, ?_, valid.expansion⟩
      · simp only [BufList.prepend, length_append, valid.counted, Nat.add_comm]
      · exact forall_mem_append.mpr ⟨allHome, valid.homed⟩
  · rw [same first firstListed] at has
    have back := (returnBatchToExpansionPool_perm valid.expansion has list).append_left pools.1.head
    have ids := returnBatchToExpansionPool_ids valid.expansion has list
    have slotsValid := returnBatchToExpansionPool_valid valid.expansion has same
    rw [returnBatch_slot valid.expansion has nonempty same]
    generalize returnBatchToExpansionPool pools.2 mempoolId list = expansion at back ids slotsValid
    rw [← append_assoc] at back
    have swapped := back.trans (perm_append_comm.append_right pools.2.bufs)
    rw [append_assoc] at swapped
    exact ⟨swapped, ids, valid.counted, valid.homed, slotsValid⟩

theorem returnListToPools_returned (isHome : IsHome home) (valid : PoolsValid home pools)
    (belongs : ∀ buf ∈ list, Belongs home pools.2 buf) : Returned home pools list (returnListToPools list pools).1 := by
  -- the invariant: what has been seen is back
  apply visitRuns_induction (motive := fun seen current => Returned home pools seen current)
  · intro seen batch batchKey current run inside seenBack
    have batchBack := returnBatch_returned isHome seenBack.valid run.nonempty run.sameKey fun buf mem =>
      (belongs buf (inside buf mem)).of_ids seenBack.ids
    refine ⟨?_, batchBack.ids.trans seenBack.ids, batchBack.valid⟩
    have both := batchBack.perm.trans (seenBack.perm.append_left batch)
    rw [← append_assoc] at both
    exact both.trans (perm_append_comm.append_right _)
  · exact ⟨List.Perm.refl _, rfl, valid⟩

/-! ## The lists of a class -/

def ClassPool.bufs (pool : ClassPool) : List Buf := pool.cache.head ++ poolsBufs (pool.global, pool.expansion)

structure ClassPool.Valid (home : Nat) (pool : ClassPool) : Prop where
  counted : pool.cache.cnt = pool.cache.head.length
  belongs : ∀ buf ∈ pool.cache.head, Belongs home pool.expansion buf
  pools : PoolsValid home (pool.global, pool.expansion)

/-- The class has taken in the buffers of `added`, and is as well-formed as before. -/
structure Gains (home : Nat) (added : List Buf) (before after : ClassPool) : Prop where
  perm : after.bufs.Perm (added ++ before.bufs)
  ids : after.expansion.slotList.map Slot.slotId = before.expansion.slotList.map Slot.slotId
  valid : after.Valid home

variable {pool middle final : ClassPool} {added more : List Buf}

theorem ClassPool.Valid.gains_nil (valid : pool.Valid home) : Gains home [] pool pool := ⟨.refl _, rfl, valid⟩

theorem Gains.trans (first : Gains home added pool middle) (second : Gains home more middle final) :
    Gains home (more ++ added) pool final where
  perm := by
    rw [append_assoc]
    exact second.perm.trans (first.perm.append_left more)
  ids := second.ids.trans first.ids
  valid := second.valid

/-- A step that only moves buffers about. -/
theorem Gains.andThen (first : Gains home added pool middle) (second : Gains home [] middle final) :
    Gains home added pool final := first.trans second

/-- The end of the cache's list comes back to the pools. -/
theorem gains_of_cut (isHome : IsHome home) (valid : pool.Valid home) {keep rest : List Buf} {cnt capacity : Nat}
    (cut : keep ++ rest = pool.cache.head) (counted : cnt = keep.length) :
    Gains home [] pool
      { cache := { head := keep, cnt := cnt, capacity := capacity }
        global := (returnListToPools rest (pool.global, pool.expansion)).1.1
        expansion := (returnListToPools rest (pool.global, pool.expansion)).1.2 } := by
  have belongs : ∀ buf ∈ keep ++ rest, Belongs home pool.expansion buf := cut ▸ valid.belongs
  rw [forall_mem_append] at belongs
  have back := returnListToPools_returned isHome valid.pools belongs.2
  refine ⟨?_, back.ids, counted, ?_, back.valid⟩
  · apply (back.perm.append_left keep).trans
    rw [nil_append, ClassPool.bufs, ← cut, append_assoc]
  · exact fun buf mem => (belongs.1 buf mem).of_ids back.ids

theorem ClassPool.returnToGlobal_gains (isHome : IsHome home) (valid : pool.Valid home) (threshold : Nat) :
    Gains home [] pool (pool.returnToGlobal threshold) := by
  unfold ClassPool.returnToGlobal
  split
  · exact gains_of_cut isHome valid (nil_append _) rfl
  · split
    · rename_i long
      apply gains_of_cut isHome valid (take_append_drop ..)
      simp only [returnListToPools, valid.counted, length_drop, length_take]
      omega
    · exact valid.gains_nil

theorem ClassPool.releaseBatch_gains (valid : pool.Valid home)
    (belongs : ∀ buf ∈ added, Belongs home pool.expansion buf) :
    Gains home added pool (pool.releaseBatch added) where
  perm := by
    rw [ClassPool.bufs, ClassPool.bufs, ← append_assoc]
    exact List.Perm.refl _
  ids := rfl
  valid := by
    refine ⟨?_, ?_, valid.pools⟩
    · simp only [ClassPool.releaseBatch, length_append, valid.counted, Nat.add_comm]
    · exact forall_mem_append.mpr ⟨belongs, valid.belongs⟩

variable (isHome : IsHome home)
include isHome

section

variable (valid : pool.Valid home)
include valid

theorem ClassPool.returnAbove_gains (cap batchCnt : Nat) : Gains home [] pool (pool.returnAbove cap batchCnt) := by
  unfold ClassPool.returnAbove
  split
  · exact pool.returnToGlobal_gains isHome valid _
  · exact valid.gains_nil

theorem ClassPool.lowerCapacity_gains : Gains home [] pool pool.lowerCapacity := by
  have lowered : ∀ capacity, Gains home [] pool { pool with cache := { pool.cache with capacity := capacity } } :=
    fun capacity => ⟨.refl _, rfl, valid.counted, valid.belongs, valid.pools⟩
  unfold ClassPool.lowerCapacity
  simp only
  split
  · exact (lowered _).andThen (ClassPool.returnToGlobal_gains isHome (lowered _).valid _)
  · exact lowered _

theorem ClassPool.selfShrinkWithData_gains : Gains home [] pool pool.selfShrinkWithData := by
  unfold ClassPool.selfShrinkWithData
  split_ifs
  · exact valid.gains_nil
  · exact valid.gains_nil
  · exact pool.lowerCapacity_gains isHome valid

theorem ClassPool.selfShrinkWithoutData_gains : Gains home [] pool pool.selfShrinkWithoutData := by
  unfold ClassPool.selfShrinkWithoutData
  split_ifs
  · exact valid.gains_nil
  · exact valid.gains_nil
  · exact pool.returnToGlobal_gains isHome valid 0
  · exact pool.lowerCapacity_gains isHome valid

end

end UbsComm.Qbuf
