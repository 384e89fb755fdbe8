import UbsComm.Urma.BlockCache

/-! # The block cache hands out each byte once

The cache's list is a list of whole blocks, and the partial block is one that the list does not have.  Its
rest and the blocks of the list are, in this order, the bytes that wait. -/

namespace UbsComm.Urma

open Library List Function

variable {cache : BlockCache} {cells chain : List Nat} {cutSize rxTotalLen : Nat}

/-! ## Bytes and chains -/

@[simp] theorem bytesBetween_length {block start stop : Nat} :
    (bytesBetween block start stop).length = stop - start := by
  simp [bytesBetween]

theorem bytesBetween_append {block start middle stop : Nat} (first : start ≤ middle) (second : middle ≤ stop) :
    bytesBetween block start middle ++ bytesBetween block middle stop = bytesBetween block start stop := by
  rw [bytesBetween, bytesBetween, ← map_append]
  congr 1
  have split := range'_append_1 (s := start) (m := middle - start) (n := stop - middle)
  rw [Nat.add_sub_cancel' first] at split
  rw [split]
  congr 1
  omega

@[simp] theorem bind_cached?_map {cell : Option Nat} : (cell.map BlockPtr.cached).bind BlockPtr.cached? = cell := by
  cases cell <;> rfl

@[simp] theorem cached_mem_map {block : Nat} : BlockPtr.cached block ∈ cells.map BlockPtr.cached ↔ block ∈ cells :=
  mem_map_of_injective fun _ _ => BlockPtr.cached.inj

theorem cached_last_notMem {front : List Nat} {last : Nat} (nodup : (front ++ [last]).Nodup) :
    BlockPtr.cached last ∉ front.map BlockPtr.cached := by
  simpa using (nodup_cons.mp (nodup_middle.mp nodup)).1

namespace BlockCache

theorem chainFrom_of_linked {next : BlockPtr → Option BlockPtr} {start : BlockPtr}
    {target : Option BlockPtr} (linked : Linked next (start :: chain.map .cached) target)
    (leaves : target.bind BlockPtr.cached? = none) {fuel : Nat} (enough : chain.length ≤ fuel) :
    chainFrom next fuel (next start) = (chain, target) := by
  induction chain generalizing start fuel with
  | nil =>
    have points : next start = target := linked
    rw [points]
    cases fuel with
    | zero => rfl
    | succ fuel =>
      match target, leaves with
      | none, _ => rfl
      | some (.outside _), _ => rfl
  | cons block chain ih =>
    cases fuel with
    | zero => simp at enough
    | succ fuel =>
      obtain ⟨points, behind⟩ := linked
      rw [points, chainFrom, ih behind (Nat.le_of_succ_le_succ enough)]

/-! ## What is kept -/

/-- The cache's list is `cells`, of whole blocks that no reader has seen. -/
structure Sound (cache : BlockCache) (cells : List Nat) : Prop where
  head : cache.headBlock = cells.head?
  tail : cells ≠ [] → cache.tailBlock = cells.getLast?
  links : Linked cache.next (cells.map .cached) none
  nodup : cells.Nodup
  below : ∀ block ∈ cells, block < cache.count
  whole : ∀ block ∈ cells, (cache.blocks block).size = 0 ∧ 0 < (cache.blocks block).cap ∧
    (cache.blocks block).cap < 2 ^ 32
  part : ∀ ref, cache.partialBlock = some ref → ref.block < cache.count ∧ ref.block ∉ cells ∧
    (cache.blocks ref.block).size = ref.offset ∧ (cache.blocks ref.block).cap = ref.offset ∧
    ref.offset + ref.length < 2 ^ 32

def wholeBytes (blocks : Nat → CacheBlock) (cells : List Nat) : List CachedByte :=
  cells.flatMap fun block => bytesBetween block 0 (blocks block).cap

def restBytes : Option BlockRef → List CachedByte
  | none => []
  | some ref => bytesBetween ref.block ref.offset (ref.offset + ref.length)

/-- The bytes that readers see on a chain. -/
def chainBytes (blocks : Nat → CacheBlock) (chain : List Nat) : List CachedByte :=
  chain.flatMap fun block => bytesBetween block (blocks block).size (blocks block).cap

def waitingBytes (cache : BlockCache) (cells : List Nat) : List CachedByte :=
  restBytes cache.partialBlock ++ wholeBytes cache.blocks cells

/-- The entries of the cache that refer to a block, by the list. -/
def entriesIn (cache : BlockCache) (cells : List Nat) (block : Nat) : Nat :=
  (if cache.partialBlock.map BlockRef.block = some block then 1 else 0) + cells.count block

theorem length_le_of_nodup {count : Nat} (nodup : cells.Nodup) (below : ∀ block ∈ cells, block < count) :
    cells.length ≤ count := by
  have subset : cells ⊆ range count := fun block listed => mem_range.mpr (below block listed)
  simpa using (subperm_of_subset nodup subset).length_le

theorem Sound.length_le (sound : cache.Sound cells) : cells.length ≤ cache.count :=
  length_le_of_nodup sound.nodup sound.below

theorem Sound.listed_eq (sound : cache.Sound cells) : cache.listed = cells := by
  have enough := sound.length_le
  have links := sound.links
  rw [listed, sound.head]
  cases cells with
  | nil => cases cache.count <;> rfl
  | cons first cells =>
    obtain ⟨fuel, room⟩ : ∃ fuel, cache.count = fuel + 1 := ⟨cache.count - 1, by simp at enough; omega⟩
    rw [room] at enough ⊢
    rw [head?_cons, Option.map_some, chainFrom,
      chainFrom_of_linked links rfl (Nat.le_of_succ_le_succ enough)]

theorem Sound.entries_eq (sound : cache.Sound cells) : CacheRun.entries cache = cache.entriesIn cells := by
  funext block
  rw [CacheRun.entries, entriesIn, sound.listed_eq]

/-! ## The scan -/

def capsIn (cache : BlockCache) (cells : List Nat) : List Nat := cells.map fun block => (cache.blocks block).cap

def capSum (cache : BlockCache) (cells : List Nat) : Nat := (cache.capsIn cells).sum

@[simp] theorem capSum_nil : cache.capSum [] = 0 := rfl

@[simp] theorem capSum_cons {block : Nat} :
    cache.capSum (block :: cells) = (cache.blocks block).cap + cache.capSum cells := by
  simp [capSum, capsIn]

theorem wholeBytes_length : (wholeBytes cache.blocks cells).length = cache.capSum cells := by
  simp [wholeBytes, capSum, capsIn]

/-- The scan takes whole blocks as long as they stay below the cut, or it cuts the first one. -/
theorem scan_spec (links : Linked cache.next (cells.map .cached) none)
    (whole : ∀ block ∈ cells, 0 < (cache.blocks block).cap ∧ (cache.blocks block).cap < 2 ^ 32)
    (noOverflow : CacheRun.NoOverflow cutSize rxTotalLen (cache.capsIn cells))
    (positive : 0 < cutSize) (atMost : rxTotalLen ≤ cutSize) {fuel first : Nat} (enough : cells.length ≤ fuel)
    (starts : cells.head? = some first) (lastCacheBlock : Option Nat) :
    (∃ taken left, cells = taken ++ left ∧ 0 < rxTotalLen + cache.capSum taken ∧
      rxTotalLen + cache.capSum taken ≤ cutSize ∧
      cache.scan cutSize fuel rxTotalLen lastCacheBlock first =
        ⟨rxTotalLen + cache.capSum taken, taken.getLast?.or lastCacheBlock, none⟩) ∨
    (rxTotalLen = 0 ∧ cutSize ≤ (cache.blocks first).cap ∧
      cache.scan cutSize fuel rxTotalLen lastCacheBlock first =
        ⟨cutSize, some first, some ⟨cutSize, (cache.blocks first).cap - cutSize, first⟩⟩) := by
  -- the induction is on the list that is left to scan
  induction cells generalizing rxTotalLen fuel first lastCacheBlock with
  | nil => cases starts
  | cons block cells ih =>
    cases starts
    obtain ⟨fuel, rfl⟩ : ∃ less, fuel = less + 1 := ⟨fuel - 1, by simp at enough; omega⟩
    obtain ⟨capPositive, capSmall⟩ := whole block mem_cons_self
    rw [scan]
    by_cases below : (rxTotalLen + (cache.blocks block).cap) % 2 ^ 32 < cutSize
    · obtain ⟨small, behind⟩ := noOverflow below
      dsimp only at small
      rw [Nat.mod_eq_of_lt small] at below
      simp only [Nat.mod_eq_of_lt small, below]
      left
      cases cells with
      | nil =>
        have ends : cache.next (.cached block) = none := links
        exact ⟨[block], [], rfl, by simp; omega, by simpa using below.le, by simp [ends]⟩
      | cons second cells =>
        obtain ⟨points, behindLinks⟩ := links
        rw [points]
        have outcome := ih behindLinks (fun other listed => whole other (mem_cons_of_mem _ listed))
          behind below.le (Nat.le_of_succ_le_succ enough) rfl (some block)
        obtain ⟨taken, left, split, positiveSum, sumBelow, result⟩ | ⟨zero, _⟩ := outcome
        · refine ⟨block :: taken, left, by rw [split, cons_append], ?_, ?_, ?_⟩
          · simp; omega
          · simpa [Nat.add_assoc] using sumBelow
          · refine result.trans ?_
            simp only [Nat.add_assoc, getLast?_cons]
            cases taken.getLast? <;> rfl
        · exact absurd (Nat.add_eq_zero_iff.mp zero).2 capPositive.ne'
    · obtain rfl | started := Nat.eq_zero_or_pos rxTotalLen
      · rw [Nat.zero_add, Nat.mod_eq_of_lt capSmall] at below ⊢
        exact .inr ⟨rfl, Nat.le_of_not_lt below, by simp [below, positive]⟩
      · exact .inl ⟨[], block :: cells, rfl, by simpa using started, by simpa using atMost,
          by rw [if_neg below, if_pos started.ne', ite_self]; rfl⟩

/-! ## The splice -/

variable {taken left chain : List Nat} {ptr : BlockPtr} {outSecBlock : Option BlockPtr} {result : BlockCache}

/-- The blocks taken are behind the pointer and lead on to the rest of the output chain; nothing else is relinked. -/
structure Spliced (cache result : BlockCache) (taken left : List Nat) (ptr : BlockPtr) (outSecBlock : Option BlockPtr) :
    Prop where
  partialBlock : result.partialBlock = cache.partialBlock
  headBlock : result.headBlock = left.head?
  tailBlock : result.tailBlock = cache.tailBlock
  cacheLen : result.cacheLen = cache.cacheLen
  count : result.count = cache.count
  blocks : result.blocks = cache.blocks
  chain : Linked result.next (ptr :: taken.map .cached) outSecBlock
  others : ∀ other, other ≠ ptr → other ∉ taken.map BlockPtr.cached → result.next other = cache.next other

theorem spliceOut_spec (head : cache.headBlock = (taken ++ left).head?)
    (links : Linked cache.next ((taken ++ left).map .cached) none) (nodup : taken.Nodup)
    (apart : ptr ∉ taken.map BlockPtr.cached) :
    Spliced cache (cache.spliceOut ptr outSecBlock taken.getLast?) taken left ptr outSecBlock := by
  rw [map_append] at links
  obtain ⟨front, -⟩ := links.split fun _ => rfl
  obtain rfl | ⟨takenFront, last, rfl⟩ := eq_nil_or_concat taken
  · refine ⟨rfl, head, rfl, rfl, rfl, rfl, update_self .., ?_⟩
    intro other ne _
    exact update_of_ne ne ..
  · have lastApart : BlockPtr.cached last ≠ ptr := by
      rintro rfl
      exact apart (by simp)
    rw [concat_eq_append] at nodup
    rw [concat_eq_append, map_append] at front apart
    have spliced := front.splice (cached_last_notMem nodup) apart outSecBlock
    have points : cache.next (.cached last) = left.head?.map .cached := by
      have ends := (linked_append_cons.mp front).2
      rwa [head?_map] at ends
    have start : (takenFront.map BlockPtr.cached ++ [BlockPtr.cached last]).head? = cache.headBlock.map .cached := by
      rw [head]
      cases takenFront <;> rfl
    rw [start] at spliced
    rw [concat_eq_append, getLast?_concat]
    refine ⟨rfl, ?_, rfl, rfl, rfl, rfl, by rw [map_append]; exact spliced, ?_⟩
    · simp [spliceOut, setNext, update_of_ne lastApart, points]
    · intro other ne notTaken
      have notLast : other ≠ .cached last := by
        rintro rfl
        exact notTaken (by simp)
      simp [spliceOut, setNext, update_of_ne notLast, update_of_ne ne]

/-! ## What a cut does -/

theorem wholeBytes_congr {blocks blocks' : Nat → CacheBlock}
    (same : ∀ block ∈ cells, (blocks' block).cap = (blocks block).cap) :
    wholeBytes blocks' cells = wholeBytes blocks cells := by
  refine flatMap_congr fun block listed => ?_
  rw [same block listed]

@[simp] theorem waitingBytes_markRead :
    (CacheRun.markRead cache chain).waitingBytes cells = cache.waitingBytes cells := by
  rw [waitingBytes, waitingBytes]
  congr 1
  refine wholeBytes_congr fun block _ => ?_
  simp only [CacheRun.markRead]
  split_ifs <;> rfl

/-- What is left of the list is as before, and what is left of a block that was cut starts where the readers are. -/
theorem Sound.leave (sound : cache.Sound (taken ++ left)) (head : result.headBlock = left.head?)
    (links : Linked result.next (left.map .cached) none) (tail : result.tailBlock = cache.tailBlock)
    (count : result.count = cache.count) (apart : ∀ block ∈ left, block ∉ chain)
    (same : ∀ block ∈ left, result.blocks block = cache.blocks block)
    (part : ∀ ref, result.partialBlock = some ref → ref.block < cache.count ∧ ref.block ∉ left ∧ ref.block ∈ chain ∧
      (result.blocks ref.block).cap = ref.offset ∧ ref.offset + ref.length < 2 ^ 32) :
    (CacheRun.markRead result chain).Sound left where
  head := head
  tail nonempty := by
    have ends := sound.tail (by simp [nonempty])
    rw [getLast?_append_of_ne_nil _ nonempty] at ends
    exact tail.trans ends
  links := links
  nodup := (nodup_append.mp sound.nodup).2.1
  below block listed := by
    have below := sound.below block (mem_append_right _ listed)
    exact count ▸ below
  whole block listed := by
    simp only [CacheRun.markRead, apart block listed, same block listed]
    exact sound.whole block (mem_append_right _ listed)
  part ref kept := by
    obtain ⟨below, fresh, read, cap, small⟩ := part ref kept
    refine ⟨count ▸ below, fresh, ?_, ?_, small⟩
    · simp only [CacheRun.markRead, read, if_true, cap]
    · simp only [CacheRun.markRead, read, if_true, cap]

theorem Spliced.links (spliced : Spliced cache result taken left ptr outSecBlock) (nodup : (taken ++ left).Nodup)
    (before : Linked cache.next ((taken ++ left).map .cached) none) (leaves : ptr ∉ left.map BlockPtr.cached) :
    Linked result.next (left.map .cached) none := by
  rw [map_append] at before
  refine (before.split fun _ => rfl).2.congr fun cell listed => spliced.others cell ?_ ?_
  · rintro rfl
    exact leaves listed
  · intro again
    obtain ⟨block, mem, rfl⟩ := mem_map.mp listed
    exact (nodup_append.mp nodup).2.2 block (cached_mem_map.mp again) block mem rfl

/-- A cut puts the blocks of `chain` on the output chain and leaves the list `left`. -/
structure Cut (cache : BlockCache) (cells : List Nat) (cutSize : Nat) (ptr : BlockPtr) (outSecBlock : Option BlockPtr)
    (result : BlockCache) (returned : Nat) (chain left : List Nat) : Prop where
  sound : (CacheRun.markRead result chain).Sound left
  links : Linked result.next (ptr :: chain.map .cached) outSecBlock
  count : result.count = cache.count
  room : chain.length ≤ result.count
  below : ∀ block ∈ chain, block < cache.count
  bytes : cache.waitingBytes cells = chainBytes result.blocks chain ++ result.waitingBytes left
  nonempty : ∀ block ∈ chain, (result.blocks block).size < (result.blocks block).cap
  length : returned = (chainBytes result.blocks chain).length
  positive : 0 < returned
  atMost : returned ≤ cutSize
  cacheLen : result.cacheLen = sub64 cache.cacheLen returned
  references : ∀ block, (result.blocks block).nshared + cache.entriesIn cells block =
    (cache.blocks block).nshared + chain.count block + result.entriesIn left block

/-- The cut behind a block of the reader. -/
abbrev CutsAfter (cache : BlockCache) (cells : List Nat) (cutSize block : Nat) : Prop :=
  ∃ chain left, Cut cache cells cutSize (.outside block) (cache.next (.outside block))
    (cache.cutAfter cutSize (.outside block)).1 (cache.cutAfter cutSize (.outside block)).2 chain left

theorem cutList_spec (sound : cache.Sound cells) (apart : ptr ∉ cells.map BlockPtr.cached)
    (noOverflow : CacheRun.NoOverflow cutSize rxTotalLen (cache.capsIn cells))
    (positive : 0 < cutSize) (atMost : rxTotalLen ≤ cutSize) (something : 0 < rxTotalLen ∨ cells ≠ [])
    (outSecBlock : Option BlockPtr) :
    (∃ taken left result, cells = taken ++ left ∧ 0 < rxTotalLen + cache.capSum taken ∧
      rxTotalLen + cache.capSum taken ≤ cutSize ∧ Spliced cache result taken left ptr outSecBlock ∧
      cache.cutList cutSize rxTotalLen ptr outSecBlock = result.charge (rxTotalLen + cache.capSum taken)) ∨
    (∃ first rest result, rxTotalLen = 0 ∧ cells = first :: rest ∧ cutSize ≤ (cache.blocks first).cap ∧
      Spliced (cache.keepPartial (some ⟨cutSize, (cache.blocks first).cap - cutSize, first⟩)) result [first] rest ptr
        outSecBlock ∧
      cache.cutList cutSize rxTotalLen ptr outSecBlock = result.charge cutSize) := by
  cases cells with
  | nil =>
    have nothing : cache.headBlock = none := sound.head
    have rx : 0 < rxTotalLen := something.resolve_right fun nonempty => nonempty rfl
    refine .inl ⟨[], [], cache.setNext ptr outSecBlock, rfl, by simpa using rx, by simpa using atMost,
      ⟨rfl, nothing, rfl, rfl, rfl, rfl, update_self .., ?_⟩, by simp [cutList, nothing]⟩
    intro other ne _
    exact update_of_ne ne ..
  | cons first rest =>
    have starts : cache.headBlock = some first := sound.head
    have outcome := scan_spec sound.links (fun block listed => (sound.whole block listed).2) noOverflow positive atMost
      sound.length_le rfl none
    simp only [cutList, starts]
    obtain ⟨taken, left, split, positiveSum, sumBelow, found⟩ | ⟨zero, cuts, found⟩ := outcome
    · rw [split] at apart
      have nodup := sound.nodup
      rw [split] at nodup
      refine .inl ⟨taken, left, _, split, positiveSum, sumBelow,
        spliceOut_spec (split ▸ sound.head) (split ▸ sound.links) (nodup_append.mp nodup).1 ?_, ?_⟩
      · intro listed
        exact apart (by rw [map_append]; exact mem_append_left _ listed)
      · rw [found, Option.or_none]
        rfl
    · refine .inr ⟨first, rest, _, zero, rfl, cuts,
        @spliceOut_spec (cache.keepPartial _) [first] rest ptr outSecBlock sound.head sound.links
          (nodup_singleton _) ?_, ?_⟩
      · intro listed
        exact apart (by simp at listed; simp [listed])
      · rw [found]
        rfl

variable {ref : BlockRef} {block : Nat}

/-- The cut ends inside the block `part`, which becomes the partial one. -/
theorem cut_part {part offset length : Nat} (sound : cache.Sound (taken ++ left)) (below : part < cache.count)
    (fresh : part ∉ left) (less : cutSize ≤ length) (small : offset + length < 2 ^ 32) (positive : 0 < cutSize)
    (waiting : cache.waitingBytes (taken ++ left) =
      bytesBetween part offset (offset + length) ++ wholeBytes cache.blocks left)
    (entries : ∀ block, cache.entriesIn (taken ++ left) block = [part].count block + left.count block)
    (head : result.headBlock = left.head?) (tail : result.tailBlock = cache.tailBlock)
    (links : Linked result.next (left.map .cached) none) (chain : Linked result.next [ptr, .cached part] outSecBlock)
    (count : result.count = cache.count) (cacheLen : result.cacheLen = cache.cacheLen)
    (kept : result.partialBlock = some ⟨offset + cutSize, length - cutSize, part⟩)
    (blocks : result.blocks = update cache.blocks part ⟨offset, offset + cutSize, (cache.blocks part).nshared + 1⟩) :
    Cut cache (taken ++ left) cutSize ptr outSecBlock (result.charge cutSize).1 cutSize [part] left := by
  have others : ∀ other ∈ left, other ≠ part := by
    rintro other listed rfl
    exact fresh listed
  have same : ∀ other ∈ left, result.blocks other = cache.blocks other := fun other listed => by
    rw [blocks, update_of_ne (others other listed)]
  refine
    { sound := sound.leave head links tail count ?_ same ?_
      links := chain
      count := count
      room := Nat.lt_of_lt_of_eq (Nat.zero_lt_of_lt below) count.symm
      below := by simpa using below
      bytes := ?_
      nonempty := by simpa [charge, blocks] using positive
      length := by simp [chainBytes, charge, blocks]
      positive := positive
      atMost := Nat.le_refl _
      cacheLen := by rw [← cacheLen]; rfl
      references := ?_ }
  · intro other listed
    simpa using others other listed
  · intro ref found
    obtain rfl := Option.some.inj (kept.symm.trans found)
    exact ⟨below, fresh, mem_singleton_self _, by simp [charge, blocks], by dsimp only; omega⟩
  · have split : bytesBetween part offset (offset + cutSize) ++ bytesBetween part (offset + cutSize) (offset + length) =
        bytesBetween part offset (offset + length) := bytesBetween_append (Nat.le_add_right _ _) (by omega)
    have whole : wholeBytes result.blocks left = wholeBytes cache.blocks left :=
      wholeBytes_congr fun other listed => by rw [same other listed]
    have rest : offset + cutSize + (length - cutSize) = offset + length := by omega
    rw [waiting, ← split, ← whole]
    simp [chainBytes, charge, waitingBytes, kept, restBytes, blocks, rest]
  · intro other
    rw [entries, entriesIn]
    simp only [charge, kept, blocks]
    by_cases same : other = part
    · subst same
      simp
    · simp [update_of_ne same, Ne.symm same]

/-- The cut ends inside the partial block. -/
theorem cut_within (sound : cache.Sound cells) (kept : cache.partialBlock = some ref) (less : cutSize < ref.length)
    (positive : 0 < cutSize) :
    Cut cache cells cutSize (.outside block) (cache.next (.outside block)) (cache.cutAfter cutSize (.outside block)).1
      (cache.cutAfter cutSize (.outside block)).2 [ref.block] cells := by
  obtain ⟨below, fresh, size, cap, small⟩ := sound.part ref kept
  have value : cache.cutAfter cutSize (.outside block) =
      ({ cache with
          partialBlock := some ⟨ref.offset + cutSize, ref.length - cutSize, ref.block⟩
          blocks := update cache.blocks ref.block
            ⟨ref.offset, ref.offset + cutSize, (cache.blocks ref.block).nshared + 1⟩
          next := update (update (update cache.next (.outside block) none) (.outside block)
            (some (.cached ref.block))) (.cached ref.block) (cache.next (.outside block)) } :
              BlockCache).charge cutSize := by
    simp only [cutAfter, kept, cutPartialBlock, Nat.not_le.mpr less, if_false, setNext, modifyBlock, incRef, cap,
      size, Nat.mod_eq_of_lt (show ref.offset + cutSize < 2 ^ 32 by omega)]
  rw [value]
  refine @cut_part cache cutSize [] cells _ _ _ ref.block ref.offset ref.length sound below fresh less.le small positive
    ?_ ?_ sound.head rfl ?_ ⟨?_, ?_⟩ rfl rfl rfl rfl
  · rw [nil_append, waitingBytes, kept, restBytes]
  · intro other
    rw [entriesIn, kept]
    by_cases same : ref.block = other <;> simp [same]
  · refine sound.links.congr fun cell listed => ?_
    obtain ⟨other, mem, rfl⟩ := mem_map.mp listed
    have ne : other ≠ ref.block := fun same => fresh (same ▸ mem)
    simp [ne]
  · simp
  · exact update_self ..

/-- Whole blocks are taken from the list of `opened`, behind those of `lead`, which the list does not have. -/
theorem cut_taken {opened : BlockCache} {lead : List Nat} {outBlockTail : BlockPtr}
    (sound : opened.Sound (taken ++ left))
    (noPartial : opened.partialBlock = none) (spliced : Spliced opened result taken left outBlockTail outSecBlock)
    (leadNodup : lead.Nodup) (leadFresh : ∀ block ∈ lead, block < opened.count ∧ block ∉ taken ++ left ∧
      (opened.blocks block).size < (opened.blocks block).cap)
    (links : Linked result.next (ptr :: (lead ++ taken).map .cached) outSecBlock)
    (leaves : outBlockTail ∉ left.map BlockPtr.cached) {leadBytes : List CachedByte}
    (leads : leadBytes = chainBytes opened.blocks lead)
    (positive : 0 < leadBytes.length + opened.capSum taken) (atMost : leadBytes.length + opened.capSum taken ≤ cutSize)
    (count : opened.count = cache.count) (cacheLen : opened.cacheLen = cache.cacheLen)
    (nshared : ∀ block, (opened.blocks block).nshared = (cache.blocks block).nshared)
    (waiting : cache.waitingBytes (taken ++ left) = leadBytes ++ wholeBytes opened.blocks (taken ++ left))
    (entries : ∀ block, cache.entriesIn (taken ++ left) block = lead.count block + (taken ++ left).count block) :
    Cut cache (taken ++ left) cutSize ptr outSecBlock (result.charge (leadBytes.length + opened.capSum taken)).1
      (leadBytes.length + opened.capSum taken) (lead ++ taken) left := by
  have blocks := spliced.blocks
  have resultPartial : result.partialBlock = none := spliced.partialBlock.trans noPartial
  have takenApart : ∀ block ∈ taken, block ∉ left := fun block listed again =>
    (nodup_append.mp sound.nodup).2.2 block listed block again rfl
  have seen : ∀ block ∈ taken, (opened.blocks block).size = 0 ∧ 0 < (opened.blocks block).cap := fun block listed =>
    ⟨(sound.whole block (mem_append_left _ listed)).1, (sound.whole block (mem_append_left _ listed)).2.1⟩
  have bytes : chainBytes result.blocks (lead ++ taken) = leadBytes ++ wholeBytes opened.blocks taken := by
    rw [blocks, chainBytes, flatMap_append, leads]
    congr 1
    refine flatMap_congr fun block listed => ?_
    rw [(seen block listed).1]
  have below : ∀ block ∈ lead ++ taken, block < opened.count :=
    forall_mem_append.mpr ⟨fun block leading => (leadFresh block leading).1,
      fun block again => sound.below block (mem_append_left _ again)⟩
  refine
    { sound :=
      sound.leave spliced.headBlock (spliced.links sound.nodup sound.links leaves) spliced.tailBlock spliced.count
        ?_ (fun block _ => congrFun blocks block) ?_
      links := links
      count := spliced.count.trans count
      room := ?_
      below := ?_
      bytes := ?_
      nonempty := ?_
      length := ?_
      positive := positive
      atMost := atMost
      cacheLen := ?_
      references := ?_ }
  · intro block listed chained
    obtain leading | again := mem_append.mp chained
    · exact (leadFresh block leading).2.1 (mem_append_right _ listed)
    · exact takenApart block again listed
  · intro ref kept
    exact absurd (resultPartial.symm.trans kept) nofun
  · refine length_le_of_nodup ?_ fun block chained => ?_
    · refine nodup_append.mpr ⟨leadNodup, (nodup_append.mp sound.nodup).1, ?_⟩
      rintro block leading _ again rfl
      exact (leadFresh block leading).2.1 (mem_append_left _ again)
    · exact Nat.lt_of_lt_of_eq (below block chained) spliced.count.symm
  · exact fun block chained => Nat.lt_of_lt_of_eq (below block chained) count
  · refine waiting.trans ?_
    refine Eq.trans ?_ (congrArg₂ _ bytes.symm rfl)
    simp [charge, waitingBytes, resultPartial, restBytes, blocks, wholeBytes]
  · simp only [charge, blocks]
    refine forall_mem_append.mpr ⟨fun block leading => (leadFresh block leading).2.2, fun block again => ?_⟩
    rw [(seen block again).1]
    exact (seen block again).2
  · refine Eq.trans ?_ (congrArg length bytes.symm)
    rw [length_append, wholeBytes_length]
  · simp only [charge, spliced.cacheLen, cacheLen]
  · intro block
    rw [entries, entriesIn]
    simp only [charge, blocks, nshared, resultPartial]
    simp
    omega

theorem outside_notMem : BlockPtr.outside block ∉ cells.map BlockPtr.cached := by
  simp

section

variable (sound : cache.Sound cells)
include sound

/-- Links of the reader's blocks are no concern of the cache's list. -/
theorem Sound.relink {target : Option BlockPtr} : (cache.setNext (.outside block) target).Sound cells :=
  { sound with
    links := sound.links.congr fun cell listed => by
      refine update_of_ne ?_ ..
      rintro rfl
      exact outside_notMem listed }

/-- The cut takes the rest of the partial block and goes on with the list. -/
theorem cut_through (kept : cache.partialBlock = some ref) (reaches : ref.length ≤ cutSize) (nonempty : 0 < ref.length)
    (noOverflow : CacheRun.NoOverflow cutSize ref.length (cache.capsIn cells)) :
    CutsAfter cache cells cutSize block := by
  obtain ⟨below, fresh, size, cap, small⟩ := sound.part ref kept
  let opened : BlockCache :=
    { (cache.setNext (.outside block) none).setNext (.outside block) (some (.cached ref.block)) with
      partialBlock := none
      blocks := update cache.blocks ref.block
        ⟨ref.offset, ref.offset + ref.length, (cache.blocks ref.block).nshared⟩ }
  have value : cache.cutAfter cutSize (.outside block) =
      opened.cutList cutSize ref.length (.cached ref.block) (cache.next (.outside block)) := by
    simp only [cutAfter, kept, cutPartialBlock, reaches, if_true, setNext, modifyBlock, cap, size,
      Nat.mod_eq_of_lt small, opened]
  have others : ∀ other ∈ cells, opened.blocks other = cache.blocks other := by
    intro other listed
    refine update_of_ne ?_ ..
    rintro rfl
    exact fresh listed
  have openedSound : opened.Sound cells :=
    { sound.relink.relink with
      whole := fun other listed => by
        rw [others other listed]
        exact sound.whole other listed
      part := nofun }
  have caps : opened.capsIn cells = cache.capsIn cells :=
    map_congr_left fun other listed => by rw [others other listed]
  have apart : BlockPtr.cached ref.block ∉ cells.map BlockPtr.cached := by
    simpa using fresh
  have partHeader : opened.blocks ref.block =
      ⟨ref.offset, ref.offset + ref.length, (cache.blocks ref.block).nshared⟩ := update_self ..
  rw [CutsAfter, value]
  obtain ⟨taken, left, result, rfl, positive, atMost, spliced, taking⟩ | ⟨_, _, _, zero, _⟩ :=
    cutList_spec openedSound apart (caps ▸ noOverflow) (Nat.lt_of_lt_of_le nonempty reaches) reaches (.inl nonempty)
      (cache.next (.outside block))
  · rw [taking]
    refine ⟨[ref.block] ++ taken, left, ?_⟩
    have leads : bytesBetween ref.block ref.offset (ref.offset + ref.length) =
        chainBytes opened.blocks [ref.block] := by
      simp [chainBytes, partHeader]
    have length : (bytesBetween ref.block ref.offset (ref.offset + ref.length)).length = ref.length := by simp
    have cut : Cut cache (taken ++ left) cutSize (.outside block) _ _ _ ([ref.block] ++ taken) left :=
      cut_taken openedSound rfl spliced (nodup_singleton ref.block) ?_ ?_ ?_ leads (by rwa [length])
        (by rwa [length]) rfl rfl ?_ ?_ ?_
    · rw [length] at cut
      exact cut
    · intro other same
      obtain rfl := mem_singleton.mp same
      rw [partHeader]
      exact ⟨below, fresh, by simpa using nonempty⟩
    · refine ⟨?_, spliced.chain⟩
      rw [spliced.others (.outside block) nofun outside_notMem]
      exact update_self ..
    · intro listed
      exact apart (by rw [map_append]; exact mem_append_right _ listed)
    · intro other
      by_cases same : other = ref.block
      · rw [same, partHeader]
      · rw [show opened.blocks other = cache.blocks other from update_of_ne same ..]
    · rw [waitingBytes, kept]
      congr 1
      exact (wholeBytes_congr fun other listed => by rw [others other listed]).symm
    · intro other
      rw [entriesIn, kept]
      by_cases same : ref.block = other
      · simp [same]
      · simp [same]
  · omega

/-- The cut takes whole blocks of the list, or a part of the first one. -/
theorem cut_from_list (noPartial : cache.partialBlock = none) (nonempty : cells ≠ []) (positive : 0 < cutSize)
    (noOverflow : CacheRun.NoOverflow cutSize 0 (cache.capsIn cells)) :
    CutsAfter cache cells cutSize block := by
  have value : cache.cutAfter cutSize (.outside block) =
      (cache.setNext (.outside block) none).cutList cutSize 0 (.outside block) (cache.next (.outside block)) := by
    simp only [cutAfter, noPartial]
  have openedSound : (cache.setNext (.outside block) none).Sound cells := sound.relink
  rw [CutsAfter, value]
  obtain ⟨taken, left, result, rfl, someBytes, atMost, spliced, taking⟩ |
    ⟨first, rest, result, -, rfl, cuts, spliced, taking⟩ :=
    cutList_spec openedSound (outside_notMem : .outside block ∉ _) noOverflow positive (Nat.zero_le _) (.inr nonempty)
      (cache.next (.outside block))
  · rw [taking]
    rw [Nat.zero_add] at someBytes atMost ⊢
    refine ⟨[] ++ taken, left, ?_⟩
    have cut : Cut cache (taken ++ left) cutSize (.outside block) _ _ _ ([] ++ taken) left :=
      cut_taken openedSound noPartial spliced nodup_nil nofun spliced.chain outside_notMem rfl
        (by simpa [chainBytes] using someBytes) (by simpa [chainBytes] using atMost) rfl rfl (fun _ => rfl)
        (by rw [waitingBytes, noPartial]; rfl) (fun _ => by rw [entriesIn, noPartial]; simp)
    rw [chainBytes, flatMap_nil, length_nil, Nat.zero_add] at cut
    exact cut
  · rw [taking]
    refine ⟨[first], rest, ?_⟩
    obtain ⟨size, capPositive, capSmall⟩ := sound.whole first mem_cons_self
    have fresh := (nodup_cons.mp sound.nodup).1
    refine @cut_part cache cutSize [first] rest _ _ result first 0 (cache.blocks first).cap sound
      (sound.below first mem_cons_self) fresh cuts (by omega) positive ?_ ?_ spliced.headBlock spliced.tailBlock
      (spliced.links sound.nodup openedSound.links outside_notMem) spliced.chain spliced.count spliced.cacheLen ?_ ?_
    · simp [waitingBytes, noPartial, restBytes, wholeBytes]
    · intro other
      rw [entriesIn, noPartial, count_append]
      simp
    · rw [spliced.partialBlock, Nat.zero_add]
      rfl
    · rw [spliced.blocks]
      simp [keepPartial, modifyBlock, setNext, incRef, size]

/-- Every careful cut of a cache that has bytes moves some of them to the output chain. -/
theorem Sound.cutAfter (block : Nat) (waits : cache.waitingBytes cells ≠ []) (positive : 0 < cutSize)
    (careful : CacheRun.CarefulCut cache cutSize cache.partialBlock) : CutsAfter cache cells cutSize block := by
  match kept : cache.partialBlock with
  | none =>
    rw [kept, CacheRun.CarefulCut, CacheRun.caps, sound.listed_eq] at careful
    refine cut_from_list sound kept ?_ positive careful
    rintro rfl
    simp [waitingBytes, kept, restBytes, wholeBytes] at waits
  | some ref =>
    rw [kept, CacheRun.CarefulCut, CacheRun.caps, sound.listed_eq] at careful
    obtain ⟨nonempty, noOverflow⟩ := careful
    by_cases reaches : ref.length ≤ cutSize
    · exact cut_through sound kept reaches nonempty (noOverflow reaches)
    · exact ⟨_, _, cut_within sound kept (Nat.lt_of_not_le reaches) positive⟩

/-! ## Inserting and flushing -/

theorem Sound.insert_links (dataSize : Nat) :
    (cache.insert dataSize).headBlock = (cells ++ [cache.count]).head? ∧
      (cache.insert dataSize).tailBlock = some cache.count ∧
      Linked (cache.insert dataSize).next ((cells ++ [cache.count]).map .cached) none := by
  obtain rfl | ⟨front, last, rfl⟩ := eq_nil_or_concat cells
  · have nothing : cache.headBlock = none := sound.head
    simp only [BlockCache.insert, nothing]
    exact ⟨rfl, trivial, update_self ..⟩
  · rw [concat_eq_append] at sound ⊢
    obtain ⟨first, head⟩ : ∃ first, (front ++ [last]).head? = some first := by cases front <;> exact ⟨_, rfl⟩
    have tail : cache.tailBlock = some last := by simpa using sound.tail (by simp)
    have lastBelow := sound.below last (by simp)
    have links := sound.links
    rw [map_append] at links
    have created : Linked (update cache.next (.cached cache.count) none)
        (front.map .cached ++ [.cached last]) none := by
      refine links.congr fun cell listed => update_of_ne ?_ ..
      rintro rfl
      have listed : cache.count ∈ front ++ [last] := by simpa using listed
      exact absurd (sound.below _ listed) (Nat.lt_irrefl _)
    have redirected := created.redirect (cached_last_notMem sound.nodup) (some (.cached cache.count))
    simp only [BlockCache.insert, sound.head, head, tail]
    refine ⟨by rw [head?_append, head]; rfl, trivial, ?_⟩
    rw [map_append, map_append]
    refine linked_append_cons.mpr ⟨redirected, ?_⟩
    have ne : BlockPtr.cached cache.count ≠ .cached last := by
      simpa using Nat.ne_of_gt lastBelow
    exact (update_of_ne ne ..).trans (update_self ..)

end

variable {dataSize : Nat} {cache : BlockCache}

theorem insert_fields :
    (cache.insert dataSize).blocks = update cache.blocks cache.count ⟨0, dataSize, 1⟩ ∧
      (cache.insert dataSize).count = cache.count + 1 ∧ (cache.insert dataSize).partialBlock = cache.partialBlock ∧
      (cache.insert dataSize).cacheLen = (cache.cacheLen + dataSize) % 2 ^ 64 := by
  rw [BlockCache.insert]
  split <;> exact ⟨rfl, rfl, rfl, rfl⟩

theorem Sound.insert (sound : cache.Sound cells) (positive : 0 < dataSize) (small : dataSize < 2 ^ 32) :
    (cache.insert dataSize).Sound (cells ++ [cache.count]) := by
  obtain ⟨blocks, count, kept, -⟩ := @insert_fields dataSize cache
  have older : ∀ other ∈ cells, other ≠ cache.count := fun other listed => Nat.ne_of_lt (sound.below other listed)
  have others : ∀ other, other ≠ cache.count → (cache.insert dataSize).blocks other = cache.blocks other := by
    intro other ne
    rw [blocks, update_of_ne ne]
  obtain ⟨head, tail, links⟩ := sound.insert_links dataSize
  refine
    { head := head
      tail := fun _ => by rw [tail, getLast?_concat]
      links := links
      nodup := ?_
      below := ?_
      whole := ?_
      part := ?_ }
  · refine nodup_append.mpr ⟨sound.nodup, nodup_singleton _, ?_⟩
    intro other listed added same
    exact fun again => older other listed (again.trans (mem_singleton.mp same))
  · rw [count]
    exact forall_mem_append.mpr ⟨fun other old => Nat.lt_succ_of_lt (sound.below other old),
      forall_mem_singleton.mpr (Nat.lt_succ_self _)⟩
  · refine forall_mem_append.mpr ⟨fun other old => ?_, forall_mem_singleton.mpr ?_⟩
    · rw [others other (older other old)]
      exact sound.whole other old
    · rw [blocks, update_self]
      exact ⟨rfl, positive, small⟩
  · intro ref found
    obtain ⟨below, fresh, size, cap, fits⟩ := sound.part ref (kept.symm.trans found)
    have ne := Nat.ne_of_lt below
    rw [count, others ref.block ne]
    exact ⟨Nat.lt_succ_of_lt below, by simp [fresh, ne], size, cap, fits⟩

/-- Every block of a list without repetitions loses one reference, and nothing else changes. -/
theorem foldl_decRef (nodup : cells.Nodup) :
    cells.foldl (fun cache block => cache.modifyBlock block decRef) cache =
      { cache with
        blocks := fun block => if block ∈ cells then decRef (cache.blocks block) else cache.blocks block } := by
  induction cells generalizing cache with
  | nil => simp
  | cons first cells ih =>
    obtain ⟨fresh, nodup⟩ := nodup_cons.mp nodup
    rw [foldl_cons, ih nodup, modifyBlock]
    congr 1
    funext block
    by_cases same : block = first
    · subst same
      simp [fresh]
    · simp [same]

theorem dropPartial_spec : cache.dropPartial = { cache with
    partialBlock := none
    blocks := fun block => if cache.partialBlock.map BlockRef.block = some block then decRef (cache.blocks block)
      else cache.blocks block } := by
  match kept : cache.partialBlock with
  | none =>
    rw [dropPartial]
    conv => lhs; rw [show cache = { cache with partialBlock := none } from by rw [← kept]]
    simp
  | some ref =>
    rw [dropPartial, kept]
    simp only [modifyBlock]
    congr 1
    funext block
    by_cases same : block = ref.block
    · simp [same]
    · simp [same, Ne.symm same]

/-- Dropping a reference changes neither the reader's place nor the capacity. -/
theorem modifyBlock_decRef (cache : BlockCache) (block other : Nat) :
    ((cache.modifyBlock block decRef).blocks other).size = (cache.blocks other).size ∧
      ((cache.modifyBlock block decRef).blocks other).cap = (cache.blocks other).cap ∧
      ((cache.modifyBlock block decRef).blocks other).nshared =
        if other = block then (cache.blocks other).nshared - 1 else (cache.blocks other).nshared := by
  by_cases same : other = block
  · subst same
    simp [modifyBlock, decRef]
  · simp [modifyBlock, same]

theorem Sound.dropReference (sound : cache.Sound cells) {block : Nat} : (cache.modifyBlock block decRef).Sound cells :=
  { sound with
    whole := fun other listed => by
      obtain ⟨size, cap, -⟩ := modifyBlock_decRef cache block other
      rw [size, cap]
      exact sound.whole other listed
    part := fun ref kept => by
      obtain ⟨size, cap, -⟩ := modifyBlock_decRef cache block ref.block
      rw [size, cap]
      exact sound.part ref kept }

theorem sound_nil (head : cache.headBlock = none) (noPartial : cache.partialBlock = none) : cache.Sound [] where
  head := head
  tail := absurd rfl
  links := trivial
  nodup := .nil
  below := nofun
  whole := nofun
  part _ kept := absurd (noPartial.symm.trans kept) nofun

/-- A flush that meets a list or no bytes leaves nothing and drops one reference for each entry. -/
theorem Sound.flush (sound : cache.Sound cells) (careful : cache.headBlock = none → cache.cacheLen = 0) :
    cache.flush.headBlock = none ∧ cache.flush.partialBlock = none ∧ cache.flush.cacheLen = 0 ∧
      cache.flush.count = cache.count ∧
      ∀ block, (cache.flush.blocks block).nshared = (cache.blocks block).nshared - cache.entriesIn cells block := by
  rw [BlockCache.flush, sound.listed_eq, foldl_decRef sound.nodup, dropPartial_spec]
  match head : cache.headBlock with
  | none =>
    obtain rfl : cells = [] := head?_eq_none_iff.mp (sound.head.symm.trans head)
    refine ⟨rfl, rfl, careful head, rfl, fun block => ?_⟩
    simp only [entriesIn]
    split_ifs <;> rfl
  | some _ =>
    refine ⟨rfl, rfl, rfl, rfl, fun block => ?_⟩
    simp only [entriesIn]
    by_cases listed : block ∈ cells
    · have ne : cache.partialBlock.map BlockRef.block ≠ some block := by
        intro same
        obtain ⟨ref, kept, rfl⟩ := Option.map_eq_some_iff.mp same
        exact (sound.part ref kept).2.1 listed
      simp [listed, ne, decRef, count_eq_one_of_mem sound.nodup listed]
    · simp only [count_eq_zero_of_not_mem listed]
      split_ifs <;> rfl

end BlockCache

/-! ## Runs -/

namespace CacheRun

open BlockCache

structure Inv (state : CacheRun) : Prop where
  cuts : ∀ report ∈ state.cuts, CutRight report
  cacheLen : state.cache.cacheLen = state.waiting.length
  heldBelow : ∀ block ∈ state.held, block < state.cache.count
  listed : ∃ cells, state.cache.Sound cells ∧ state.waiting = state.cache.waitingBytes cells ∧
    ∀ block < state.cache.count,
      (state.cache.blocks block).nshared = state.held.count block + state.cache.entriesIn cells block

variable {state : CacheRun}

theorem Inv.right (inv : state.Inv) : state.Right where
  cuts := inv.cuts
  cacheLen := inv.cacheLen
  references block below := by
    obtain ⟨cells, sound, -, references⟩ := inv.listed
    rw [sound.entries_eq]
    exact references block below

theorem Inv.insert (inv : state.Inv) {dataSize : Size} (careful : state.cache.cacheLen + dataSize.val < 2 ^ 64) :
    (state.step (.insert dataSize)).Inv := by
  obtain ⟨cells, sound, waiting, references⟩ := inv.listed
  have inserted := sound.insert dataSize.property.1 dataSize.property.2
  obtain ⟨blocks, count, kept, cacheLen⟩ := @insert_fields dataSize.val state.cache
  have older : ∀ other ∈ cells, other ≠ state.cache.count := fun other listed => Nat.ne_of_lt (sound.below other listed)
  refine ⟨inv.cuts, ?_, ?_, cells ++ [state.cache.count], inserted, ?_, ?_⟩
  · show (state.cache.insert dataSize.val).cacheLen = (state.waiting ++ _).length
    rw [cacheLen, Nat.mod_eq_of_lt careful, inv.cacheLen]
    simp
  · intro block held
    rw [step, count]
    exact Nat.lt_succ_of_lt (inv.heldBelow block held)
  · have whole : wholeBytes (state.cache.insert dataSize.val).blocks cells = wholeBytes state.cache.blocks cells := by
      refine wholeBytes_congr fun other listed => ?_
      rw [blocks, update_of_ne (older other listed)]
    have added : wholeBytes (state.cache.insert dataSize.val).blocks (cells ++ [state.cache.count]) =
        wholeBytes state.cache.blocks cells ++ bytesBetween state.cache.count 0 dataSize.val := by
      rw [← whole, wholeBytes, flatMap_append, flatMap_singleton, blocks, update_self]
      rfl
    rw [step, waitingBytes, kept, added, waiting, waitingBytes, append_assoc]
  · intro block below
    simp only [step] at below ⊢
    rw [count] at below
    obtain old | new := Nat.lt_succ_iff_lt_or_eq.mp below
    · rw [blocks, update_of_ne (Nat.ne_of_lt old), references block old, entriesIn, entriesIn, kept]
      simp [(Nat.ne_of_lt old).symm]
    · subst new
      have unheld : state.held.count state.cache.count = 0 :=
        count_eq_zero_of_not_mem fun held => Nat.lt_irrefl _ (inv.heldBelow _ held)
      have unlisted : cells.count state.cache.count = 0 :=
        count_eq_zero_of_not_mem fun listed => Nat.lt_irrefl _ (sound.below _ listed)
      have apart : state.cache.partialBlock.map BlockRef.block ≠ some state.cache.count := by
        intro same
        obtain ⟨ref, found, count⟩ := Option.map_eq_some_iff.mp same
        exact Nat.ne_of_lt (sound.part ref found).1 count
      simp [blocks, unheld, entriesIn, kept, apart, unlisted]

/-- What a cut leaves, by its result and the chain that can be followed afterwards. -/
theorem cut_eq {cutSize returned : Nat} {ptr : BlockPtr} {outSecBlock : Option BlockPtr} {result : BlockCache}
    (value : (state.cache.setNext ptr outSecBlock).cutAndInsertAfter cutSize (some ptr) = (result, returned))
    (followed : chainFrom result.next result.count (result.next ptr) = (chain, outSecBlock)) :
    state.cut cutSize ptr outSecBlock =
      { cache := markRead result chain
        waiting := state.waiting.drop returned
        held := state.held ++ chain
        cuts := state.cuts ++ [⟨cutSize, state.waiting,
          chain.map fun block => ⟨block, (result.blocks block).size, (result.blocks block).cap⟩, returned, outSecBlock,
          outSecBlock⟩] } := by
  simp only [CacheRun.cut, value, followed]

@[simp] theorem markRead_nil : markRead cache [] = cache := by
  simp [markRead]

theorem markRead_entriesIn {chain cells : List Nat} :
    (markRead cache chain).entriesIn cells = cache.entriesIn cells := rfl

theorem markRead_nshared {block : Nat} :
    ((markRead cache chain).blocks block).nshared = (cache.blocks block).nshared := by
  simp only [markRead]
  split_ifs <;> rfl

theorem flatMap_ranges {blocks : Nat → CacheBlock} :
    (chain.map fun block => OutRange.mk block (blocks block).size (blocks block).cap).flatMap OutRange.bytes =
      chainBytes blocks chain := by
  rw [flatMap_map]
  rfl

section

variable (inv : state.Inv)
include inv

/-- A cut of an empty cache appends nothing. -/
theorem Inv.cut_empty {cutSize : Size} {block : Nat} {outSecBlock : Option Nat}
    (empty : state.cache.cacheLen = 0) : (state.step (.cutAndInsertAfter cutSize block outSecBlock)).Inv := by
  obtain ⟨cells, sound, waiting, references⟩ := inv.listed
  have prepared : (state.cache.setNext (.outside block) (outSecBlock.map .outside)).Sound cells := sound.relink
  have nothing : state.waiting = [] := length_eq_zero_iff.mp (inv.cacheLen.symm.trans empty)
  have value : (state.cache.setNext (.outside block) (outSecBlock.map .outside)).cutAndInsertAfter cutSize.val
      (some (.outside block)) = (state.cache.setNext (.outside block) (outSecBlock.map .outside), 0) := if_pos empty
  have alone : Linked (state.cache.setNext (.outside block) (outSecBlock.map .outside)).next
      (.outside block :: ([] : List Nat).map .cached) (outSecBlock.map .outside) := update_self ..
  rw [step, cut_eq value (chainFrom_of_linked alone (by cases outSecBlock <;> rfl) (Nat.zero_le _))]
  refine ⟨?_, ?_, ?_, cells, ?_, ?_, ?_⟩
  · refine forall_mem_append.mpr ⟨inv.cuts, forall_mem_singleton.mpr ?_⟩
    exact ⟨rfl, rfl, nofun, Nat.zero_le _, fun waits => absurd nothing waits, rfl⟩
  · simpa [setNext] using inv.cacheLen
  · simpa [setNext] using inv.heldBelow
  · simpa using prepared
  · exact waiting
  · rw [append_nil]
    exact references

theorem Inv.cut {cutSize : Size} {block : Nat} {outSecBlock : Option Nat}
    (careful : state.cache.cacheLen ≠ 0 → CarefulCut state.cache cutSize.val state.cache.partialBlock) :
    (state.step (.cutAndInsertAfter cutSize block outSecBlock)).Inv := by
  by_cases empty : state.cache.cacheLen = 0
  · exact inv.cut_empty empty
  obtain ⟨cells, sound, waiting, references⟩ := inv.listed
  let prepared := state.cache.setNext (.outside block) (outSecBlock.map .outside)
  have preparedSound : prepared.Sound cells := sound.relink
  have waits : prepared.waitingBytes cells ≠ [] := by
    intro nothing
    have length := inv.cacheLen
    rw [waiting, show state.cache.waitingBytes cells = [] from nothing] at length
    exact empty length
  have preparedCareful : CarefulCut prepared cutSize.val prepared.partialBlock := by
    have same : caps prepared = caps state.cache := by
      rw [caps, caps, preparedSound.listed_eq, sound.listed_eq]
      rfl
    have before := careful empty
    show CarefulCut prepared cutSize.val state.cache.partialBlock
    cases kept : state.cache.partialBlock <;> simpa [kept, CarefulCut, same] using before
  obtain ⟨chain, left, cut⟩ := preparedSound.cutAfter block waits cutSize.property.1 preparedCareful
  have points : prepared.next (.outside block) = outSecBlock.map .outside := update_self ..
  rw [points] at cut
  generalize outcome : prepared.cutAfter cutSize.val (.outside block) = result at cut
  have value : prepared.cutAndInsertAfter cutSize.val (some (.outside block)) = (result.1, result.2) :=
    (if_neg empty).trans outcome
  rw [step, cut_eq value (chainFrom_of_linked cut.links (by cases outSecBlock <;> rfl) cut.room)]
  have bytes := waiting.trans cut.bytes
  have length := cut.length
  refine ⟨?_, ?_, ?_, left, cut.sound, ?_, ?_⟩
  · refine forall_mem_append.mpr
      ⟨inv.cuts, forall_mem_singleton.mpr ⟨?_, ?_, ?_, cut.atMost, fun _ => cut.positive, rfl⟩⟩
    · rw [flatMap_ranges, bytes, length, take_left]
    · rw [flatMap_ranges]
      exact length.symm
    · intro range mem
      obtain ⟨block, chained, rfl⟩ := mem_map.mp mem
      exact cut.nonempty block chained
  · have enough : result.2 ≤ state.cache.cacheLen := by
      rw [inv.cacheLen, bytes, length_append, ← length]
      exact Nat.le_add_right _ _
    refine cut.cacheLen.trans ?_
    rw [length_drop, ← inv.cacheLen]
    exact sub64_eq enough
  · intro held listed
    exact Nat.lt_of_lt_of_eq (forall_mem_append.mpr ⟨inv.heldBelow, cut.below⟩ held listed) cut.count.symm
  · rw [waitingBytes_markRead, bytes, length, drop_left]
  · intro other below
    have before := references other (Nat.lt_of_lt_of_eq below cut.count)
    have moved := cut.references other
    rw [markRead_nshared, markRead_entriesIn, count_append]
    have entries : prepared.entriesIn cells other = state.cache.entriesIn cells other := rfl
    have nshared : (prepared.blocks other).nshared = (state.cache.blocks other).nshared := rfl
    omega

theorem Inv.flush (careful : state.cache.headBlock = none → state.cache.cacheLen = 0) : (state.step .flush).Inv := by
  obtain ⟨cells, sound, waiting, references⟩ := inv.listed
  obtain ⟨head, noPartial, cacheLen, count, nshared⟩ := sound.flush careful
  refine ⟨inv.cuts, cacheLen, fun block held => ?_, [], sound_nil head noPartial, ?_, fun block below => ?_⟩
  · exact Nat.lt_of_lt_of_eq (inv.heldBelow block held) count.symm
  · simp [step, waitingBytes, noPartial, restBytes, wholeBytes]
  · have before := references block (Nat.lt_of_lt_of_eq below count)
    have nothing : state.cache.flush.entriesIn [] block = 0 := by simp [entriesIn, noPartial]
    simp only [step, nshared]
    omega

theorem Inv.drop {block : Nat} : (state.step (.drop block)).Inv := by
  rw [step]
  split_ifs with held
  · obtain ⟨cells, sound, waiting, references⟩ := inv.listed
    refine ⟨inv.cuts, inv.cacheLen, fun other still => inv.heldBelow other (mem_of_mem_erase still), cells,
      sound.dropReference, ?_, fun other below => ?_⟩
    · rw [waiting, waitingBytes]
      congr 1
      exact (wholeBytes_congr fun other _ => (modifyBlock_decRef state.cache block other).2.1).symm
    · have before := references other below
      have entries : (state.cache.modifyBlock block decRef).entriesIn cells other = state.cache.entriesIn cells other :=
        rfl
      by_cases same : other = block
      · subst same
        have counted := count_pos_iff.mpr held
        rw [(modifyBlock_decRef state.cache other other).2.2, if_pos rfl, entries, count_erase_self]
        omega
      · rw [(modifyBlock_decRef state.cache block other).2.2, if_neg same, entries, count_erase_of_ne same, before]
  · exact inv

theorem Inv.step {call : CacheCall} (careful : Careful state call) : (state.step call).Inv := by
  cases call with
  | insert dataSize => exact inv.insert careful
  | cutAndInsertAfter cutSize block outSecBlock => exact inv.cut careful
  | cutNowhere cutSize => exact inv
  | flush => exact inv.flush careful
  | drop block => exact inv.drop

end

theorem new_inv : ({} : CacheRun).Inv where
  cuts := nofun
  cacheLen := rfl
  heldBelow := nofun
  listed := ⟨[], sound_nil rfl rfl, rfl, nofun⟩

/-- In every run of careful calls the cuts hand out each byte once and in order, `cache_len_` counts the bytes that
    wait, and the references of a block are those of the output chains and of the cache. -/
theorem right_of_careful_cache_calls (run : Run CacheRun.step Careful {} state) : state.Right :=
  (run.invariant new_inv fun _ _ inv careful => inv.step careful).right

/-- The first block is cut in part, its rest is taken with the second one, and the third is flushed. -/
def threeBlocks : List CacheCall :=
  [.insert ⟨100, by decide⟩, .insert ⟨50, by decide⟩, .insert ⟨20, by decide⟩,
    .cutAndInsertAfter ⟨30, by decide⟩ 0 none,
    .cutAndInsertAfter ⟨130, by decide⟩ 1 (some 2), .drop 0, .flush]

theorem right_threeBlocks :
    (threeBlocks.foldl CacheRun.step {}).cuts.map (fun report => (report.returned, report.ranges)) =
      [(30, [⟨0, 0, 30⟩]), (120, [⟨0, 30, 100⟩, ⟨1, 0, 50⟩])] ∧
      (threeBlocks.foldl CacheRun.step {}).Right :=
  ⟨by decide +kernel, right_of_careful_cache_calls (Run.ofList (by decide +kernel))⟩

/-- Only the rest of a block is there to flush: its bytes are still counted. -/
def flushedRest : List CacheCall := [.insert ⟨100, by decide⟩, .cutAndInsertAfter ⟨30, by decide⟩ 0 none, .flush]

theorem flushedRest_not_right : Run CacheRun.step (fun _ _ => True) {} (flushedRest.foldl CacheRun.step {}) ∧
    ¬ (flushedRest.foldl CacheRun.step {}).Right := by
  refine ⟨Run.ofList (by decide +kernel), fun right => ?_⟩
  have cacheLen := right.cacheLen
  exact absurd cacheLen (by decide +kernel)

end CacheRun

end UbsComm.Urma
