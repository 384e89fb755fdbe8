import UbsComm.Shm.Queue
import Mathlib.Data.List.Nodup
import Mathlib.Data.Nat.ModEq

/-! # What the queue in shared memory delivers

As long as no producer is taken for stuck, and no call sleeps between its read of a head and its
swap while `2 ^ 32` others pass, every published item is delivered once and in order. -/

namespace UbsComm.Shm

open Library List Function

variable {α : Type}

/-- The slot that a call of `Enqueue` has reserved and not published. -/
def Producer.slot : Producer α → Option Nat
  | .write _ _ slot | .swapTail _ _ slot => some slot
  | .idle | .readHead _ | .readConsTail _ _ _ | .swapHead _ _ _ => none

/-- The slot that a call of `Dequeue` has claimed and not returned. -/
def Consumer.slot : Consumer α → Option Nat
  | .compareFailed _ slot | .read _ slot | .readTail _ slot _ | .storeTail _ slot _ => some slot
  | .idle | .readHead _ | .readProdTail _ _ _ | .swapHead _ _ _ => none

/-- A call that swaps the head read it fewer than `2 ^ 32` reservations ago. -/
def Producer.Current (count : Nat) : Producer α → Prop
  | .swapHead _ _ seen => count - seen < 2 ^ 32
  | .idle | .readHead _ | .readConsTail _ _ _ | .write _ _ _ | .swapTail _ _ _ => True

instance (count : Nat) (producer : Producer α) : Decidable (producer.Current count) := by
  cases producer <;> dsimp only [Producer.Current] <;> infer_instance

def Consumer.Current (count : Nat) : Consumer α → Prop
  | .swapHead _ _ seen => count - seen < 2 ^ 32
  | .idle | .readHead _ | .readProdTail _ _ _ | .compareFailed _ _ | .read _ _ | .readTail _ _ _ | .storeTail _ _ _ =>
    True

instance (count : Nat) (consumer : Consumer α) : Decidable (consumer.Current count) := by
  cases consumer <;> dsimp only [Consumer.Current] <;> infer_instance

namespace ShmQueue

variable (queue : ShmQueue α)

/-- Every item that a `Dequeue` has returned was published in its slot, no slot is returned twice,
no published item is lost, and the slots are claimed in their order. -/
structure Delivers : Prop where
  published : ∀ entry ∈ queue.dequeued, entry ∈ queue.enqueued
  once : (queue.dequeued.map Prod.fst).Nodup
  kept : ∀ entry ∈ queue.enqueued,
    entry ∈ queue.dequeued ∨ (∃ thread, (queue.consumers thread).slot = some entry.1) ∨
      queue.claimedWords.length ≤ entry.1 ∧ queue.data (entry.1 % queue.capacity) = entry.2
  inOrder : (queue.enqueued.map Prod.fst).Pairwise (· < ·) ∧
    queue.claimedWords = (range queue.claimedWords.length).map (· % 2 ^ 32)

/-- No producer is taken for stuck, and the head that a call swaps has not run through all its
values since the call read it. -/
def Steady : QueueAction α → Prop
  | .expire => False
  | .producerStep thread => (queue.producers thread).Current queue.reservedCount
  | .consumerStep thread => (queue.consumers thread).Current queue.claimedWords.length
  | .enqueue _ _ | .producerGiveUp _ | .dequeue _ | .consumerGiveUp _ | .check | .checkerStep => True

instance (action) : Decidable (Steady queue action) := by
  cases action <;> dsimp only [Steady] <;> infer_instance

/-! ## The invariant -/

/-- What a call of `Enqueue` knows at each of its steps. -/
def ProducerOk : Producer α → Prop
  | .idle | .readHead _ => True
  | .readConsTail _ oldHead seen => oldHead = seen % 2 ^ 32 ∧ seen ≤ queue.reservedCount
  | .swapHead _ oldHead seen =>
    oldHead = seen % 2 ^ 32 ∧ seen ≤ queue.reservedCount ∧
      (seen = queue.reservedCount → seen < queue.releasedCount + queue.capacity)
  | .write _ oldHead slot =>
    oldHead = slot % 2 ^ 32 ∧ queue.publishedCount ≤ slot ∧ slot < queue.reservedCount
  | .swapTail item oldHead slot =>
    (oldHead = slot % 2 ^ 32 ∧ queue.publishedCount ≤ slot ∧ slot < queue.reservedCount) ∧
      queue.data (slot % queue.capacity) = item

/-- The slot is claimed, and the memory still holds what was published there. -/
def Claimed (oldHead slot : Nat) : Prop :=
  oldHead = slot % 2 ^ 32 ∧ queue.releasedCount ≤ slot ∧ slot < queue.claimedWords.length

/-- What a call of `Dequeue` knows at each of its steps. -/
def ConsumerOk : Consumer α → Prop
  | .idle | .readHead _ => True
  | .readProdTail _ oldHead seen => oldHead = seen % 2 ^ 32 ∧ seen ≤ queue.claimedWords.length
  | .swapHead _ oldHead seen =>
    oldHead = seen % 2 ^ 32 ∧ seen ≤ queue.claimedWords.length ∧
      (seen = queue.claimedWords.length → seen < queue.publishedCount)
  | .compareFailed oldHead slot | .read oldHead slot => queue.Claimed oldHead slot
  | .readTail oldHead slot item =>
    queue.Claimed oldHead slot ∧ ∃ value, item = some value ∧ (slot, value) ∈ queue.enqueued
  | .storeTail oldHead slot item =>
    (queue.Claimed oldHead slot ∧ ∃ value, item = some value ∧ (slot, value) ∈ queue.enqueued) ∧
      slot = queue.releasedCount

structure Sound : Prop where
  capacity : ∃ k ≤ 31, queue.capacity = 2 ^ k
  counts : queue.releasedCount ≤ queue.claimedWords.length ∧ queue.claimedWords.length ≤ queue.publishedCount ∧
    queue.publishedCount ≤ queue.reservedCount ∧ queue.reservedCount ≤ queue.releasedCount + queue.capacity
  prodWords : queue.prodHead = queue.reservedCount % 2 ^ 32 ∧ queue.prodTail = queue.publishedCount % 2 ^ 32
  consWords : queue.consHead = queue.claimedWords.length % 2 ^ 32 ∧ queue.consTail = queue.releasedCount % 2 ^ 32
  enqueued : queue.enqueued.map Prod.fst = range queue.publishedCount
  cells : ∀ entry ∈ queue.enqueued, queue.releasedCount ≤ entry.1 → queue.data (entry.1 % queue.capacity) = entry.2
  claimedWords : queue.claimedWords = (range queue.claimedWords.length).map (· % 2 ^ 32)
  producers : ∀ thread, queue.ProducerOk (queue.producers thread)
  producersApart : ∀ thread other slot, (queue.producers thread).slot = some slot →
    (queue.producers other).slot = some slot → thread = other
  consumers : ∀ thread, queue.ConsumerOk (queue.consumers thread)
  consumersApart : ∀ thread other slot, (queue.consumers thread).slot = some slot →
    (queue.consumers other).slot = some slot → thread = other
  dequeued : ∀ entry ∈ queue.dequeued, entry ∈ queue.enqueued ∧ entry.1 < queue.claimedWords.length ∧
    ∀ thread, (queue.consumers thread).slot ≠ some entry.1
  once : (queue.dequeued.map Prod.fst).Nodup
  held : ∀ slot < queue.claimedWords.length,
    slot ∈ queue.dequeued.map Prod.fst ∨ ∃ thread, (queue.consumers thread).slot = some slot
  notStuck : queue.failedProd = noIndex ∧ queue.checker ≠ .loadTail ∧ ∀ tail, queue.checker ≠ .storeTail tail

/-! ## Words and places -/

variable {queue next : ShmQueue α} {thread : Nat} {producer : Producer α} {consumer : Consumer α}

theorem word_inj {low high : Nat} (same : low % 2 ^ 32 = high % 2 ^ 32) (le : low ≤ high) (near : high - low < 2 ^ 32) :
    low = high := by
  omega

theorem Sound.capacity_le (sound : Sound queue) : 0 < queue.capacity ∧ queue.capacity ≤ 2 ^ 31 := by
  obtain ⟨k, small, isPower⟩ := sound.capacity
  rw [isPower]
  exact ⟨Nat.two_pow_pos k, Nat.pow_le_pow_right (by decide) small⟩

theorem Sound.place (sound : Sound queue) {slot : Nat} : queue.place (slot % 2 ^ 32) = slot % queue.capacity := by
  obtain ⟨k, small, isPower⟩ := sound.capacity
  rw [ShmQueue.place, isPower, Nat.and_two_pow_sub_one_eq_mod]
  exact Nat.mod_mod_of_dvd slot (Nat.pow_dvd_pow 2 (by omega))

theorem place_ne {capacity slot other : Nat} (less : slot < other) (near : other < slot + capacity) :
    slot % capacity ≠ other % capacity := by
  intro same
  refine less.ne (Nat.ModEq.eq_of_abs_lt same ?_)
  rw [abs_lt]
  omega

section

variable (sound : Sound queue)
include sound

/-- A write to a slot that is not published leaves the other slots of the turn. -/
theorem Sound.update_place {slot other : Nat} {item : α}
    (reserved : queue.releasedCount ≤ slot ∧ slot < queue.reservedCount)
    (inside : queue.releasedCount ≤ other ∧ other < queue.reservedCount) (ne : other ≠ slot) :
    update queue.data (slot % queue.capacity) item (other % queue.capacity) = queue.data (other % queue.capacity) := by
  have window := sound.counts
  apply update_of_ne
  rcases Nat.lt_or_gt_of_ne ne with less | greater
  · exact place_ne less (by omega)
  · exact (place_ne greater (by omega)).symm

theorem Sound.slot_lt {entry : Nat × α} (mem : entry ∈ queue.enqueued) : entry.1 < queue.publishedCount := by
  have : entry.1 ∈ queue.enqueued.map Prod.fst := mem_map_of_mem mem
  rw [sound.enqueued] at this
  exact mem_range.mp this

variable {slot : Nat}

theorem Sound.exists_entry (published : slot < queue.publishedCount) : ∃ value, (slot, value) ∈ queue.enqueued := by
  have : slot ∈ queue.enqueued.map Prod.fst := by
    rw [sound.enqueued]
    exact mem_range.mpr published
  obtain ⟨⟨_, value⟩, mem, rfl⟩ := mem_map.mp this
  exact ⟨value, mem⟩

theorem Sound.entry_unique {value value' : α} (mem : (slot, value) ∈ queue.enqueued)
    (mem' : (slot, value') ∈ queue.enqueued) : value = value' := by
  have nodup : (queue.enqueued.map Prod.fst).Nodup := sound.enqueued ▸ nodup_range
  have same := inj_on_of_nodup_map nodup mem mem' rfl
  exact congrArg Prod.snd same

theorem Sound.delivers : Delivers queue := by
  refine ⟨fun entry mem => (sound.dequeued entry mem).1, sound.once, ?_, ?_, sound.claimedWords⟩
  · rintro ⟨slot, value⟩ mem
    rcases Nat.lt_or_ge slot queue.claimedWords.length with claimed | waiting
    · rcases sound.held slot claimed with returned | holding
      · obtain ⟨⟨_, value'⟩, mem', rfl⟩ := mem_map.mp returned
        rw [sound.entry_unique mem (sound.dequeued _ mem').1]
        exact .inl mem'
      · exact .inr (.inl holding)
    · exact .inr (.inr ⟨waiting, sound.cells _ mem (sound.counts.1.trans waiting)⟩)
  · rw [sound.enqueued]
    exact pairwise_lt_range

end

theorem sound_initial {capacity k : Nat} (isPower : capacity = 2 ^ k) (small : k ≤ 31) {data : Nat → α} :
    Sound (initial capacity data) where
  capacity := ⟨k, small, isPower⟩
  counts := ⟨Nat.le_refl _, Nat.le_refl _, Nat.le_refl _, Nat.zero_le _⟩
  prodWords := ⟨rfl, rfl⟩
  consWords := ⟨rfl, rfl⟩
  enqueued := rfl
  cells := fun _ mem => absurd mem not_mem_nil
  claimedWords := rfl
  producers := fun _ => trivial
  producersApart := fun _ _ _ none => nomatch none
  consumers := fun _ => trivial
  consumersApart := fun _ _ _ none => nomatch none
  dequeued := fun _ mem => absurd mem not_mem_nil
  once := nodup_nil
  held := fun _ none => absurd none (Nat.not_lt_zero _)
  notStuck := ⟨rfl, nofun, nofun⟩

theorem ProducerOk.slot {slot : Nat} (ok : queue.ProducerOk producer)
    (holds : producer.slot = some slot) : queue.publishedCount ≤ slot ∧ slot < queue.reservedCount := by
  cases producer with
  | idle | readHead _ | readConsTail _ _ _ | swapHead _ _ _ => cases holds
  | write _ _ _ =>
    cases holds
    exact ok.2
  | swapTail _ _ _ =>
    cases holds
    exact ok.1.2

theorem ConsumerOk.slot {slot : Nat} (ok : queue.ConsumerOk consumer)
    (holds : consumer.slot = some slot) : slot < queue.claimedWords.length := by
  cases consumer with
  | idle | readHead _ | readProdTail _ _ _ | swapHead _ _ _ => cases holds
  | compareFailed _ _ | read _ _ =>
    cases holds
    exact ok.2.2
  | readTail _ _ _ =>
    cases holds
    exact ok.1.2.2
  | storeTail _ _ _ =>
    cases holds
    exact ok.1.1.2.2

/-- What a call of `Enqueue` knows stays true when slots are reserved and released, as long as its own slot is. -/
theorem ProducerOk.mono (ok : queue.ProducerOk producer)
    (capacity : next.capacity = queue.capacity) (reserved : queue.reservedCount ≤ next.reservedCount)
    (released : queue.releasedCount ≤ next.releasedCount)
    (own : ∀ slot, producer.slot = some slot → queue.publishedCount ≤ slot ∧ slot < queue.reservedCount →
      next.publishedCount ≤ slot ∧ next.data (slot % next.capacity) = queue.data (slot % queue.capacity)) :
    next.ProducerOk producer := by
  cases producer with
  | idle | readHead _ => trivial
  | readConsTail _ _ _ => exact ⟨ok.1, ok.2.trans reserved⟩
  | swapHead _ _ seen =>
    obtain ⟨word, before, room⟩ := ok
    refine ⟨word, before.trans reserved, fun same => ?_⟩
    omega
  | write _ _ slot => exact ⟨ok.1, (own slot rfl ok.2).1, ok.2.2.trans_le reserved⟩
  | swapTail _ _ slot =>
    obtain ⟨unpublished, data⟩ := own slot rfl ok.1.2
    exact ⟨⟨ok.1.1, unpublished, ok.1.2.2.trans_le reserved⟩, data.trans ok.2⟩

/-- What a call of `Dequeue` knows stays true when more is claimed and published, as long as its own slot is. -/
theorem ConsumerOk.mono (ok : queue.ConsumerOk consumer)
    (claimed : queue.claimedWords.length ≤ next.claimedWords.length)
    (published : queue.publishedCount ≤ next.publishedCount)
    (enqueued : ∀ entry ∈ queue.enqueued, entry ∈ next.enqueued)
    (own : ∀ slot, consumer.slot = some slot → queue.releasedCount ≤ slot →
      next.releasedCount ≤ slot ∧ (slot = queue.releasedCount → slot = next.releasedCount)) :
    next.ConsumerOk consumer := by
  have holds : ∀ {oldHead slot}, consumer.slot = some slot → queue.Claimed oldHead slot → next.Claimed oldHead slot :=
    fun mine held => ⟨held.1, (own _ mine held.2.1).1, held.2.2.trans_le claimed⟩
  cases consumer with
  | idle | readHead _ => trivial
  | readProdTail _ _ _ => exact ⟨ok.1, ok.2.trans claimed⟩
  | swapHead _ _ seen =>
    obtain ⟨word, before, some⟩ := ok
    exact ⟨word, before.trans claimed, fun same => (some (by omega)).trans_le published⟩
  | compareFailed _ _ | read _ _ => exact holds rfl ok
  | readTail _ _ _ =>
    obtain ⟨held, value, isValue, mem⟩ := ok
    exact ⟨holds rfl held, value, isValue, enqueued _ mem⟩
  | storeTail _ slot _ =>
    obtain ⟨⟨held, value, isValue, mem⟩, first⟩ := ok
    exact ⟨⟨holds rfl held, value, isValue, enqueued _ mem⟩, (own slot rfl held.2.1).2 first⟩

/-! ## Steps that touch no shared memory -/

/-- Threads still hold different slots when one of them changes to a slot no other holds. -/
theorem apart_update {β : Type} {slotOf : β → Option Nat} {calls : Nat → β} {call : β}
    (apart : ∀ thread other slot, slotOf (calls thread) = some slot → slotOf (calls other) = some slot → thread = other)
    (fresh : ∀ slot other, slotOf call = some slot → other ≠ thread → slotOf (calls other) ≠ some slot) :
    ∀ first second slot, slotOf (update calls thread call first) = some slot →
      slotOf (update calls thread call second) = some slot → first = second := by
  intro first second slot atFirst atSecond
  by_cases isFirst : first = thread <;> by_cases isSecond : second = thread
  · rw [isFirst, isSecond]
  · rw [isFirst, update_self] at atFirst
    rw [update_of_ne isSecond] at atSecond
    exact absurd atSecond (fresh slot second atFirst isSecond)
  · rw [isSecond, update_self] at atSecond
    rw [update_of_ne isFirst] at atFirst
    exact absurd atFirst (fresh slot first atSecond isFirst)
  · rw [update_of_ne isFirst] at atFirst
    rw [update_of_ne isSecond] at atSecond
    exact apart first second slot atFirst atSecond

section

variable (sound : Sound queue) {item : α} {oldHead slot : Nat}
include sound

theorem Sound.setProducer (ok : queue.ProducerOk producer)
    (same : ∀ slot, producer.slot = some slot → (queue.producers thread).slot = some slot) :
    Sound (queue.setProducer thread producer) :=
  { sound with
    producers := forall_update_iff _ (p := fun _ => queue.ProducerOk) |>.mpr
      ⟨ok, fun other _ => sound.producers other⟩
    producersApart := apart_update sound.producersApart fun slot other holds ne holdsToo =>
      ne (sound.producersApart other thread slot holdsToo (same slot holds)) }

theorem Sound.setConsumer (ok : queue.ConsumerOk consumer)
    (same : consumer.slot = (queue.consumers thread).slot) : Sound (queue.setConsumer thread consumer) := by
  have slots : ∀ other, ((queue.setConsumer thread consumer).consumers other).slot = (queue.consumers other).slot := by
    intro other
    show (update queue.consumers thread consumer other).slot = _
    by_cases isThread : other = thread
    · rw [isThread, ← same, update_self]
    · rw [update_of_ne isThread]
  exact
    { sound with
      consumers := forall_update_iff _ (p := fun _ => queue.ConsumerOk) |>.mpr
        ⟨ok, fun other _ => sound.consumers other⟩
      consumersApart := fun first second slot holds holdsToo => by
        rw [slots] at holds holdsToo
        exact sound.consumersApart first second slot holds holdsToo
      dequeued := fun entry mem => by
        simp only [slots]
        exact sound.dequeued entry mem
      held := fun slot claimed => by
        simp only [slots]
        exact sound.held slot claimed }

/-! ## The steps of a producer -/

theorem Sound.reserve (word : oldHead = queue.reservedCount % 2 ^ 32)
    (room : queue.reservedCount < queue.releasedCount + queue.capacity) :
    Sound (queue.reserve thread item oldHead) := by
  have window := sound.counts
  exact
    { sound with
      counts := ⟨window.1, window.2.1, Nat.le_succ_of_le window.2.2.1, room⟩
      prodWords := ⟨by rw [ShmQueue.reserve, nextIndex, word, Nat.mod_add_mod], sound.prodWords.2⟩
      producers := forall_update_iff _ (p := fun _ => (queue.reserve thread item oldHead).ProducerOk) |>.mpr
        ⟨⟨word, window.2.2.1, Nat.lt_succ_self _⟩, fun other _ =>
          (sound.producers other).mono rfl (Nat.le_succ _) (Nat.le_refl _) fun _ _ mine => ⟨mine.1, rfl⟩⟩
      producersApart := apart_update sound.producersApart fun slot other holds _ holdsToo => by
        cases holds
        exact Nat.lt_irrefl _ ((sound.producers other).slot holdsToo).2 }

theorem Sound.writeItem
    (call : queue.producers thread = .write item oldHead slot) : Sound (queue.writeItem thread item oldHead slot) := by
  have window := sound.counts
  have ok := sound.producers thread
  rw [call] at ok
  obtain ⟨word, unpublished, reserved⟩ := ok
  have place : queue.place oldHead = slot % queue.capacity := word ▸ sound.place
  have inside : queue.releasedCount ≤ slot ∧ slot < queue.reservedCount := ⟨by omega, reserved⟩
  have stored : update queue.data (queue.place oldHead) item (slot % queue.capacity) = item := by
    rw [place, update_self]
  exact
    { sound with
      cells := fun entry mem unreleased => by
        have published := sound.slot_lt mem
        show update queue.data (queue.place oldHead) item (entry.1 % queue.capacity) = entry.2
        rw [place, sound.update_place inside ⟨unreleased, by omega⟩ (by omega)]
        exact sound.cells entry mem unreleased
      producers := forall_update_iff _ (p := fun _ => (queue.writeItem thread item oldHead slot).ProducerOk) |>.mpr
        ⟨⟨⟨word, unpublished, reserved⟩, stored⟩, fun other ne => by
          refine (sound.producers other).mono rfl (Nat.le_refl _) (Nat.le_refl _)
            fun otherSlot holds mine => ⟨mine.1, ?_⟩
          have different : otherSlot ≠ slot := fun same =>
            ne (sound.producersApart other thread slot (same ▸ holds) (by rw [call]; rfl))
          show update queue.data (queue.place oldHead) item (otherSlot % queue.capacity) = _
          rw [place, sound.update_place inside ⟨by omega, mine.2⟩ different]⟩
      producersApart := apart_update sound.producersApart fun other thread' holds ne holdsToo => by
        apply ne
        exact sound.producersApart thread' thread other holdsToo (by rw [call]; exact holds) }

theorem Sound.publish (call : queue.producers thread = .swapTail item oldHead slot) (tail : queue.prodTail = oldHead) :
    Sound (queue.publish thread item oldHead slot) := by
  have window := sound.counts
  have small := sound.capacity_le
  have ok := sound.producers thread
  rw [call] at ok
  obtain ⟨⟨word, unpublished, reserved⟩, stored⟩ := ok
  have isNext : queue.publishedCount = slot := by
    apply word_inj _ unpublished (by omega)
    rw [← sound.prodWords.2, tail, word]
  subst isNext
  exact
    { sound with
      counts := ⟨window.1, Nat.le_succ_of_le window.2.1, reserved, window.2.2.2⟩
      prodWords := ⟨sound.prodWords.1, by rw [ShmQueue.publish, nextIndex, word, Nat.mod_add_mod]⟩
      enqueued := by
        rw [ShmQueue.publish, map_append, sound.enqueued, range_succ]
        rfl
      cells := forall_mem_append.mpr ⟨sound.cells, forall_mem_singleton.mpr fun _ => stored⟩
      producers := forall_update_iff _
          (p := fun _ => (queue.publish thread item oldHead queue.publishedCount).ProducerOk) |>.mpr
        ⟨trivial, fun other ne => by
          refine (sound.producers other).mono rfl (Nat.le_refl _) (Nat.le_refl _) fun otherSlot holds mine => ⟨?_, rfl⟩
          refine Nat.lt_of_le_of_ne mine.1 fun same => ne ?_
          exact sound.producersApart other thread otherSlot holds (by rw [call, ← same]; rfl)⟩
      producersApart := apart_update sound.producersApart fun _ _ none => nomatch none
      consumers :=
        fun other => (sound.consumers other).mono (Nat.le_refl _) (Nat.le_succ _) (fun _ => mem_append_left _)
        fun _ _ unreleased => ⟨unreleased, id⟩
      dequeued := fun entry mem =>
        have old := sound.dequeued entry mem
        ⟨mem_append_left _ old.1, old.2⟩ }

theorem Sound.producerStep (steady : Steady queue (.producerStep thread)) : Sound (queue.producerStep thread) := by
  have window := sound.counts
  have ok := sound.producers thread
  unfold ShmQueue.producerStep
  cases call : queue.producers thread with
  | idle => exact sound
  | readHead item => exact sound.setProducer ⟨sound.prodWords.1, Nat.le_refl _⟩ nofun
  | readConsTail item oldHead seen =>
    rw [call] at ok
    dsimp only
    split
    · exact sound.setProducer trivial nofun
    next free =>
      refine sound.setProducer ⟨ok.1, ok.2, fun current => ?_⟩ nofun
      -- no one has reserved since the head was read, so the difference has not wrapped
      rw [ok.1, sound.consWords.2] at free
      omega
  | swapHead item oldHead seen =>
    rw [call] at ok
    dsimp only
    split
    next same =>
      rw [Steady, call] at steady
      have current : seen = queue.reservedCount := by
        apply word_inj _ ok.2.1 steady
        rw [← ok.1, ← sound.prodWords.1, same]
      exact sound.reserve (current ▸ ok.1) (current ▸ ok.2.2 current)
    · exact sound.setProducer trivial nofun
  | write item oldHead slot => exact sound.writeItem call
  | swapTail item oldHead slot =>
    exact guarded sound fun same => sound.publish call same

theorem Sound.producerGiveUp : Sound (queue.producerGiveUp thread) := by
  unfold ShmQueue.producerGiveUp
  split
  · exact sound.setProducer trivial nofun
  · exact sound

/-! ## The steps of a consumer -/

theorem Sound.claim {again : Bool} (idle : (queue.consumers thread).slot = none)
    (word : oldHead = queue.claimedWords.length % 2 ^ 32)
    (published : queue.claimedWords.length < queue.publishedCount) :
    Sound (queue.claim thread again oldHead) := by
  have window := sound.counts
  have length : (queue.claimedWords ++ [oldHead]).length = queue.claimedWords.length + 1 := by simp
  have slot : (if again then Consumer.read oldHead queue.claimedWords.length
      else .compareFailed oldHead queue.claimedWords.length : Consumer α).slot = some queue.claimedWords.length := by
    cases again <;> rfl
  have new : (queue.claim thread again oldHead).ConsumerOk
      (if again then .read oldHead queue.claimedWords.length
        else .compareFailed oldHead queue.claimedWords.length) := by
    have claimed : (queue.claim thread again oldHead).Claimed oldHead queue.claimedWords.length :=
      ⟨word, window.1, by rw [ShmQueue.claim, length]; exact Nat.lt_succ_self _⟩
    cases again <;> exact claimed
  exact
    { sound with
      counts := by
        rw [ShmQueue.claim, length]
        exact ⟨Nat.le_succ_of_le window.1, published, window.2.2⟩
      consWords := by
        rw [ShmQueue.claim, length, nextIndex, word, Nat.mod_add_mod]
        exact ⟨rfl, sound.consWords.2⟩
      claimedWords := by
        rw [ShmQueue.claim, length, range_succ, map_append, ← sound.claimedWords, map_singleton, word]
      consumers := forall_update_iff _ (p := fun _ => (queue.claim thread again oldHead).ConsumerOk) |>.mpr
        ⟨new, fun other _ => (sound.consumers other).mono (by rw [ShmQueue.claim, length]; exact Nat.le_succ _)
          (Nat.le_refl _) (fun _ => id) fun _ _ unreleased => ⟨unreleased, id⟩⟩
      consumersApart := apart_update sound.consumersApart fun slot' other holds _ holdsToo => by
        rw [slot] at holds
        cases holds
        exact Nat.lt_irrefl _ ((sound.consumers other).slot holdsToo)
      dequeued := fun entry mem => by
        obtain ⟨isEnqueued, claimed, free⟩ := sound.dequeued entry mem
        refine ⟨isEnqueued, by rw [ShmQueue.claim, length]; exact Nat.lt_succ_of_lt claimed, fun other holds => ?_⟩
        rw [ShmQueue.claim] at holds
        by_cases isThread : other = thread
        · simp only [isThread, update_self, slot, Option.some.injEq] at holds
          omega
        · simp only [update_of_ne isThread] at holds
          exact free other holds
      held := fun slot' claimed => by
        simp only [ShmQueue.claim] at claimed ⊢
        by_cases isNew : slot' = queue.claimedWords.length
        · exact .inr ⟨thread, by rw [update_self, slot, isNew]⟩
        · refine (sound.held slot' (by omega)).imp id fun ⟨other, holds⟩ => ⟨other, ?_⟩
          have ne : other ≠ thread := fun same => by
            rw [same, idle] at holds
            exact nomatch holds
          rw [update_of_ne ne]
          exact holds }

omit sound in
theorem slot_of_idle {consumers : Nat → Consumer α} {other : Nat}
    (holds : (update consumers thread .idle other).slot = some slot) :
    other ≠ thread ∧ (consumers other).slot = some slot := by
  by_cases isThread : other = thread
  · rw [isThread, update_self] at holds
    cases holds
  · rw [update_of_ne isThread] at holds
    exact ⟨isThread, holds⟩

/-- A call of `Dequeue` returns its item, with the tail as it is. -/
theorem Sound.finish (holds : (queue.consumers thread).slot = some slot)
    (mem : (slot, item) ∈ queue.enqueued) : Sound (queue.afterConsTail thread slot (some item)) := by
  have notReturned : slot ∉ queue.dequeued.map Prod.fst := by
    rintro returned
    obtain ⟨entry, isDequeued, rfl⟩ := mem_map.mp returned
    exact (sound.dequeued entry isDequeued).2.2 thread holds
  exact
    { sound with
      consumers := forall_update_iff _ (p := fun _ => (queue.afterConsTail thread slot (some item)).ConsumerOk) |>.mpr
        ⟨trivial, fun other _ => (sound.consumers other).mono (Nat.le_refl _) (Nat.le_refl _) (fun _ => id)
          fun _ _ unreleased => ⟨unreleased, id⟩⟩
      consumersApart := apart_update sound.consumersApart fun _ _ none => nomatch none
      dequeued := by
        refine forall_mem_append.mpr ⟨fun entry old => ?_, forall_mem_singleton.mpr ?_⟩
        · obtain ⟨isEnqueued, claimed, free⟩ := sound.dequeued entry old
          exact ⟨isEnqueued, claimed, fun other holdsToo => free other (slot_of_idle holdsToo).2⟩
        · refine ⟨mem, (sound.consumers thread).slot holds, fun other holdsToo => ?_⟩
          obtain ⟨ne, holdsToo⟩ := slot_of_idle holdsToo
          exact ne (sound.consumersApart other thread slot holdsToo holds)
      once := by
        rw [ShmQueue.afterConsTail, map_append]
        exact sound.once.append (nodup_singleton _) (by simpa using notReturned)
      held := fun slot' claimed => by
        simp only [ShmQueue.afterConsTail, map_append, map_singleton, mem_append, mem_singleton]
        rcases sound.held slot' claimed with returned | ⟨other, holdsToo⟩
        · exact .inl (.inl returned)
        · by_cases isThread : other = thread
          · rw [isThread, holds] at holdsToo
            cases holdsToo
            exact .inl (.inr rfl)
          · exact .inr ⟨other, by rw [update_of_ne isThread]; exact holdsToo⟩ }

theorem Sound.release (word : oldHead = queue.releasedCount % 2 ^ 32)
    (claimed : queue.releasedCount < queue.claimedWords.length)
    (free : ∀ other, (queue.consumers other).slot ≠ some queue.releasedCount) : Sound (queue.release oldHead) := by
  have window := sound.counts
  exact
    { sound with
      counts := ⟨claimed, window.2.1, window.2.2.1, by simp only [ShmQueue.release]; omega⟩
      consWords := ⟨sound.consWords.1, by rw [ShmQueue.release, nextIndex, word, Nat.mod_add_mod]⟩
      cells := fun entry mem unreleased => sound.cells entry mem (Nat.le_of_succ_le unreleased)
      producers := fun other =>
        (sound.producers other).mono rfl (Nat.le_refl _) (Nat.le_succ _) fun _ _ mine => ⟨mine.1, rfl⟩
      consumers := fun other => by
        refine (sound.consumers other).mono (Nat.le_refl _) (Nat.le_refl _) (fun _ => id)
          fun slot holds unreleased => ?_
        have ne : slot ≠ queue.releasedCount := fun same => free other (same ▸ holds)
        exact ⟨Nat.lt_of_le_of_ne unreleased ne.symm, fun same => absurd same ne⟩ }

theorem Sound.consumerStep (steady : Steady queue (.consumerStep thread)) : Sound (queue.consumerStep thread) := by
  have window := sound.counts
  have small := sound.capacity_le
  have ok := sound.consumers thread
  unfold ShmQueue.consumerStep
  cases call : queue.consumers thread with
  | idle => exact sound
  | readHead again => exact sound.setConsumer ⟨sound.consWords.1, Nat.le_refl _⟩ (by rw [call]; rfl)
  | readProdTail again oldHead seen =>
    rw [call] at ok
    dsimp only
    split
    · exact sound.setConsumer trivial (by rw [call]; rfl)
    next some =>
      refine sound.setConsumer ⟨ok.1, ok.2, fun current => ?_⟩ (by rw [call]; rfl)
      rw [ok.1, sound.prodWords.2] at some
      omega
  | swapHead again oldHead seen =>
    rw [call] at ok
    dsimp only
    split
    next same =>
      rw [Steady, call] at steady
      have current : seen = queue.claimedWords.length := by
        apply word_inj _ ok.2.1 steady
        rw [← ok.1, ← sound.consWords.1, same]
      exact sound.claim (by rw [call]; rfl) (current ▸ ok.1) (current ▸ ok.2.2 current)
    · exact sound.setConsumer trivial (by rw [call]; rfl)
  | compareFailed oldHead slot =>
    rw [call] at ok
    -- no producer was taken for stuck, and an index of 32 bits is not `UINT64_MAX`
    have ne : oldHead ≠ queue.failedProd := by
      rw [sound.notStuck.1, ok.1, noIndex]
      omega
    dsimp only
    rw [if_neg ne]
    exact sound.setConsumer ok (by rw [call]; rfl)
  | read oldHead slot =>
    rw [call] at ok
    obtain ⟨value, mem⟩ := sound.exists_entry (ok.2.2.trans_le window.2.1)
    have isValue : queue.data (queue.place oldHead) = value := by
      rw [ok.1, sound.place]
      exact sound.cells _ mem ok.2.1
    exact sound.setConsumer ⟨ok, value, by rw [isValue], mem⟩ (by rw [call]; rfl)
  | readTail oldHead slot item =>
    rw [call] at ok
    refine guarded sound fun same => ?_
    refine sound.setConsumer ⟨ok, ?_⟩ (by rw [call]; rfl)
    apply (word_inj _ ok.1.2.1 _).symm
    · rw [← sound.consWords.2, same, ok.1.1]
    · have : slot < queue.claimedWords.length := ok.1.2.2
      omega
  | storeTail oldHead slot item =>
    rw [call] at ok
    obtain ⟨⟨claimed, value, rfl, mem⟩, first⟩ := ok
    have holds : (queue.consumers thread).slot = some slot := by rw [call]; rfl
    have finished := sound.finish holds mem
    apply finished.release (first ▸ claimed.1) (first ▸ claimed.2.2)
    intro other holdsToo
    obtain ⟨ne, holdsToo⟩ := slot_of_idle holdsToo
    exact ne (sound.consumersApart other thread slot (first ▸ holdsToo) holds)

theorem Sound.consumerGiveUp : Sound (queue.consumerGiveUp thread) := by
  have ok := sound.consumers thread
  unfold ShmQueue.consumerGiveUp
  split
  next call =>
    rw [call] at ok
    obtain ⟨_, value, rfl, mem⟩ := ok
    exact sound.finish (by rw [call]; rfl) mem
  · exact sound

/-! ## Whole runs -/

theorem Sound.checkerStep : Sound queue.checkerStep := by
  unfold ShmQueue.checkerStep
  have notStuck := sound.notStuck
  cases call : queue.checker with
  | idle => exact sound
  | readTail | compareTail =>
    dsimp only
    split <;> exact { sound with notStuck := ⟨notStuck.1, nofun, nofun⟩ }
  | recordTail | compareTime => exact { sound with notStuck := ⟨notStuck.1, nofun, nofun⟩ }
  | loadTail => exact absurd call notStuck.2.1
  | storeTail tail => exact absurd call (notStuck.2.2 tail)

end

variable [DecidableEq α]

theorem Sound.step (sound : Sound queue) {action : QueueAction α} (steady : Steady queue action) :
    Sound (queue.step action) := by
  cases action with
  | enqueue thread item =>
    exact guarded sound fun _ => sound.setProducer trivial nofun
  | producerStep thread => exact sound.producerStep steady
  | producerGiveUp thread => exact sound.producerGiveUp
  | dequeue thread =>
    exact guarded sound fun call => sound.setConsumer trivial (by rw [call]; rfl)
  | consumerStep thread => exact sound.consumerStep steady
  | consumerGiveUp thread => exact sound.consumerGiveUp
  | check =>
    exact guarded sound fun _ => { sound with notStuck := ⟨sound.notStuck.1, nofun, nofun⟩ }
  | checkerStep => exact sound.checkerStep
  | expire => exact steady.elim

/-- In every state of every steady run the queue has delivered each published item at most
once, in order, and lost none. -/
theorem delivers_of_steady (capacity k : Nat) (isPower : capacity = 2 ^ k) (small : k ≤ 31) (data : Nat → α)
    (finish : ShmQueue α) (run : Run ShmQueue.step Steady (initial capacity data) finish) : Delivers finish :=
  (run.invariant (sound_initial isPower small) fun _ _ sound steady => sound.step steady).delivers

/-- Two producers, then two consumers, take turns on a queue of two places.  The thread whose swap
comes second starts over. -/
def inTurns : List (QueueAction Nat) :=
  [.enqueue 0 7, .enqueue 1 8] ++ (replicate 10 [.producerStep 0, .producerStep 1]).flatten ++
    [.dequeue 0, .dequeue 1] ++ (replicate 14 [.consumerStep 1, .consumerStep 0]).flatten

theorem delivers_inTurns :
    (inTurns.foldl ShmQueue.step (initial 2 fun _ => 0)).dequeued = [(0, 7), (1, 8)] ∧
      Delivers (inTurns.foldl ShmQueue.step (initial 2 fun _ => 0)) :=
  ⟨by decide +kernel, delivers_of_steady 2 1 rfl (by decide) _ _ (.ofList (by decide +kernel))⟩

/-- Two producers reserve a slot and stop before they have written anything.  Both are skipped in
turn, and only the second is remembered when a consumer comes to the first. -/
def twoStuck : List (QueueAction Nat) :=
  [.enqueue 0 7, .producerStep 0, .producerStep 0, .producerStep 0, .enqueue 1 8, .producerStep 1, .producerStep 1,
    .producerStep 1, .check, .checkerStep, .checkerStep, .checkerStep, .check, .checkerStep, .checkerStep, .expire,
    .checkerStep, .checkerStep, .check, .checkerStep, .checkerStep, .checkerStep, .check, .checkerStep, .checkerStep,
    .expire, .checkerStep, .checkerStep, .dequeue 0, .consumerStep 0, .consumerStep 0, .consumerStep 0, .consumerStep 0,
    .consumerStep 0, .consumerStep 0, .consumerStep 0]

/-- A `Dequeue` has returned OK with the contents of a slot that no one has written. -/
theorem twoStuck_not_delivers :
    (twoStuck.foldl ShmQueue.step (initial 2 fun _ => 0)).enqueued = [] ∧
      (twoStuck.foldl ShmQueue.step (initial 2 fun _ => 0)).dequeued = [(0, 0)] ∧
      ¬ Delivers (twoStuck.foldl ShmQueue.step (initial 2 fun _ => 0)) := by
  have enqueued : (twoStuck.foldl ShmQueue.step (initial 2 fun _ => 0)).enqueued = [] := by decide
  have dequeued : (twoStuck.foldl ShmQueue.step (initial 2 fun _ => 0)).dequeued = [(0, 0)] := by decide
  refine ⟨enqueued, dequeued, fun delivers => ?_⟩
  have := delivers.published (0, 0) (dequeued ▸ mem_singleton_self _)
  exact not_mem_nil this

end ShmQueue

end UbsComm.Shm
