import Mathlib.Data.Nat.ModEq

/-! # A ring of chunks that is taken in order and reclaimed in order

Positions count the chunks since the beginning, and a position stands for the slot that is its remainder.
What is released is marked, and the marked chunks at the front of the window are reclaimed.  `Holds` relates
the marks to the positions that are held. -/

namespace UbsComm.Library

open Function

structure ChunkRing where
  size : Nat
  reclaimed : Nat
  taken : Nat
  marked : Nat → Bool

namespace ChunkRing

def markFrom (size start : Nat) (marked : Nat → Bool) : Nat → Nat → Bool
  | 0 => marked
  | count + 1 => update (markFrom size start marked count) ((start + count) % size) true

/-- Clears the marks at the front of the window. -/
def advance (size taken : Nat) : Nat → Nat → (Nat → Bool) → Nat × (Nat → Bool)
  | 0, position, marked => (position, marked)
  | fuel + 1, position, marked =>
    if position < taken ∧ marked (position % size) = true then
      advance size taken fuel (position + 1) (update marked (position % size) false)
    else (position, marked)

variable (ring : ChunkRing)

def take (count : Nat) : ChunkRing := { ring with taken := ring.taken + count }

def release (start count : Nat) : ChunkRing :=
  let front := advance ring.size ring.taken (ring.taken - ring.reclaimed) ring.reclaimed
    (markFrom ring.size start ring.marked count)
  { ring with reclaimed := front.1, marked := front.2 }

/-- In the window the marks are those of the positions not held. -/
structure Marks (held : Nat → Prop) : Prop where
  le : ring.reclaimed ≤ ring.taken
  window : ring.taken ≤ ring.reclaimed + ring.size
  inside : ∀ position, held position → ring.reclaimed ≤ position ∧ position < ring.taken
  marks : ∀ position, ring.reclaimed ≤ position → position < ring.taken →
    (ring.marked (position % ring.size) = true ↔ ¬ held position)
  outside : ∀ position, ring.taken ≤ position → position < ring.reclaimed + ring.size →
    ring.marked (position % ring.size) = false

/-- And the front of the window is held. -/
structure Holds (held : Nat → Prop) : Prop extends Marks ring held where
  front : ring.reclaimed < ring.taken → held ring.reclaimed

variable {ring} {held : Nat → Prop} {size start count position other : Nat} {marked : Nat → Bool}

theorem slot_injective {low : Nat} (lower : low ≤ position) (upper : position < low + size) (otherLower : low ≤ other)
    (otherUpper : other < low + size) (same : position % size = other % size) : position = other := by
  refine Nat.ModEq.eq_of_abs_lt same ?_
  rw [abs_lt]
  omega

theorem markFrom_iff {slot : Nat} : markFrom size start marked count slot = true ↔
    marked slot = true ∨ ∃ i < count, slot = (start + i) % size := by
  induction count with
  | zero => simp [markFrom]
  | succ count ih =>
    rw [markFrom, update_apply]
    by_cases last : slot = (start + count) % size
    · rw [if_pos last]
      exact iff_of_true rfl (.inr ⟨count, Nat.lt_succ_self _, last⟩)
    · rw [if_neg last, ih]
      constructor
      · rintro (marked | ⟨i, lt, slotEq⟩)
        · exact .inl marked
        · exact .inr ⟨i, Nat.lt_succ_of_lt lt, slotEq⟩
      · rintro (marked | ⟨i, lt, slotEq⟩)
        · exact .inl marked
        · refine .inr ⟨i, Nat.lt_of_le_of_ne (Nat.le_of_lt_succ lt) fun same => last ?_, slotEq⟩
          rw [← same]
          exact slotEq

theorem Holds.take (holds : Holds ring held) (room : ring.taken + count ≤ ring.reclaimed + ring.size) :
    Holds (ring.take count) fun position => held position ∨ ring.taken ≤ position ∧ position < ring.taken + count := by
  have le := holds.le
  refine ⟨⟨?_, room, ?_, ?_, ?_⟩, ?_⟩
  · exact Nat.le_add_right_of_le le
  · rintro position (old | new)
    · have inside := holds.inside position old
      exact ⟨inside.1, Nat.lt_add_right _ inside.2⟩
    · exact ⟨Nat.le_trans le new.1, new.2⟩
  · intro position lower upper
    show ring.marked (position % ring.size) = true ↔ _
    by_cases old : position < ring.taken
    · rw [holds.marks position lower old, not_or]
      exact (and_iff_left (by omega)).symm
    · rw [holds.outside position (Nat.not_lt.mp old) (Nat.lt_of_lt_of_le upper room)]
      exact iff_of_false nofun (not_not.mpr (.inr ⟨Nat.not_lt.mp old, upper⟩))
  · intro position lower upper
    exact holds.outside position (Nat.le_trans (Nat.le_add_right _ _) lower) upper
  · intro nonempty
    by_cases old : ring.reclaimed < ring.taken
    · exact .inl (holds.front old)
    · exact .inr ⟨Nat.not_lt.mp old, nonempty⟩

theorem Marks.mark (marks : Marks ring held) (holdsAll : ∀ i < count, held (start + i)) :
    Marks { ring with marked := markFrom ring.size (start % ring.size) ring.marked count }
      fun position => held position ∧ ¬ (start ≤ position ∧ position < start + count) := by
  have window := marks.window
  -- the slots that are marked are those of the positions, in the window
  have slotOf : ∀ position, ring.reclaimed ≤ position → position < ring.reclaimed + ring.size →
      ((∃ i < count, position % ring.size = (start % ring.size + i) % ring.size) ↔
        start ≤ position ∧ position < start + count) := by
    intro position lower upper
    constructor
    · rintro ⟨i, lt, slot⟩
      have inside := marks.inside _ (holdsAll i lt)
      rw [Nat.mod_add_mod] at slot
      have same := slot_injective lower upper inside.1 (Nat.lt_of_lt_of_le inside.2 window) slot
      omega
    · rintro ⟨ge, lt⟩
      refine ⟨position - start, by omega, ?_⟩
      rw [Nat.mod_add_mod, Nat.add_sub_cancel' ge]
  refine ⟨marks.le, window, fun position old => marks.inside position old.1, fun position lower upper => ?_,
    fun position lower upper => ?_⟩
  · rw [markFrom_iff, marks.marks position lower upper, slotOf position lower (Nat.lt_of_lt_of_le upper window),
      not_and, not_not, ← imp_iff_not_or]
  · dsimp only at lower upper ⊢
    have notMarked : ¬ markFrom ring.size (start % ring.size) ring.marked count (position % ring.size) = true := by
      rw [markFrom_iff, slotOf position (Nat.le_trans marks.le lower) upper, marks.outside position lower upper]
      rintro (old | ⟨ge, lt⟩)
      · cases old
      · have inside := marks.inside (start + (position - start)) (holdsAll _ (by omega))
        omega
    exact Bool.eq_false_iff.mpr notMarked

/-- The front moves over marked positions up to one that is held, or to the end. -/
theorem Marks.advance : ∀ (fuel : Nat) (ring : ChunkRing), Marks ring held → ring.taken - ring.reclaimed ≤ fuel →
    Holds { ring with
      reclaimed := (ChunkRing.advance ring.size ring.taken fuel ring.reclaimed ring.marked).1
      marked := (ChunkRing.advance ring.size ring.taken fuel ring.reclaimed ring.marked).2 } held
  | 0, ring, marks, enough => ⟨marks, fun nonempty => absurd nonempty (by simp only [ChunkRing.advance]; omega)⟩
  | fuel + 1, ring, marks, enough => by
    have le := marks.le
    have window := marks.window
    rw [ChunkRing.advance]
    by_cases more : ring.reclaimed < ring.taken ∧ ring.marked (ring.reclaimed % ring.size) = true
    · rw [if_pos more]
      have free := (marks.marks ring.reclaimed (Nat.le_refl _) more.1).mp more.2
      have next : Marks { ring with
          reclaimed := ring.reclaimed + 1
          marked := update ring.marked (ring.reclaimed % ring.size) false } held := by
        have others : ∀ position, ring.reclaimed < position → position < ring.reclaimed + ring.size →
            update ring.marked (ring.reclaimed % ring.size) false (position % ring.size) =
              ring.marked (position % ring.size) := by
          intro position lower upper
          refine update_of_ne (fun same => ?_) ..
          have equal := slot_injective (Nat.le_of_lt lower) upper (Nat.le_refl _) (by omega) same
          omega
        refine ⟨more.1, by simp only; omega, fun position old => ?_, fun position lower upper => ?_,
          fun position lower upper => ?_⟩
        · have inside := marks.inside position old
          refine ⟨Nat.lt_of_le_of_ne inside.1 fun same => free ?_, inside.2⟩
          rw [same]
          exact old
        · dsimp only at lower upper ⊢
          rw [others position lower (by omega)]
          exact marks.marks position (by omega) upper
        · dsimp only at lower upper ⊢
          by_cases last : position = ring.reclaimed + ring.size
          · rw [last, Nat.add_mod_right, update_self]
          · rw [others position (by omega) (by omega)]
            exact marks.outside position lower (by omega)
      exact Marks.advance fuel _ next (by simp only; omega)
    · rw [if_neg more]
      refine ⟨marks, fun nonempty => ?_⟩
      by_contra free
      exact more ⟨nonempty, (marks.marks ring.reclaimed (Nat.le_refl _) nonempty).mpr free⟩

theorem Holds.release (holds : Holds ring held) (holdsAll : ∀ i < count, held (start + i)) :
    Holds (ring.release (start % ring.size) count)
      fun position => held position ∧ ¬ (start ≤ position ∧ position < start + count) :=
  Marks.advance _ _ (holds.toMarks.mark holdsAll) (Nat.le_refl _)

theorem Holds.empty (holds : Holds ring held) (nothing : ∀ position, ¬ held position) :
    ring.reclaimed = ring.taken := by
  by_contra ne
  exact nothing _ (holds.front (Nat.lt_of_le_of_ne holds.le ne))

theorem Holds.congr {same : Nat → Prop} (holds : Holds ring held) (iff : ∀ position, held position ↔ same position) :
    Holds ring same := by
  have equal : held = same := funext fun position => propext (iff position)
  rw [← equal]
  exact holds

end ChunkRing

end UbsComm.Library
