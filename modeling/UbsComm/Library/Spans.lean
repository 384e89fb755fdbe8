import Mathlib.Data.List.Basic

/-! # Spans of addresses laid one behind the other -/

namespace UbsComm.Library

open List

/-- The addresses from `start` on, `len` of them. -/
structure Span where
  start : Nat
  len : Nat
  deriving DecidableEq

def Span.stop (span : Span) : Nat := span.start + span.len

def Span.Apart (a b : Span) : Prop := a.stop ≤ b.start ∨ b.stop ≤ a.start

instance (a b : Span) : Decidable (a.Apart b) := inferInstanceAs (Decidable (_ ∨ _))

theorem Span.Apart.symm {a b : Span} (apart : a.Apart b) : b.Apart a := Or.symm apart

def Covered (spans : List Span) (address : Nat) : Prop := ∃ span ∈ spans, span.start ≤ address ∧ address < span.stop

variable {address : Nat} {spans : List Span}

theorem covered_cons {span : Span} :
    Covered (span :: spans) address ↔ (span.start ≤ address ∧ address < span.stop) ∨ Covered spans address :=
  exists_mem_cons_iff ..

theorem covered_append {more : List Span} :
    Covered (spans ++ more) address ↔ Covered spans address ∨ Covered more address := by
  simp only [Covered, mem_append, or_and_right, exists_or]

/-- The spans follow each other, in this order, between `low` and `high`. -/
inductive Stacked : Nat → List Span → Nat → Prop where
  | nil {low high : Nat} : low ≤ high → Stacked low [] high
  | cons {low high : Nat} {span : Span} {rest : List Span} :
      low ≤ span.start → Stacked span.stop rest high → Stacked low (span :: rest) high

namespace Stacked

variable {α : Type} {low middle high : Nat} {spans more : List Span} {span : Span}

section

variable (stacked : Stacked low spans high)
include stacked

theorem le : low ≤ high := by
  induction stacked with
  | nil le => exact le
  | @cons low high span rest le _ ih =>
    rw [Span.stop] at ih
    omega

theorem bounds (mem : span ∈ spans) : low ≤ span.start ∧ span.stop ≤ high := by
  induction stacked with
  | nil => cases mem
  | @cons low high first rest le behind ih =>
    cases mem with
    | head => exact ⟨le, behind.le⟩
    | tail _ mem =>
      have bound := ih mem
      rw [Span.stop] at bound
      exact ⟨by omega, bound.2⟩

theorem pairwise : spans.Pairwise Span.Apart := by
  induction stacked with
  | nil => exact .nil
  | @cons low high first rest le behind ih =>
    apply List.Pairwise.cons _ ih
    intro span mem
    exact Or.inl (behind.bounds mem).1

end

theorem weaken_low {low' : Nat} (le : low' ≤ low) (stacked : Stacked low spans high) : Stacked low' spans high := by
  cases stacked with
  | nil bound => exact .nil (Nat.le_trans le bound)
  | cons bound behind => exact .cons (Nat.le_trans le bound) behind

theorem single (above : low ≤ span.start) (below : span.stop ≤ high) : Stacked low [span] high :=
  .cons above (.nil below)

theorem append (first : Stacked low spans middle) (second : Stacked middle more high) :
    Stacked low (spans ++ more) high := by
  induction first with
  | nil le => exact second.weaken_low le
  | cons le _ ih => exact .cons le (ih second)

/-- Each span may be cut into spans of its own. -/
theorem flatMap {items : List α} {outer : α → Span} {inner : α → List Span}
    (stacked : Stacked low (items.map outer) high)
    (cut : ∀ item ∈ items, Stacked (outer item).start (inner item) (outer item).stop) :
    Stacked low (items.flatMap inner) high := by
  induction items generalizing low with
  | nil => exact stacked
  | cons item rest ih =>
    cases stacked with
    | cons le behind =>
      apply append ((cut item mem_cons_self).weaken_low le)
      exact ih behind fun item mem => cut item (mem_cons_of_mem _ mem)

theorem row {start size count : Nat} :
    Stacked start ((range count).map fun i => ⟨start + i * size, size⟩) (start + count * size) := by
  induction count with
  | zero => exact .nil (Nat.le_add_right _ _)
  | succ count ih =>
    rw [range_succ, map_append]
    have last : start + count * size + size ≤ start + (count + 1) * size := by
      rw [Nat.succ_mul]
      omega
    exact append ih (single (Nat.le_refl _) last)

end Stacked

/-- The spans follow one another without a gap, from `low` to `high`. -/
inductive Tiles : Nat → List Span → Nat → Prop where
  | nil {low : Nat} : Tiles low [] low
  | cons {low high : Nat} {span : Span} {rest : List Span} :
      span.start = low → Tiles span.stop rest high → Tiles low (span :: rest) high

namespace Tiles

variable {low high : Nat} {spans : List Span}

theorem stacked (tiles : Tiles low spans high) : Stacked low spans high := by
  induction tiles with
  | nil => exact .nil (Nat.le_refl _)
  | cons first _ ih => exact .cons (Nat.le_of_eq first.symm) ih

theorem covers (tiles : Tiles low spans high) {place : Nat} :
    (∃ span ∈ spans, span.start ≤ place ∧ place < span.stop) ↔ low ≤ place ∧ place < high := by
  induction tiles with
  | nil => simp
  | @cons low high span rest first behind ih =>
    have inside : span.start ≤ span.stop := Nat.le_add_right _ _
    have above := behind.stacked.le
    rw [exists_mem_cons_iff, ih]
    omega

end Tiles

end UbsComm.Library
