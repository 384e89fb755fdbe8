import Mathlib.Data.List.Nodup

/-! # Chains of linked cells

`next` is the link field of every cell.  `Linked next cells tail` says that the cells
are linked in this order and that the last one points to `tail`. -/

namespace UbsComm.Library

open Function

variable {α : Type*} {next next' : α → Option α} {cells front : List α} {cell last : α} {tail : Option α}

def Linked (next : α → Option α) : List α → Option α → Prop
  | [], _ => True
  | [cell], tail => next cell = tail
  | cell :: following :: cells, tail => next cell = some following ∧ Linked next (following :: cells) tail

theorem linked_cons : Linked next (cell :: cells) tail ↔ next cell = cells.head?.or tail ∧ Linked next cells tail := by
  cases cells <;> simp [Linked]

theorem linked_append_cons :
    Linked next (front ++ cell :: cells) tail ↔ Linked next front (some cell) ∧ Linked next (cell :: cells) tail := by
  induction front with
  | nil => simp [Linked]
  | cons first front ih =>
    cases front with
    | nil => simp [Linked]
    | cons second front =>
      simp only [List.cons_append, Linked] at ih ⊢
      rw [ih, and_assoc]

theorem Linked.congr (linked : Linked next cells tail) (same : ∀ cell ∈ cells, next' cell = next cell) :
    Linked next' cells tail := by
  induction cells with
  | nil => trivial
  | cons first cells ih =>
    obtain ⟨link, rest⟩ := linked_cons.mp linked
    refine linked_cons.mpr ⟨(same first List.mem_cons_self).trans link, ?_⟩
    exact ih rest fun cell mem => same cell (List.mem_cons_of_mem _ mem)

/-- Only the last link has to change for the chain to end elsewhere. -/
theorem Linked.redirect [DecidableEq α] (linked : Linked next (front ++ [last]) tail) (fresh : last ∉ front)
    (target : Option α) : Linked (update next last target) (front ++ [last]) target := by
  obtain ⟨start, _⟩ := linked_append_cons.mp linked
  refine linked_append_cons.mpr ⟨start.congr fun cell mem => ?_, update_self ..⟩
  have ne : cell ≠ last := by
    rintro rfl
    exact fresh mem
  exact update_of_ne ne ..

/-- The front of a chain leads to what is behind it. -/
theorem Linked.split {behind : List α} (linked : Linked next (front ++ behind) tail)
    (ends : behind = [] → tail = none) :
    Linked next front behind.head? ∧ Linked next behind tail := by
  cases behind with
  | nil =>
    rw [List.append_nil, ends rfl] at linked
    exact ⟨linked, trivial⟩
  | cons cell behind => exact linked_append_cons.mp linked

/-- A chain is moved behind another cell, which leads to it from then on. -/
theorem Linked.splice [DecidableEq α] (linked : Linked next (front ++ [last]) tail) (fresh : last ∉ front)
    (apart : cell ∉ front ++ [last]) (target : Option α) :
    Linked (update (update next cell (front ++ [last]).head?) last target)
      (cell :: (front ++ [last])) target := by
  have ne : cell ≠ last := by
    rintro rfl
    exact apart (by simp)
  have moved : Linked (update next cell (front ++ [last]).head?) (front ++ [last]) tail := by
    refine linked.congr fun other mem => update_of_ne ?_ ..
    rintro rfl
    exact apart mem
  refine linked_cons.mpr ⟨?_, moved.redirect fresh target⟩
  rw [update_of_ne ne, update_self]
  cases front <;> rfl

/-- The last cell of the chain that starts at a cell. -/
def follow (next : α → Option α) : Nat → α → α
  | 0, cell => cell
  | fuel + 1, cell =>
    match next cell with
    | none => cell
    | some following => follow next fuel following

theorem Linked.follow_eq (linked : Linked next (front ++ [last]) none) (first : (front ++ [last]).head? = some cell)
    {fuel : Nat} (enough : front.length ≤ fuel) : follow next fuel cell = last := by
  induction front generalizing cell fuel with
  | nil =>
    cases first
    have stops : next last = none := linked
    cases fuel with
    | zero => rfl
    | succ fuel => simp [follow, stops]
  | cons head front ih =>
    cases first
    cases fuel with
    | zero => simp at enough
    | succ fuel =>
      cases front with
      | nil =>
        obtain ⟨link, rest⟩ := linked
        simp only [follow, link]
        exact ih rest rfl (Nat.zero_le _)
      | cons second front =>
        obtain ⟨link, rest⟩ := linked
        simp only [follow, link]
        exact ih rest rfl (Nat.le_of_succ_le_succ enough)

end UbsComm.Library
