import Mathlib.Algebra.BigOperators.Fin
import Mathlib.Algebra.Order.BigOperators.Group.Finset

/-! # Radix trees whose leaves stand at any level

A node tells its children apart by `w` bits of the address, the highest ones first, and a leaf stands
for all addresses that lead to it.  The shift of a tree is the number of bits it still has to tell
apart. -/

namespace UbsComm.Library

open Function

variable {w low shift address other count : Nat} {α : Type*} {value : α}

/-- A node keeps the number of its children that are present. -/
inductive Radix (w : Nat) (α : Type*) where
  | empty
  | leaf (value : α)
  | node (count : Nat) (children : Fin (2 ^ w) → Radix w α)

/-- The `w` bits above the first `shift`. -/
def digit (w shift address : Nat) : Fin (2 ^ w) := ⟨address / 2 ^ shift % 2 ^ w, Nat.mod_lt _ (Nat.two_pow_pos w)⟩

/-- Of two addresses with the same bits above, the digit decides. -/
theorem digit_eq_digit_iff (same : address / 2 ^ (shift + w) = other / 2 ^ (shift + w)) :
    digit w shift address = digit w shift other ↔ address / 2 ^ shift = other / 2 ^ shift := by
  rw [Nat.pow_add, ← Nat.div_div_eq_div_mul, ← Nat.div_div_eq_div_mul] at same
  rw [digit, digit, Fin.mk.injEq]
  constructor
  · intro digits
    rw [← Nat.div_add_mod (address / 2 ^ shift) (2 ^ w), same, digits, Nat.div_add_mod]
  · exact fun equal => congrArg (· % 2 ^ w) equal

/-- A block below a node, from the block of the node and the digit. -/
theorem digit_of_div {block : Nat} {i : Fin (2 ^ w)} (below : address / 2 ^ shift = block * 2 ^ w + i) :
    address / 2 ^ (shift + w) = block ∧ digit w shift address = i := by
  rw [Nat.pow_add, ← Nat.div_div_eq_div_mul, below]
  constructor
  · rw [Nat.mul_comm, Nat.mul_add_div (Nat.two_pow_pos w), Nat.div_eq_of_lt i.isLt, Nat.add_zero]
  · apply Fin.ext
    show address / 2 ^ shift % 2 ^ w = i
    rw [below, Nat.mul_comm, Nat.mul_add_mod, Nat.mod_eq_of_lt i.isLt]

namespace Radix

def isPresent : Radix w α → Bool
  | .empty => false
  | .leaf _ | .node _ _ => true

@[simp] theorem isPresent_eq_false {tree : Radix w α} : tree.isPresent = false ↔ tree = .empty := by
  cases tree <;> simp [isPresent]

@[simp] theorem isPresent_empty : (empty : Radix w α).isPresent = false := rfl

@[simp] theorem isPresent_leaf : (leaf value : Radix w α).isPresent = true := rfl

variable {children : Fin (2 ^ w) → Radix w α}

@[simp] theorem isPresent_node :
    (node count children).isPresent = true := rfl

/-- The leaf that the address leads to, with its shift. -/
def find : Radix w α → Nat → Nat → Option (Nat × α)
  | .empty, _, _ => none
  | .leaf value, shift, _ => some (shift, value)
  | .node _ children, shift, address => (children (digit w (shift - w) address)).find (shift - w) address

@[simp] theorem find_empty : (empty : Radix w α).find shift address = none := rfl

@[simp] theorem find_leaf : (leaf value : Radix w α).find shift address = some (shift, value) := rfl

theorem find_node :
    (node count children).find (shift + w) address = (children (digit w shift address)).find shift address := by
  rw [find, Nat.add_sub_cancel]

theorem find_shift_le {leafShift : Nat} : ∀ (tree : Radix w α) (shift : Nat),
    tree.find shift address = some (leafShift, value) → leafShift ≤ shift
  | .leaf _, _, found => by
    cases found
    exact Nat.le_refl _
  | .node _ children, shift, found => Nat.le_trans (find_shift_le (children _) (shift - w) found) (Nat.sub_le _ _)

/-! ## Counting the children -/

def presence (tree : Radix w α) : Nat := if tree.isPresent then 1 else 0

@[simp] theorem presence_empty : (empty : Radix w α).presence = 0 := rfl

def presentCount (children : Fin (2 ^ w) → Radix w α) : Nat := ∑ i, (children i).presence

variable {children : Fin (2 ^ w) → Radix w α}

theorem presentCount_eq_zero : presentCount children = 0 ↔ ∀ i, children i = .empty := by
  simp [presentCount, presence]

theorem presence_le_presentCount (children : Fin (2 ^ w) → Radix w α) (i : Fin (2 ^ w)) :
    (children i).presence ≤ presentCount children :=
  Finset.single_le_sum (fun j _ => Nat.zero_le (children j).presence) (Finset.mem_univ i)

theorem presentCount_update (children : Fin (2 ^ w) → Radix w α) (i : Fin (2 ^ w))
    (child : Radix w α) : presentCount (update children i child) + (children i).presence =
      presentCount children + child.presence := by
  have weights : (fun j => (update children i child j).presence) =
      update (fun j => (children j).presence) i child.presence := by
    funext j
    by_cases same : j = i
    · subst same
      simp
    · simp [same]
  have split := Finset.add_sum_erase Finset.univ (fun j => (children j).presence) (Finset.mem_univ i)
  rw [presentCount, weights, Finset.sum_update_of_mem (Finset.mem_univ i), Finset.sdiff_singleton_eq_erase,
    presentCount]
  omega

/-- One child present among all: the others are empty. -/
theorem eq_empty_of_presentCount_eq_one (one : presentCount children = 1)
    {i j : Fin (2 ^ w)} (present : (children i).isPresent = true) (ne : j ≠ i) : children j = .empty := by
  by_contra nonempty
  have otherPresent : (children j).isPresent = true := by
    cases absent : (children j).isPresent with
    | false => exact absurd (isPresent_eq_false.mp absent) nonempty
    | true => rfl
  have first := presentCount_update children i .empty
  have second := presentCount_update (update children i .empty) j .empty
  rw [update_of_ne ne] at second
  simp only [presence, present, otherPresent, if_true, isPresent_empty, Bool.false_eq_true, if_false] at first second
  omega

/-! ## Well-formed trees -/

/-- No leaf stands below shift `low`, and every node counts its children and has one. -/
def Wf (low : Nat) : Radix w α → Nat → Prop
  | .empty, _ => True
  | .leaf _, shift => low ≤ shift
  | .node count children, shift =>
    low + w ≤ shift ∧ count = presentCount children ∧ 0 < count ∧ ∀ i, (children i).Wf low (shift - w)

theorem wf_node :
    (node count children).Wf low (shift + w) ↔
      low ≤ shift ∧ count = presentCount children ∧ 0 < count ∧ ∀ i, (children i).Wf low shift := by
  rw [Wf, Nat.add_sub_cancel, Nat.add_le_add_iff_right]

/-- Something is found in every block that a present tree stands for. -/
theorem Wf.exists_find : ∀ (tree : Radix w α) (shift block : Nat), tree.Wf low shift → tree.isPresent = true →
    ∃ address, address / 2 ^ shift = block ∧ (tree.find shift address).isSome = true
  | .leaf _, shift, block, _, _ => ⟨block * 2 ^ shift, Nat.mul_div_cancel _ (Nat.two_pow_pos shift), rfl⟩
  | .node count children, shift, block, wf, _ => by
    obtain ⟨room, counted, pos, childrenWf⟩ := wf
    obtain ⟨rest, rfl⟩ : ∃ rest, shift = rest + w := ⟨shift - w, by omega⟩
    have some_present : ∃ i, (children i).isPresent = true := by
      by_contra absent
      have none_present : presentCount children = 0 :=
        presentCount_eq_zero.mpr
          fun i => isPresent_eq_false.mp (Bool.not_eq_true _ ▸ fun present => absent ⟨i, present⟩)
      omega
    obtain ⟨i, present⟩ := some_present
    rw [Nat.add_sub_cancel] at childrenWf
    obtain ⟨address, inBlock, found⟩ := Wf.exists_find (children i) rest (block * 2 ^ w + i) (childrenWf i) present
    obtain ⟨above, digits⟩ := digit_of_div inBlock
    exact ⟨address, above, by rw [find_node, digits]; exact found⟩

section SetChild

variable {count newCount : Nat} {children : Fin (2 ^ w) → Radix w α} {i : Fin (2 ^ w)} {child : Radix w α}

theorem find_update :
    (node newCount (update children i child)).find (shift + w) address =
      if digit w shift address = i then child.find shift address
      else (node count children).find (shift + w) address := by
  rw [find_node, find_node]
  by_cases here : digit w shift address = i
  · rw [here, update_self, if_pos rfl]
  · rw [update_of_ne here, if_neg here]

/-- The node may have been without children before. -/
theorem wf_update (room : low ≤ shift) (countEq : count = presentCount children)
    (childrenWf : ∀ j, (children j).Wf low shift) (childWf : child.Wf low shift) (pos : 0 < newCount)
    (counted : newCount + (children i).presence = count + child.presence) :
    (node newCount (update children i child)).Wf low (shift + w) := by
  refine wf_node.mpr ⟨room, ?_, pos, fun j => ?_⟩
  · have updated := presentCount_update children i child
    omega
  · by_cases here : j = i
    · rw [here, update_self]
      exact childWf
    · rw [update_of_ne here]
      exact childrenWf j

end SetChild

end Radix

end UbsComm.Library
