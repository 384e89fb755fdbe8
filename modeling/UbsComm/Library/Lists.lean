import Mathlib.Algebra.Ring.Nat
import Mathlib.Data.Multiset.MapFold

/-! # Lists read as collections

Counting lemmas for a list that loses the entry at some index or gains one at its end. -/

namespace UbsComm.Library

open List

variable {α β : Type*} {index : Nat} {list : List α}

theorem coe_map_eraseIdx {entry : α} (found : list[index]? = some entry)
    (f : α → β) : ((list.map f : List β) : Multiset β) = {f entry} + ((list.eraseIdx index).map f : List β) := by
  obtain ⟨short, rfl⟩ := List.getElem?_eq_some_iff.mp found
  exact Multiset.coe_eq_coe.mpr ((getElem_cons_eraseIdx_perm short).symm.map f)

theorem coe_map_snoc {entry : α} {f : α → β} :
    (((list ++ [entry]).map f : List β) : Multiset β) = (list.map f : List β) + {f entry} := by
  rw [map_append]
  rfl

variable {α : Type*} {key : α → Nat} {list new : List α} {offset : Nat}

theorem sum_map_eraseIdx {entry : α} (found : list[index]? = some entry)
    {f : α → Nat} : (list.map f).sum = f entry + ((list.eraseIdx index).map f).sum := by
  obtain ⟨short, rfl⟩ := List.getElem?_eq_some_iff.mp found
  exact ((getElem_cons_eraseIdx_perm short).map f).sum_nat.symm

theorem countP_eraseIdx {entry : α} (found : list[index]? = some entry)
    (p : α → Bool) : list.countP p = (list.eraseIdx index).countP p + if p entry then 1 else 0 := by
  obtain ⟨short, rfl⟩ := List.getElem?_eq_some_iff.mp found
  rw [← countP_cons]
  exact ((getElem_cons_eraseIdx_perm short).countP_eq p).symm

theorem find?_key {entry : α} (nodup : (list.map key).Nodup)
    (mem : entry ∈ list) : list.find? (key · = key entry) = some entry := by
  induction list with
  | nil => cases mem
  | cons head tail ih =>
    rw [map_cons, nodup_cons] at nodup
    rcases mem_cons.mp mem with rfl | later
    · simp
    · have ne : key head ≠ key entry := fun same =>
        nodup.1 (same ▸ mem_map_of_mem later)
      simp only [find?_cons, ne]
      exact ih nodup.2 later

/-- With distinct keys there is only the first entry to erase. -/
theorem eraseP_key (nodup : (list.map key).Nodup) (target : Nat) :
    list.eraseP (key · = target) = list.filter (key · ≠ target) := by
  induction list with
  | nil => rfl
  | cons head tail ih =>
    rw [map_cons, nodup_cons] at nodup
    by_cases same : key head = target
    · have absent : ∀ entry ∈ tail, key entry ≠ target := by
        intro entry mem equal
        exact nodup.1 (same ▸ equal ▸ mem_map_of_mem mem)
      rw [eraseP_cons_of_pos (by simpa using same), filter_cons_of_neg (by simpa using same),
        filter_eq_self.mpr (by simpa using absent)]
    · rw [eraseP_cons_of_neg (by simpa using same), filter_cons_of_pos (by simpa using same),
        ih nodup.2]

theorem exists_of_sum_map_eq_one {f : α → Nat} (one : (list.map f).sum = 1) :
    ∃ entry ∈ list, f entry = 1 ∧ ∀ other ∈ list, f other ≠ 0 → other = entry := by
  induction list with
  | nil => cases one
  | cons head tail ih =>
    rcases Nat.add_eq_one_iff.mp one with ⟨headZero, tailOne⟩ | ⟨headOne, tailZero⟩
    · obtain ⟨entry, mem, isOne, unique⟩ := ih tailOne
      refine ⟨entry, mem_cons_of_mem _ mem, isOne, forall_mem_cons.mpr ⟨?_, unique⟩⟩
      exact fun nonzero => absurd headZero nonzero
    · refine ⟨head, mem_cons_self, headOne, forall_mem_cons.mpr ⟨fun _ => rfl, ?_⟩⟩
      intro other mem nonzero
      exact absurd (List.sum_eq_zero_iff_forall_eq_nat.mp tailZero _ (List.mem_map_of_mem mem)) nonzero

theorem mapM_eq_some_iff {f : α → Option β} {results : List β} :
    list.mapM f = some results ↔ list.map f = results.map some := by
  induction list generalizing results with
  | nil => cases results <;> simp
  | cons head tail ih =>
    rw [mapM_cons]
    cases results with
    | nil => cases f head <;> cases tail.mapM f <;> simp
    | cons result results =>
      rw [map_cons, map_cons, cons_eq_cons, ← ih]
      cases f head <;> cases tail.mapM f <;> simp

def overwrite (list : List α) (offset : Nat) (new : List α) : List α :=
  list.take offset ++ new ++ list.drop (offset + new.length)

theorem length_overwrite (fits : offset + new.length ≤ list.length) :
    (overwrite list offset new).length = list.length := by
  simp only [overwrite, length_append, length_take, length_drop]
  omega

theorem getElem?_overwrite (fits : offset + new.length ≤ list.length) {k : Nat} :
    (overwrite list offset new)[k]? =
      if offset ≤ k ∧ k < offset + new.length then new[k - offset]? else list[k]? := by
  have taken : (list.take offset).length = offset := length_take_of_le (by omega)
  rw [overwrite, append_assoc]
  rcases Nat.lt_or_ge k offset with before | after
  · rw [getElem?_append_left (by omega), getElem?_take_of_lt before, if_neg (by omega)]
  · rw [getElem?_append_right (by omega), taken]
    rcases Nat.lt_or_ge k (offset + new.length) with inside | behind
    · rw [getElem?_append_left (by omega), if_pos ⟨after, inside⟩]
    · rw [getElem?_append_right (by omega), getElem?_drop, if_neg (by omega)]
      congr 1
      omega

end UbsComm.Library
