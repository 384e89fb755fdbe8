import Mathlib.Data.List.Basic

/-! # Filling an array through a cursor

A writer puts values at its cursor and may leave the cursor where it is, so that the
next value overwrites the last one. -/

namespace UbsComm.Library

open List

variable {α : Type*}

structure Cursor (α : Type*) where
  position : Nat
  writes : List (Nat × α)

/-- A value on its way into the array; `keep` moves the cursor behind it. -/
structure Put (α : Type*) where
  value : α
  keep : Bool

namespace Cursor

def start : Cursor α := ⟨0, []⟩

def put (cursor : Cursor α) (put : Put α) : Cursor α :=
  ⟨cursor.position + put.keep.toNat, cursor.writes ++ [(cursor.position, put.value)]⟩

def putAll (cursor : Cursor α) (puts : List (Put α)) : Cursor α := puts.foldl Cursor.put cursor

/-- Nothing was written outside an array of `room` entries. -/
def Within (room : Nat) (cursor : Cursor α) : Prop :=
  cursor.position ≤ room ∧ ∀ entry ∈ cursor.writes, entry.1 < room

variable {cursor : Cursor α} {puts more : List (Put α)} {room : Nat} {first : Put α} {β : Type*}
  {items : List β}

@[simp] theorem putAll_nil : cursor.putAll [] = cursor := rfl

@[simp] theorem putAll_cons : cursor.putAll (first :: puts) = (cursor.put first).putAll puts := rfl

theorem putAll_append : cursor.putAll (puts ++ more) = (cursor.putAll puts).putAll more := foldl_append

theorem position_putAll : (cursor.putAll puts).position = cursor.position + puts.countP (·.keep) := by
  induction puts generalizing cursor with
  | nil => rfl
  | cons first puts ih =>
    rw [putAll_cons, ih, countP_cons]
    cases keeps : first.keep with
    | false => simp [put, keeps]
    | true =>
      simp only [put, keeps, Bool.toNat_true, if_true]
      omega

theorem start_within : (start : Cursor α).Within room := ⟨Nat.zero_le _, forall_mem_nil _⟩

theorem put_within_iff : (cursor.put first).Within room ↔ cursor.Within room ∧ cursor.position < room := by
  constructor
  · rintro ⟨_, inside⟩
    have here : cursor.position < room := inside _ (mem_append_right _ mem_cons_self)
    exact ⟨⟨Nat.le_of_lt here, fun entry mem => inside entry (mem_append_left _ mem)⟩, here⟩
  · rintro ⟨⟨_, inside⟩, here⟩
    refine ⟨?_, forall_mem_append.mpr ⟨inside, forall_mem_singleton.mpr here⟩⟩
    cases keeps : first.keep <;> simp [put, keeps] <;> omega

theorem Within.of_putAll (within : (cursor.putAll puts).Within room) : cursor.Within room := by
  induction puts generalizing cursor with
  | nil => exact within
  | cons first puts ih => exact (put_within_iff.mp (ih within)).1

/-- The writes fit exactly if every one of them finds the cursor inside the array. -/
theorem putAll_filterMap_within_iff {puts : β → Option (Put α)} :
    (cursor.putAll (items.filterMap puts)).Within room ↔ cursor.Within room ∧
      ∀ before item after, items = before ++ item :: after → (puts item).isSome →
        cursor.position + before.countP (fun earlier => (puts earlier).any (·.keep)) < room := by
  induction items generalizing cursor with
  | nil => simp
  | cons first items ih =>
    -- a condition on the items behind the first one is a condition on all of them
    have shift : (∀ before item after, first :: items = before ++ item :: after → (puts item).isSome →
          cursor.position + before.countP (fun earlier => (puts earlier).any (·.keep)) < room) ↔
        ((puts first).isSome → cursor.position < room) ∧
        ∀ before item after, items = before ++ item :: after → (puts item).isSome →
          cursor.position + ((puts first).any (·.keep)).toNat +
            before.countP (fun earlier => (puts earlier).any (·.keep)) < room := by
      constructor
      · intro all
        refine ⟨fun some => by simpa using all [] first items rfl some, fun before item after same some => ?_⟩
        have bound := all (first :: before) item after (by rw [same]; rfl) some
        cases keeps : (puts first).any (·.keep) <;> simp [keeps] at bound ⊢ <;> omega
      · rintro ⟨here, later⟩ before item after same some
        cases before with
        | nil =>
          cases same
          simpa using here some
        | cons head before =>
          rw [cons_append, cons.injEq] at same
          obtain ⟨rfl, same⟩ := same
          have bound := later before item after same some
          cases keeps : (puts first).any (·.keep) <;> simp [keeps] at bound ⊢ <;> omega
    rw [shift]
    cases found : puts first with
    | none => simp [found, ih]
    | some next =>
      rw [filterMap_cons_some found, putAll_cons, ih, put_within_iff, and_assoc]
      simp [put]

theorem putAll_within_iff :
    (cursor.putAll puts).Within room ↔ cursor.Within room ∧
      ∀ before first after, puts = before ++ first :: after → cursor.position + before.countP (·.keep) < room := by
  simpa using @putAll_filterMap_within_iff α cursor room (Put α) puts some

theorem Within.putAll (within : cursor.Within room) (short : cursor.position + puts.length ≤ room) :
    (cursor.putAll puts).Within room := by
  induction puts generalizing cursor with
  | nil => exact within
  | cons first puts ih =>
    rw [length_cons] at short
    have moved : (cursor.put first).position ≤ cursor.position + 1 := Nat.add_le_add_left (Bool.toNat_le _) _
    exact ih (put_within_iff.mpr ⟨within, by omega⟩) (by omega)

theorem position_putAll_kept (kept : ∀ put ∈ puts, put.keep = true) :
    (cursor.putAll puts).position = cursor.position + puts.length := by
  rw [position_putAll, countP_eq_length.mpr kept]

/-- Where every value is kept, the number of values decides. -/
theorem putAll_within_iff_of_kept (within : cursor.Within room) (kept : ∀ put ∈ puts, put.keep = true) :
    (cursor.putAll puts).Within room ↔ cursor.position + puts.length ≤ room := by
  refine ⟨fun within => ?_, within.putAll⟩
  have bound := within.1
  rwa [position_putAll_kept kept] at bound

/-- A loop that puts the values of one item after another. -/
theorem foldl_eq_putAll {step : Cursor α → β → Cursor α} {puts : β → List (Put α)}
    (each : ∀ cursor item, step cursor item = cursor.putAll (puts item)) :
    items.foldl step cursor = cursor.putAll (items.flatMap puts) := by
  induction items generalizing cursor with
  | nil => rfl
  | cons item items ih =>
    rw [foldl_cons, ih, each, flatMap_cons, putAll_append]

end Cursor

end UbsComm.Library
