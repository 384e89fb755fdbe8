import Mathlib.Algebra.Ring.Nat
import Mathlib.Data.List.Basic

/-! # Reading and writing words in a byte buffer

Reads are checked: one that leaves the buffer is a fault of its own, so that a parser
can be shown never to make it. -/

namespace UbsComm.Library

open List

/-- Why a parser stops. -/
inductive Fault where
  | invalid | outOfBounds

/-- The bytes of a word, the lowest first. -/
def le32 (word : UInt32) : List UInt8 :=
  [.ofNat word.toNat, .ofNat (word.toNat / 2 ^ 8), .ofNat (word.toNat / 2 ^ 16), .ofNat (word.toNat / 2 ^ 24)]

def unLe32 : List UInt8 → UInt32
  | [first, second, third, fourth] =>
    .ofNat (first.toNat + second.toNat * 2 ^ 8 + third.toNat * 2 ^ 16 + fourth.toNat * 2 ^ 24)
  | _ => 0

def le32s (words : List UInt32) : List UInt8 := words.flatMap le32

def readBytes (bytes : List UInt8) (offset length : Nat) : Except Fault (List UInt8) :=
  if offset + length ≤ bytes.length then .ok ((bytes.drop offset).take length) else .error .outOfBounds

def read32 (bytes : List UInt8) (offset : Nat) : Except Fault UInt32 := (readBytes bytes offset 4).map unLe32

/-- How many bytes stand before the first zero byte, at most `limit`. -/
def strnlen (bytes : List UInt8) (offset : Nat) : Nat → Except Fault Nat
  | 0 => .ok 0
  | limit + 1 => do
    let byte ← readBytes bytes offset 1
    if byte = [0] then return 0
    else return (← strnlen bytes (offset + 1) limit) + 1

/-- Replace the bytes from `offset` on. -/
def poke (bytes : List UInt8) (offset : Nat) (new : List UInt8) : List UInt8 :=
  bytes.take offset ++ (new ++ bytes.drop (offset + new.length))

variable {front new old back bytes : List UInt8} {word : UInt32} {words : List UInt32} {offset length limit : Nat}

@[simp] theorem length_le32 : (le32 word).length = 4 := rfl

@[simp] theorem unLe32_le32 : unLe32 (le32 word) = word := by
  have small := word.toNat_lt
  apply UInt32.toNat_inj.mp
  simp only [le32, unLe32, UInt8.toNat_ofNat', UInt32.toNat_ofNat']
  omega

@[simp] theorem length_le32s : (le32s words).length = 4 * words.length := by
  simp [le32s, Nat.mul_comm]

@[simp] theorem le32s_cons : le32s (word :: words) = le32 word ++ le32s words := rfl

/-! ## Reads inside the buffer -/

theorem readBytes_append : readBytes (front ++ (old ++ back)) front.length old.length = .ok old := by
  simp [readBytes]

theorem readBytes_at (start : offset = front.length) (size : length = old.length) :
    readBytes (front ++ (old ++ back)) offset length = .ok old := by
  rw [start, size, readBytes_append]

theorem read32_at (start : offset = front.length) : read32 (front ++ (le32 word ++ back)) offset = .ok word := by
  rw [read32, readBytes_at start length_le32.symm]
  exact congrArg Except.ok unLe32_le32

theorem read32_words (index : Nat) (found : words[index]? = some word) (start : offset = front.length + 4 * index) :
    read32 (front ++ (le32s words ++ back)) offset = .ok word := by
  induction words generalizing front index with
  | nil => cases found
  | cons first words ih =>
    cases index with
    | zero =>
      cases found
      exact read32_at start
    | succ index =>
      rw [le32s_cons, append_assoc, ← append_assoc]
      apply ih index found
      rw [length_append, length_le32]
      omega

theorem read32_first (found : words[0]? = some word) :
    read32 (front ++ (le32s words ++ back)) front.length = .ok word :=
  read32_words 0 found rfl

theorem readBytes_ok (inside : offset + length ≤ bytes.length) :
    readBytes bytes offset length = .ok ((bytes.drop offset).take length) := if_pos inside

theorem read32_ok (inside : offset + 4 ≤ bytes.length) : ∃ word, read32 bytes offset = .ok word := by
  rw [read32, readBytes_ok inside]
  exact ⟨_, rfl⟩

theorem strnlen_ok (inside : offset + limit ≤ bytes.length) : ∃ length, strnlen bytes offset limit = .ok length := by
  induction limit generalizing offset with
  | zero => exact ⟨0, rfl⟩
  | succ limit ih =>
    obtain ⟨length, rest⟩ := ih (show offset + 1 + limit ≤ bytes.length by omega)
    simp only [strnlen, readBytes_ok (show offset + 1 ≤ bytes.length by omega), rest, bind, Except.bind]
    split <;> exact ⟨_, rfl⟩

/-- A zero byte inside the limit stops the count before the limit. -/
theorem strnlen_lt {zeros : List UInt8} (start : offset = front.length) (terminated : 0 ∈ zeros) (back : List UInt8) :
    ∃ length < zeros.length, strnlen (front ++ (zeros ++ back)) offset zeros.length = .ok length := by
  induction zeros generalizing front offset with
  | nil => cases terminated
  | cons byte zeros ih =>
    have first : readBytes (front ++ ([byte] ++ (zeros ++ back))) offset 1 = .ok [byte] := readBytes_at start rfl
    have shape : byte :: zeros ++ back = [byte] ++ (zeros ++ back) := rfl
    rw [shape]
    simp only [length_cons, strnlen, first, bind, Except.bind]
    split
    · exact ⟨0, Nat.succ_pos _, rfl⟩
    · rename_i nonzero
      have later : 0 ∈ zeros := by
        obtain rfl | later := mem_cons.mp terminated
        · exact absurd rfl nonzero
        · exact later
      have next : offset + 1 = (front ++ [byte]).length := by simp [start]
      obtain ⟨length, short, rest⟩ := ih next later
      rw [append_assoc] at rest
      rw [rest]
      exact ⟨length + 1, Nat.succ_lt_succ short, rfl⟩

/-! ## Writes -/

theorem poke_at (start : offset = front.length) (size : old.length = new.length) :
    poke (front ++ (old ++ back)) offset new = front ++ (new ++ back) := by
  have rest : (front ++ (old ++ back)).drop (front.length + new.length) = back := by
    rw [← size, ← append_assoc, ← length_append, drop_left]
  rw [poke, start, take_left, rest]

theorem length_poke (inside : offset + new.length ≤ bytes.length) : (poke bytes offset new).length = bytes.length := by
  simp only [poke, length_append, length_take, length_drop]
  omega

theorem exists_split (enough : length ≤ bytes.length) :
    ∃ first second, bytes = first ++ second ∧ first.length = length :=
  ⟨bytes.take length, bytes.drop length, (take_append_drop ..).symm, length_take_of_le enough⟩

end UbsComm.Library
