import UbsComm.Library.Bytes

/-! # Walking a buffer of type-length-value sections

A section has a head of eight bytes, its type and the length of its value.  The walk
visits the sections one after another; the bytes behind the last complete one are left
alone. -/

namespace UbsComm.Library.Tlv

open List

variable {σ : Type*} {visit : σ → Element → Except Fault σ} {sect : Section} {sections : List Section}

def headSize : Nat := 8

/-- A section as the walk meets it: `value` is the offset behind its head. -/
structure Element where
  type : UInt32
  len : Nat
  value : Nat

def walk (visit : σ → Element → Except Fault σ) (bytes : List UInt8) (offset left : Nat) (state : σ) :
    Except Fault σ :=
  match read32 bytes (offset + 4) with
  | .error fault => .error fault
  | .ok len =>
    -- the total length is a 32-bit sum
    if len.toNat > 2 ^ 32 - 1 - headSize then .error .invalid
    else if left < headSize + len.toNat then .ok state
    else
      match read32 bytes offset with
      | .error fault => .error fault
      | .ok type =>
        match visit state ⟨type, len.toNat, offset + headSize⟩ with
        | .error fault => .error fault
        | .ok state =>
          if left - (headSize + len.toNat) < headSize then .ok state
          else walk visit bytes (offset + (headSize + len.toNat)) (left - (headSize + len.toNat)) state
termination_by left
decreasing_by
  unfold headSize at *
  omega

/-! ## Every visited section lies inside the buffer -/

/-- The result is good, or the input is rejected; nothing outside the buffer was read. -/
def Sound (Good : σ → Prop) : Except Fault σ → Prop
  | .ok state => Good state
  | .error fault => fault = .invalid

theorem walk_sound {bytes : List UInt8} {Good : σ → Prop}
    (safe : ∀ state element, element.value + element.len ≤ bytes.length → Good state → Sound Good (visit state element))
    {offset left : Nat} {state : σ} (inside : offset + left = bytes.length) (head : headSize ≤ left)
    (good : Good state) : Sound Good (walk visit bytes offset left state) := by
  have headEq : headSize = 8 := rfl
  fun_induction walk visit bytes offset left state with
  | case1 offset left state fault failed =>
    obtain ⟨word, read⟩ := read32_ok (show offset + 4 + 4 ≤ bytes.length by omega)
    cases read.symm.trans failed
  | case2 offset left state len found long => rfl
  | case3 offset left state len found short incomplete => exact good
  | case4 offset left state len found short complete fault failed =>
    obtain ⟨word, read⟩ := read32_ok (show offset + 4 ≤ bytes.length by omega)
    cases read.symm.trans failed
  | case5 offset left state len found short complete type typed fault rejected =>
    have visited := safe state ⟨type, len.toNat, offset + headSize⟩ (by simp only; omega) good
    rw [rejected] at visited
    exact visited
  | case6 offset left state len found short complete type typed next accepted last =>
    have visited := safe state ⟨type, len.toNat, offset + headSize⟩ (by simp only; omega) good
    rw [accepted] at visited
    exact visited
  | case7 offset left state len found short complete type typed next accepted more ih =>
    have visited := safe state ⟨type, len.toNat, offset + headSize⟩ (by simp only; omega) good
    rw [accepted] at visited
    exact ih (by omega) (by omega) visited

/-! ## A buffer made of sections -/

structure Section where
  type : UInt32
  value : List UInt8

def Section.bytes (sect : Section) : List UInt8 :=
  le32 sect.type ++ (le32 (.ofNat sect.value.length) ++ sect.value)

/-- The length of the whole section is a 32-bit number. -/
def Section.Fits (sect : Section) : Prop := headSize + sect.value.length < 2 ^ 32

theorem Section.length_bytes {sect : Section} : sect.bytes.length = headSize + sect.value.length := by
  simp [Section.bytes, headSize]
  omega

/-- A writer has put the section at the front of `rest` and left the bytes behind it. -/
def Section.Written (sect : Section) (front rest : List UInt8) (result : List UInt8 × Nat) : Prop :=
  ∃ back, result = (front ++ (sect.bytes ++ back), sect.bytes.length) ∧ sect.bytes.length + back.length = rest.length

/-- The head goes in last, in front of the value. -/
theorem Section.written {sect : Section} (front : List UInt8) {head back : List UInt8}
    (headLength : head.length = headSize) (room : headSize + sect.value.length + back.length = rest.length) :
    sect.Written front rest
      (poke (front ++ (head ++ (sect.value ++ back))) front.length
        (le32 sect.type ++ le32 (.ofNat sect.value.length)), headSize + sect.value.length) := by
  refine ⟨back, ?_, ?_⟩
  · rw [poke_at rfl headLength, sect.length_bytes, Section.bytes]
    simp
  · rw [sect.length_bytes, room]

theorem Section.Written.fits {front : List UInt8} {result : List UInt8 × Nat}
    (written : sect.Written front rest result) (small : rest.length < 2 ^ 32) : sect.Fits := by
  obtain ⟨back, -, lengths⟩ := written
  rw [sect.length_bytes] at lengths
  exact Nat.lt_of_le_of_lt (Nat.le.intro lengths) small

/-- A section in a buffer of sections: its value, with what stands before and behind. -/
theorem flatMap_bytes_at (before after : List Section) (sect : Section) :
    ∃ front, (before ++ sect :: after).flatMap Section.bytes =
        front ++ (sect.value ++ after.flatMap Section.bytes) ∧
      front.length = (before.flatMap Section.bytes).length + headSize :=
  ⟨before.flatMap Section.bytes ++ (le32 sect.type ++ le32 (.ofNat sect.value.length)),
    by simp only [flatMap_append, flatMap_cons, Section.bytes, append_assoc],
    by simp [headSize]⟩

def visitAll (visit : σ → Element → Except Fault σ) : Nat → List Section → σ → Except Fault σ
  | _, [], state => .ok state
  | offset, sect :: sections, state =>
    match visit state ⟨sect.type, sect.value.length, offset + headSize⟩ with
    | .error fault => .error fault
    | .ok state => visitAll visit (offset + sect.bytes.length) sections state

theorem Section.read_len (fits : sect.Fits) {front : List UInt8} (back : List UInt8) {offset : Nat}
    (start : offset = front.length) :
    ∃ len : UInt32, len.toNat = sect.value.length ∧ read32 (front ++ (sect.bytes ++ back)) (offset + 4) = .ok len := by
  have small : sect.value.length < 2 ^ 32 := Nat.lt_of_le_of_lt (Nat.le_add_left ..) fits
  refine ⟨.ofNat sect.value.length, UInt32.toNat_ofNat_of_lt' small, ?_⟩
  have shape : front ++ (sect.bytes ++ back) =
      (front ++ le32 sect.type) ++ (le32 (.ofNat sect.value.length) ++ (sect.value ++ back)) := by
    simp [Section.bytes]
  rw [shape]
  apply read32_at
  rw [start, length_append, length_le32]

theorem Section.read_type {sect : Section} {front back : List UInt8} {offset : Nat} (start : offset = front.length) :
    read32 (front ++ (sect.bytes ++ back)) offset = .ok sect.type := by
  exact read32_at start

theorem walk_sections (visit : σ → Element → Except Fault σ)
    (fits : ∀ sect ∈ sections, sect.Fits) (nonempty : sections ≠ []) (front : List UInt8) (state : σ) :
    walk visit (front ++ sections.flatMap Section.bytes) front.length (sections.flatMap Section.bytes).length state =
      visitAll visit front.length sections state := by
  induction sections generalizing front state with
  | nil => exact absurd rfl nonempty
  | cons sect sections ih =>
    obtain ⟨len, sameLen, readLen⟩ := Section.read_len (fits sect mem_cons_self)
      (sections.flatMap Section.bytes) rfl
    have sectFits : headSize + sect.value.length < 2 ^ 32 := fits sect mem_cons_self
    have short : ¬ len.toNat > 2 ^ 32 - 1 - headSize := by omega
    have complete : ¬ (sect.bytes.length + (sections.flatMap Section.bytes).length) < headSize + len.toNat := by
      rw [sect.length_bytes]
      omega
    have rest : sect.bytes.length + (sections.flatMap Section.bytes).length - (headSize + len.toNat) =
        (sections.flatMap Section.bytes).length := by
      rw [sect.length_bytes]
      omega
    rw [flatMap_cons, length_append, walk, readLen]
    simp only [short, complete, if_false, sect.read_type rfl, rest]
    rw [visitAll, sameLen]
    cases visit state ⟨sect.type, sect.value.length, front.length + headSize⟩ with
    | error fault => rfl
    | ok state =>
      simp only
      cases sections with
      | nil => rfl
      | cons next sections =>
        have more : ¬ ((next :: sections).flatMap Section.bytes).length < headSize := by
          rw [flatMap_cons, length_append, next.length_bytes]
          omega
        have later := ih (fun other mem => fits other (mem_cons_of_mem _ mem))
          (cons_ne_nil _ _) (front ++ sect.bytes) state
        rw [if_neg more, ← sect.length_bytes, ← length_append, ← later, append_assoc]

end UbsComm.Library.Tlv
