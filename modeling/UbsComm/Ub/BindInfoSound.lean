import UbsComm.Ub.BindInfo

/-! # Bind info is read inside the buffer -/

namespace UbsComm.Ub

open Library
open Library.Tlv (Element Sound headSize)

/-- Every section, with the payload its fields announce, lies inside the buffer. -/
structure BindInfo.Inside (bytes : List UInt8) (info : BindInfo) : Prop where
  version : ∀ version ∈ info.versionInfo, version + sizeofVersionInfo ≤ bytes.length
  dev : ∀ dev ∈ info.devInfo, ∃ namespaceLen segSize, devNamespaceLen bytes dev = .ok namespaceLen ∧
    devSegSize bytes dev = .ok segSize ∧ dev + sizeofDevInfo + namespaceLen.toNat + segSize.toNat ≤ bytes.length
  queue : ∀ queue ∈ info.queueInfo, ∃ rjettySize, queueRjettySize bytes queue = .ok rjettySize ∧
    queue + sizeofQueueInfo + rjettySize.toNat ≤ bytes.length
  fc : ∀ fc ∈ info.fcInfo, ∃ rjettySize, fcRjettySize bytes fc = .ok rjettySize ∧
    fc + sizeofFcInfo + rjettySize.toNat ≤ bytes.length

variable {bytes : List UInt8} {info : BindInfo} {element : Element}

theorem BindInfo.empty_inside : BindInfo.empty.Inside bytes := by
  constructor <;> simp [BindInfo.empty]

theorem devInfoDeserialize_sound (inside : element.value + element.len ≤ bytes.length) (good : info.Inside bytes) :
    Sound (BindInfo.Inside bytes) (devInfoDeserialize bytes element info) := by
  unfold devInfoDeserialize
  split
  · rfl
  · rename_i large
    have size : sizeofDevInfo = 32 := rfl
    obtain ⟨namespaceLen, readLen⟩ := read32_ok (show element.value + 16 + 4 ≤ bytes.length by omega)
    obtain ⟨segSize, readSize⟩ := read32_ok (show element.value + 20 + 4 ≤ bytes.length by omega)
    simp only [devNamespaceLen, devSegSize, readLen, readSize, bind, Except.bind]
    split
    · rfl
    · rename_i whole
      obtain ⟨len, counted⟩ := strnlen_ok
        (show element.value + sizeofDevInfo + namespaceLen.toNat ≤ bytes.length by omega)
      simp only [counted]
      split
      · rfl
      · refine { good with dev := ?_ }
        rintro dev ⟨⟩
        exact ⟨namespaceLen, segSize, readLen, readSize, by omega⟩

theorem jettyInfoDeserialize_sound {sizeofInfo : Nat} {readSize : Nat → Except Fault UInt32} {Good : BindInfo → Prop}
    (readable : sizeofInfo ≤ element.len → ∃ rjettySize, readSize element.value = .ok rjettySize)
    (accepts : ∀ rjettySize, readSize element.value = .ok rjettySize → sizeofInfo + rjettySize.toNat ≤ element.len →
      Good info) : Sound Good (jettyInfoDeserialize sizeofInfo readSize element info) := by
  unfold jettyInfoDeserialize
  split
  · rfl
  · rename_i large
    obtain ⟨rjettySize, read⟩ := readable (Nat.le_of_not_lt large)
    simp only [read, bind, Except.bind]
    split
    · rfl
    · rename_i whole
      exact accepts rjettySize read (Nat.le_of_not_lt whole)

theorem queueInfoDeserialize_sound (inside : element.value + element.len ≤ bytes.length) (good : info.Inside bytes) :
    Sound (BindInfo.Inside bytes) (queueInfoDeserialize bytes element info) := by
  have size : sizeofQueueInfo = 32 := rfl
  apply jettyInfoDeserialize_sound
  · intro large
    exact read32_ok (by omega)
  · intro rjettySize read whole
    refine { good with queue := ?_ }
    rintro queue ⟨⟩
    exact ⟨rjettySize, read, by omega⟩

theorem fcInfoDeserialize_sound (inside : element.value + element.len ≤ bytes.length) (good : info.Inside bytes) :
    Sound (BindInfo.Inside bytes) (fcInfoDeserialize bytes element info) := by
  have size : sizeofFcInfo = 16 := rfl
  apply jettyInfoDeserialize_sound
  · intro large
    exact read32_ok (by omega)
  · intro rjettySize read whole
    refine { good with fc := ?_ }
    rintro fc ⟨⟩
    exact ⟨rjettySize, read, by omega⟩

theorem bindInfoVisit_sound (info : BindInfo) (element : Element) (inside : element.value + element.len ≤ bytes.length)
    (good : info.Inside bytes) : Sound (BindInfo.Inside bytes) (bindInfoVisit bytes info element) := by
  unfold bindInfoVisit
  split_ifs
  · rfl
  · refine { good with version := ?_ }
    rintro version ⟨⟩
    omega
  · exact devInfoDeserialize_sound inside good
  · exact queueInfoDeserialize_sound inside good
  · exact fcInfoDeserialize_sound inside good
  · exact good

theorem umqUbBindInfoDeserialize_sound (bytes : List UInt8) :
    Sound (BindInfo.Inside bytes) (umqUbBindInfoDeserialize bytes) := by
  unfold umqUbBindInfoDeserialize
  split
  · rfl
  · rename_i large
    exact Tlv.walk_sound bindInfoVisit_sound (Nat.zero_add _) (Nat.le_of_not_lt large) BindInfo.empty_inside

end UbsComm.Ub
