import UbsComm.Library.Masks
import UbsComm.Memory.PageTablePages

/-! # Pages in and out of the table

What the table finds at an address does not depend on how many levels it has: growing and shrinking keep
it, a page that is inserted or removed changes it in that page. -/

namespace UbsComm.Memory

open Library

namespace PgTable

variable {table : PgTable} {address order levels shift : Nat} {region : PgtRegion}

/-- Base and mask belong to the block of addresses that the root stands for. -/
structure Sound (table : PgTable) : Prop where
  wf : table.rootEntry.Wf pageShiftMin table.indexShift
  levels : ∃ levels ≤ 15, table.indexShift = 4 + 4 * levels
  mask : table.spaceMask = 2 ^ 64 - 2 ^ table.indexShift
  baseAligned : 2 ^ table.indexShift ∣ table.virBaseAddr
  baseSmall : table.virBaseAddr < 2 ^ 64

/-- The page of the table that the address is in, by its order, and its region. -/
def find (table : PgTable) (address : Nat) : Option (Nat × PgtRegion) :=
  if InPage table.virBaseAddr table.indexShift address then table.rootEntry.find table.indexShift address else none

theorem pageTableMask_eq : pageTableMask = 2 ^ 64 - 2 ^ pageShiftMin := by decide

theorem new_sound : new.Sound := ⟨trivial, ⟨0, by decide, rfl⟩, pageTableMask_eq, Nat.dvd_zero _, by decide⟩

theorem Sound.indexShift_le (sound : table.Sound) : table.indexShift ≤ 64 := by
  obtain ⟨levels, le, shift⟩ := sound.levels
  omega

theorem Sound.and_spaceMask (sound : table.Sound) (small : address < 2 ^ 64) :
    address &&& table.spaceMask = address / 2 ^ table.indexShift * 2 ^ table.indexShift := by
  rw [sound.mask]
  exact maskDown_two_pow sound.indexShift_le small

/-- The test on the masked address is the one on the block. -/
theorem Sound.inBlock_iff (sound : table.Sound) (small : address < 2 ^ 64) :
    address &&& table.spaceMask = table.virBaseAddr ↔ InPage table.virBaseAddr table.indexShift address := by
  obtain ⟨block, base⟩ := sound.baseAligned
  have pos := Nat.two_pow_pos table.indexShift
  rw [sound.and_spaceMask small, InPage, base, Nat.mul_div_cancel_left _ pos, Nat.mul_comm _ block]
  exact Nat.mul_left_inj (by omega)

theorem lookupEntry_eq : ∀ (entry : PgtEntry) (shift : Nat), lookupEntry address entry shift =
    (entry.find shift address).bind fun found =>
      if found.2.start ≤ address ∧ address < found.2.stop then some found.2 else none
  | .empty, _ => rfl
  | .leaf held, _ => by
    rw [lookupEntry, Radix.find_leaf, Option.bind_some]
    by_cases inside : held.start ≤ address ∧ address < held.stop
    · rw [if_pos inside, if_neg (by omega)]
    · rw [if_neg inside, if_pos (by omega)]
  | .node count entries, shift => by
    rw [lookupEntry, Radix.find, pteIndex_eq_digit]
    exact lookupEntry_eq _ _

theorem Sound.lookup_eq (sound : table.Sound) (small : address < 2 ^ 64) :
    table.lookup address = (table.find address).bind fun found =>
      if found.2.start ≤ address ∧ address < found.2.stop then some found.2 else none := by
  rw [lookup, find]
  simp only [ne_eq, sound.inBlock_iff small]
  by_cases inBlock : InPage table.virBaseAddr table.indexShift address
  · rw [if_neg (not_not.mpr inBlock), if_pos inBlock, lookupEntry_eq]
    cases present : table.rootEntry.isPresent with
    | true => rfl
    | false => rw [Radix.isPresent_eq_false.mp present]; rfl
  · rw [if_pos inBlock, if_neg inBlock]
    rfl

/-! ## Growing -/

/-- The same is found, possibly at another depth. -/
structure Reshaped (table reshaped : PgTable) : Prop where
  sound : reshaped.Sound
  find : ∀ address, reshaped.find address = table.find address
  regionCount : reshaped.regionCount = table.regionCount

theorem Reshaped.refl (sound : table.Sound) : Reshaped table table := ⟨sound, fun _ => rfl, rfl⟩

theorem Reshaped.trans {middle last : PgTable} (first : Reshaped table middle) (second : Reshaped middle last) :
    Reshaped table last :=
  ⟨second.sound, fun address => (second.find address).trans (first.find address),
    second.regionCount.trans first.regionCount⟩

theorem find_of_absent (absent : table.rootEntry.isPresent = false) : table.find address = none := by
  rw [find, Radix.isPresent_eq_false.mp absent]
  exact ite_self _

theorem spaceMask_expand (le : shift ≤ 60) :
    (2 ^ 64 - 2 ^ shift) <<< pteShiftPerDir % 2 ^ 64 = 2 ^ 64 - 2 ^ (shift + pteShiftPerDir) := by
  have bound : 2 ^ shift ≤ 2 ^ 60 := Nat.pow_le_pow_right (by decide) le
  have pos := Nat.two_pow_pos shift
  have product : (2 ^ 64 - 2 ^ shift) * 2 ^ 4 = 2 ^ 64 * 15 + (2 ^ 64 - 2 ^ shift * 2 ^ 4) := by omega
  rw [Nat.shiftLeft_eq, Nat.pow_add, product, Nat.mul_add_mod, Nat.mod_eq_of_lt (by omega)]

variable {base shift : Nat}

theorem find_dirOf {entry : PgtEntry} :
    (if InPage base (shift + pteShiftPerDir) address then
      (dirOf (pteIndex base shift) entry).find (shift + pteShiftPerDir) address else none) =
    if InPage base shift address then entry.find shift address else none := by
  by_cases inBlock : InPage base (shift + pteShiftPerDir) address
  · rw [if_pos inBlock, dirOf, pteIndex_eq_digit, @Radix.find_update _ _ _ _ 0]
    simp only [inPage_of_digit inBlock]
    rfl
  · rw [if_neg inBlock, if_neg fun inPage => inBlock (InPage.mono inPage (Nat.le_add_right _ _))]

theorem inPage_base : InPage (base / 2 ^ shift * 2 ^ shift) shift address ↔ InPage base shift address := by
  rw [InPage, InPage, Nat.mul_div_cancel _ (Nat.two_pow_pos shift)]

theorem wf_expand {entry : PgtEntry} (low : pageShiftMin ≤ shift) {index : Fin (2 ^ pteShiftPerDir)}
    (wf : entry.Wf pageShiftMin shift) (present : entry.isPresent = true) :
    (dirOf index entry).Wf pageShiftMin (shift + pteShiftPerDir) := by
  have single : entry.presence = 1 := by rw [Radix.presence, if_pos present]
  apply Radix.wf_update low (Radix.presentCount_eq_zero.mpr fun _ => rfl).symm (fun _ => trivial) wf (by decide)
  rw [single]
  rfl

theorem Sound.pgtExpand (sound : table.Sound) (deeper : table.indexShift ≤ 60) :
    ∃ expanded, table.pgtExpand = some expanded ∧ Reshaped table expanded ∧
      expanded.indexShift = table.indexShift + pteShiftPerDir := by
  obtain ⟨levels, -, shift⟩ := sound.levels
  have mask := spaceMask_expand deeper
  rw [← sound.mask] at mask
  have base : table.virBaseAddr &&& (2 ^ 64 - 2 ^ (table.indexShift + pteShiftPerDir)) =
      table.virBaseAddr / 2 ^ (table.indexShift + pteShiftPerDir) * 2 ^ (table.indexShift + pteShiftPerDir) :=
    maskDown_two_pow (Nat.add_le_add_right deeper 4) sound.baseSmall
  rw [PgTable.pgtExpand, if_neg (by simp only [pgtAddrOrderMax, pteShiftPerDir]; omega)]
  simp only [mask, base]
  refine ⟨_, rfl, ⟨?_, fun address => ?_, rfl⟩, rfl⟩
  · refine ⟨?_, ⟨levels + 1, by omega, ?_⟩, rfl, Nat.dvd_mul_left _ _, ?_⟩
    · cases present : table.rootEntry.isPresent with
      | true => exact wf_expand (by rw [shift]; exact Nat.le_add_right _ _) sound.wf present
      | false =>
        rw [Radix.isPresent_eq_false.mp present]
        trivial
    · show table.indexShift + 4 = 4 + 4 * (levels + 1)
      omega
    · exact Nat.lt_of_le_of_lt (Nat.div_mul_le_self _ _) sound.baseSmall
  · cases present : table.rootEntry.isPresent with
    | true =>
      rw [find]
      simp only [inPage_base]
      exact find_dirOf
    | false =>
      rw [@find_of_absent table _ present]
      exact find_of_absent present

/-- The loop stops because of its condition if that fails at the full depth. -/
theorem Sound.expandWhile {condition : PgTable → Bool} (full : ∀ table : PgTable, table.Sound →
    table.indexShift = 64 → condition table = false) : ∀ (fuel : Nat) (table : PgTable), table.Sound →
    64 < table.indexShift + 4 * fuel →
    ∃ expanded, table.expandWhile condition fuel = (expanded, true) ∧ Reshaped table expanded ∧
      condition expanded = false ∧ table.indexShift ≤ expanded.indexShift
  | 0, table, sound, enough => absurd sound.indexShift_le (by omega)
  | fuel + 1, table, sound, enough => by
    rw [PgTable.expandWhile]
    cases holds : condition table with
    | false => exact ⟨table, rfl, .refl sound, holds, Nat.le_refl _⟩
    | true =>
      obtain ⟨levels, -, shift⟩ := sound.levels
      have notFull : table.indexShift ≠ 64 := fun atFull => by
        rw [full table sound atFull] at holds
        cases holds
      have deeper : table.indexShift ≤ 60 := by
        have le := sound.indexShift_le
        omega
      obtain ⟨next, expands, reshaped, nextShift⟩ := sound.pgtExpand deeper
      simp only [pteShiftPerDir] at nextShift
      obtain ⟨expanded, loop, further, stops, le⟩ := Sound.expandWhile full fuel next reshaped.sound (by omega)
      refine ⟨expanded, ?_, reshaped.trans further, stops, by omega⟩
      simp only [if_true, expands, loop]

/-- Afterwards the page lies in the block of the root. -/
theorem Sound.pgtEnsureCapacity (sound : table.Sound) (small : address < 2 ^ 64) (le : order ≤ 64) :
    Reshaped table (table.pgtEnsureCapacity order address) ∧
      order ≤ (table.pgtEnsureCapacity order address).indexShift ∧
      InPage (table.pgtEnsureCapacity order address).virBaseAddr (table.pgtEnsureCapacity order address).indexShift
        address := by
  obtain ⟨deep, deepens, reshaped, deepEnough, -⟩ := @Sound.expandWhile
    (fun table => decide (table.indexShift < order)) (fun _ _ full => decide_eq_false (by omega)) 17 table sound
      (by omega)
  have le := Nat.not_lt.mp (of_decide_eq_false deepEnough)
  rw [PgTable.pgtEnsureCapacity, deepens]
  cases root : deep.rootEntry.isPresent with
  | false =>
    simp only [root, reshaped.sound.and_spaceMask small]
    refine ⟨reshaped.trans ⟨?_, fun other => ?_, rfl⟩, le, inPage_base.mpr rfl⟩
    · exact { reshaped.sound with
        baseAligned := Nat.dvd_mul_left _ _
        baseSmall := Nat.lt_of_le_of_lt (Nat.div_mul_le_self _ _) small }
    · rw [@find_of_absent deep _ root]
      exact find_of_absent root
  | true =>
    -- at the full depth every address is in the block
    have full : ∀ table : PgTable, table.Sound → table.indexShift = 64 →
        (address &&& table.spaceMask != table.virBaseAddr) = false := by
      intro table sound atFull
      rw [bne_eq_false_iff_eq, sound.inBlock_iff small, atFull, InPage, Nat.div_eq_of_lt small,
        Nat.div_eq_of_lt sound.baseSmall]
    obtain ⟨wide, widens, further, inBlock, wider⟩ := Sound.expandWhile full 17 deep reshaped.sound (by omega)
    simp only [root, widens]
    exact ⟨reshaped.trans further, Nat.le_trans le wider,
      (further.sound.inBlock_iff small).mp (bne_eq_false_iff_eq.mp inBlock)⟩

/-! ## Shrinking -/

theorem spaceMask_shrink (le : shift ≤ 60) :
    (2 ^ 64 - 2 ^ (shift + pteShiftPerDir)) ||| pteIndexMask <<< shift = 2 ^ 64 - 2 ^ shift := by
  have word : 2 ^ 64 = 2 ^ (shift + 4) * 2 ^ (60 - shift) := by
    rw [← Nat.pow_add]
    congr 1
    omega
  have blockPositive := Nat.two_pow_pos shift
  have blocks : 2 ^ 64 - 2 ^ (shift + 4) = 2 ^ (shift + 4) * (2 ^ (60 - shift) - 1) := by
    rw [word, Nat.mul_sub, Nat.mul_one]
  have below : 15 * 2 ^ shift < 2 ^ (shift + 4) := by
    rw [Nat.pow_add]
    omega
  have large : 2 ^ (shift + 4) ≤ 2 ^ 64 := Nat.pow_le_pow_right (by decide) (by omega)
  have block : 2 ^ (shift + 4) = 2 ^ shift * 16 := Nat.pow_add 2 shift 4
  rw [Nat.shiftLeft_eq, blocks, ← Nat.two_pow_add_eq_or_of_lt below]
  omega

/-- A block of an address in the word lies in it as a whole. -/
theorem add_two_pow_le (le : shift ≤ 64) (aligned : 2 ^ shift ∣ base) (small : base < 2 ^ 64) :
    base + 2 ^ shift ≤ 2 ^ 64 :=
  Nat.le_of_lt_add_of_dvd (Nat.add_lt_add_right small _) (Nat.dvd_add aligned (Nat.dvd_refl _)) (Nat.pow_dvd_pow 2 le)

theorem digit_mul_lt {shift index : Nat} (digit : index < 16) : index * 2 ^ shift < 2 ^ (shift + pteShiftPerDir) := by
  rw [Nat.pow_add, Nat.mul_comm]
  exact Nat.mul_lt_mul_of_pos_left digit (Nat.two_pow_pos shift)

theorem base_shrink {base shift index : Nat} (aligned : 2 ^ (shift + pteShiftPerDir) ∣ base) (digit : index < 16) :
    base ||| index <<< shift = base + index * 2 ^ shift := by
  obtain ⟨block, rfl⟩ := aligned
  rw [Nat.shiftLeft_eq, ← Nat.two_pow_add_eq_or_of_lt (digit_mul_lt digit)]

theorem find_single {base shift count : Nat} {entries : Fin (2 ^ pteShiftPerDir) → PgtEntry}
    {index : Fin (2 ^ pteShiftPerDir)} (aligned : 2 ^ (shift + pteShiftPerDir) ∣ base)
    (one : Radix.presentCount entries = 1) (present : (entries index).isPresent = true) :
    (if InPage (base + index * 2 ^ shift) shift address then (entries index).find shift address else none) =
      if InPage base (shift + pteShiftPerDir) address then
        (Radix.node count entries).find (shift + pteShiftPerDir) address
      else none := by
  obtain ⟨block, rfl⟩ := aligned
  have pos := Nat.two_pow_pos shift
  have quotient : (2 ^ (shift + pteShiftPerDir) * block + index * 2 ^ shift) / 2 ^ shift =
      block * 2 ^ pteShiftPerDir + index := by
    have base : 2 ^ (shift + pteShiftPerDir) * block + index * 2 ^ shift =
        2 ^ shift * (block * 2 ^ pteShiftPerDir + index) := by
      rw [Nat.pow_add, Nat.mul_add, Nat.mul_assoc, Nat.mul_comm block, Nat.mul_comm (index : Nat)]
    rw [base, Nat.mul_div_cancel_left _ pos]
  have blockQuotient : 2 ^ (shift + pteShiftPerDir) * block / 2 ^ (shift + pteShiftPerDir) = block :=
    Nat.mul_div_cancel_left _ (Nat.two_pow_pos _)
  by_cases here : InPage (2 ^ (shift + pteShiftPerDir) * block + index * 2 ^ shift) shift address
  · obtain ⟨above, digits⟩ := digit_of_div (here.trans quotient)
    rw [if_pos here, if_pos (show InPage _ _ _ from above.trans blockQuotient.symm), Radix.find_node, digits]
  · rw [if_neg here]
    by_cases inBlock : InPage (2 ^ (shift + pteShiftPerDir) * block) (shift + pteShiftPerDir) address
    · have elsewhere : digit pteShiftPerDir shift address ≠ index := by
        intro digits
        obtain ⟨above, sameDigit⟩ := digit_of_div quotient
        refine here ((digit_eq_digit_iff ?_).mp (digits.trans sameDigit.symm))
        exact (inBlock.trans blockQuotient).trans above.symm
      rw [if_pos inBlock, Radix.find_node, Radix.eq_empty_of_presentCount_eq_one one present elsewhere,
        Radix.find_empty]
    · rw [if_neg inBlock]

theorem Sound.pgtShrink (sound : table.Sound) :
    Reshaped table table.pgtShrink.1 ∧
      (table.pgtShrink.2 = true → table.pgtShrink.1.indexShift + 4 = table.indexShift) := by
  unfold PgTable.pgtShrink
  cases root : table.rootEntry with
  | empty =>
    have absent : table.rootEntry.isPresent = false := by rw [root]; rfl
    refine ⟨⟨⟨?_, ⟨0, by decide, rfl⟩, pageTableMask_eq, Nat.dvd_zero _, Nat.two_pow_pos 64⟩, fun address => ?_, rfl⟩,
      nofun⟩
    · show table.rootEntry.Wf _ _
      rw [root]
      trivial
    · rw [@find_of_absent table _ absent]
      exact find_of_absent absent
  | leaf held => exact ⟨.refl sound, nofun⟩
  | node count entries =>
    have wf := sound.wf
    rw [root] at wf
    obtain ⟨room, counted, -, entriesWf⟩ := wf
    simp only
    by_cases single : count = 1
    · rw [if_neg (not_not.mpr single)]
      cases search : (List.finRange (2 ^ pteShiftPerDir)).find? fun i => (entries i).isPresent with
      | none => exact ⟨.refl sound, nofun⟩
      | some index =>
        have present := List.find?_some search
        obtain ⟨levels, le, shift⟩ := sound.levels
        obtain ⟨below, belowShift⟩ : ∃ below, table.indexShift = below + pteShiftPerDir :=
          ⟨4 * levels, by rw [shift, Nat.add_comm]⟩
        have small : below ≤ 60 := by
          simp only [pteShiftPerDir] at belowShift
          omega
        have aligned := sound.baseAligned
        simp only [belowShift, Nat.add_sub_cancel] at room entriesWf aligned ⊢
        rw [if_neg (Nat.not_lt.mpr (Nat.le_add_left _ _)), sound.mask, belowShift, spaceMask_shrink small,
          base_shrink aligned index.isLt]
        refine ⟨⟨⟨entriesWf index, ⟨levels - 1, by omega, ?_⟩, rfl, ?_, ?_⟩, fun address => ?_, rfl⟩, fun _ => rfl⟩
        · simp only [pteShiftPerDir, pageShiftMin] at belowShift room ⊢
          omega
        · exact Nat.dvd_add (Nat.dvd_trans (Nat.pow_dvd_pow 2 (Nat.le_add_right _ _)) aligned) (Nat.dvd_mul_left _ _)
        · have room := add_two_pow_le (Nat.add_le_add_right small pteShiftPerDir) aligned sound.baseSmall
          have inBlock := @digit_mul_lt below index index.isLt
          show table.virBaseAddr + (index : Nat) * 2 ^ below < 2 ^ 64
          omega
        · rw [find, find, root, belowShift]
          exact find_single aligned (counted.symm.trans single) present
    · rw [if_pos single]
      exact ⟨.refl sound, nofun⟩

/-- Shrinking has an end: what did not shrink does not shrink. -/
theorem pgtShrink_done {shrunk : PgTable} (stopped : table.pgtShrink = (shrunk, false)) :
    shrunk.pgtShrink.2 = false := by
  have same := stopped
  unfold PgTable.pgtShrink at stopped
  cases root : table.rootEntry with
  | empty =>
    obtain ⟨rfl, -⟩ := Prod.mk.inj stopped
    unfold PgTable.pgtShrink pgTableReset
    rw [root]
  | leaf held =>
    rw [root] at stopped
    obtain ⟨rfl, -⟩ := Prod.mk.inj stopped
    rw [same]
  | node count entries =>
    rw [root] at stopped
    have unchanged : table = shrunk := by
      simp only at stopped
      split at stopped
      · exact (Prod.mk.inj stopped).1
      · split at stopped
        · exact (Prod.mk.inj stopped).1
        · split at stopped
          · exact (Prod.mk.inj stopped).1
          · cases (Prod.mk.inj stopped).2
    rw [← unchanged, same]

theorem Sound.shrinkLoop : ∀ (fuel : Nat) (table : PgTable), table.Sound →
    Reshaped table (table.shrinkLoop fuel) ∧
      (table.indexShift < 4 * fuel → (table.shrinkLoop fuel).pgtShrink.2 = false)
  | 0, table, sound => ⟨.refl sound, fun lt => absurd lt (by omega)⟩
  | fuel + 1, table, sound => by
    obtain ⟨reshaped, shallower⟩ := sound.pgtShrink
    rw [PgTable.shrinkLoop]
    generalize shrinks : table.pgtShrink = result at reshaped shallower
    obtain ⟨shrunk, again⟩ := result
    cases again with
    | false => exact ⟨reshaped, fun _ => pgtShrink_done shrinks⟩
    | true =>
      obtain ⟨further, stops⟩ := Sound.shrinkLoop fuel shrunk reshaped.sound
      have less : shrunk.indexShift + 4 = table.indexShift := shallower rfl
      exact ⟨reshaped.trans further, fun lt => stops (by omega)⟩

theorem Sound.shrinkAll (sound : table.Sound) : Reshaped table table.shrinkAll := (Sound.shrinkLoop 17 table sound).1

/-! ## Pages -/

/-- The page is set to the value; outside of it nothing changes. -/
structure SetPage (address order : Nat) (value : Option (Nat × PgtRegion)) (table changed : PgTable) : Prop where
  sound : changed.Sound
  find : ∀ other, changed.find other = if InPage address order other then value else table.find other
  regionCount : changed.regionCount = table.regionCount

/-- A page of the table's orders in the word. -/
structure IsPage (address order : Nat) : Prop where
  levels : ∃ levels, order = pageShiftMin + 4 * levels
  le : order ≤ 60
  aligned : 2 ^ order ∣ address
  small : address < 2 ^ 64

section Page

variable (page : IsPage address order) (sound : table.Sound)
include page sound

omit sound in
theorem validatePage_of_isPage : validatePage address order = true := by
  obtain ⟨⟨levels, rfl⟩, -, aligned, -⟩ := page
  exact validatePage_iff.mpr aligned

omit page sound in
/-- A change of the root in a page of its block is one of the table. -/
theorem find_of_setIn {value : Option (Nat × PgtRegion)} {changed : PgtEntry} (le : order ≤ table.indexShift)
    (inBlock : InPage table.virBaseAddr table.indexShift address)
    (set : SetIn address order value table.indexShift table.rootEntry changed) {other : Nat} :
    ({ table with rootEntry := changed } : PgTable).find other =
      if InPage address order other then value else table.find other := by
  rw [find, find]
  by_cases inRange : InPage table.virBaseAddr table.indexShift other
  · rw [if_pos inRange, if_pos inRange]
    exact set other (inRange.trans inBlock.symm)
  · have outside : ¬ InPage address order other := fun inPage => inRange ((inPage.mono le).trans inBlock)
    rw [if_neg inRange, if_neg inRange, if_neg outside]

/-- A page goes in if nothing is found in it; otherwise the table is as before. -/
theorem insertPage_spec : ∃ changed,
    (table.insertPage address order region = (changed, .nnOk) ∧
      (∀ other, InPage address order other → table.find other = none) ∧
      SetPage address order (some (order, region)) table changed) ∨
    (table.insertPage address order region = (changed, .nnError) ∧
      (∃ other, InPage address order other ∧ (table.find other).isSome = true) ∧ Reshaped table changed) := by
  have valid := validatePage_of_isPage page
  obtain ⟨⟨levels, rfl⟩, le, aligned, small⟩ := page
  obtain ⟨reshaped, enough, inBlock⟩ := sound.pgtEnsureCapacity small (Nat.le_trans le (by decide))
  rw [insertPage, valid]
  simp only
  generalize table.pgtEnsureCapacity (pageShiftMin + 4 * levels) address = wide at reshaped enough inBlock ⊢
  obtain ⟨depth, -, shift⟩ := reshaped.sound.levels
  have above : wide.indexShift = pageShiftMin + 4 * levels + pteShiftPerDir * (depth - levels) := by
    simp only [pageShiftMin, pteShiftPerDir] at enough ⊢
    omega
  have descent := @insertEntry_spec address (pageShiftMin + 4 * levels) region (Nat.le_add_right _ _) (depth - levels)
    (wide.indexShift + 1) wide.rootEntry (by omega) (above ▸ reshaped.sound.wf)
  rw [← above] at descent
  -- in the page the table finds what its root finds
  have inRoot : ∀ other, InPage address (pageShiftMin + 4 * levels) other →
      table.find other = wide.rootEntry.find wide.indexShift other := by
    intro other inPage
    rw [← reshaped.find]
    exact if_pos ((inPage.mono enough).trans inBlock)
  cases result : insertEntry address (pageShiftMin + 4 * levels) region (wide.indexShift + 1) wide.indexShift
      wide.rootEntry with
  | none =>
    rw [result] at descent
    obtain ⟨other, inPage, found⟩ := descent
    exact ⟨_, .inr ⟨rfl, ⟨other, inPage, inRoot other inPage ▸ found⟩, reshaped.trans reshaped.sound.shrinkAll⟩⟩
  | some linked =>
    rw [result] at descent
    refine ⟨_, .inl ⟨rfl, fun other inPage => (inRoot other inPage).trans (descent.free other inPage),
      { reshaped.sound with wf := descent.wf }, fun other => ?_, reshaped.regionCount⟩⟩
    rw [← reshaped.find]
    exact find_of_setIn enough inBlock descent.found

/-- A page comes out if it is there with the region; otherwise the table stays. -/
theorem removePage_spec :
    (∃ changed, table.removePage address order region = (changed, .nnOk) ∧ table.find address = some (order, region) ∧
      SetPage address order none table changed) ∨
    (table.removePage address order region = (table, .nnError) ∧ table.find address ≠ some (order, region)) := by
  rw [removePage, validatePage_of_isPage page]
  simp only [ne_eq, sound.inBlock_iff page.small]
  by_cases inBlock : InPage table.virBaseAddr table.indexShift address
  · have inRoot : table.find address = table.rootEntry.find table.indexShift address := if_pos inBlock
    have descent := @unlinkRegion_spec address order region table.rootEntry table.indexShift sound.wf
    rw [if_neg (not_not.mpr inBlock), inRoot]
    cases result : unlinkRegion address order region table.rootEntry table.indexShift with
    | none =>
      rw [result] at descent
      exact .inr ⟨rfl, descent⟩
    | some rest =>
      rw [result] at descent
      obtain ⟨here, unlinked⟩ := descent
      have restSound : ({ table with rootEntry := rest } : PgTable).Sound := { sound with wf := unlinked.wf }
      have shrunk := restSound.shrinkAll
      refine .inl ⟨_, rfl, here, shrunk.sound, fun other => ?_, shrunk.regionCount⟩
      rw [shrunk.find]
      exact find_of_setIn (Radix.find_shift_le _ _ here) inBlock unlinked.found
  · have nothing : table.find address = none := if_neg inBlock
    rw [if_pos inBlock, nothing]
    exact .inr ⟨rfl, nofun⟩

end Page

end PgTable

end UbsComm.Memory
