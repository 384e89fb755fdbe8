import UbsComm.Memory.PageTable

/-! # Linking a page into a tree and unlinking it

What `find` gives in the block that a tree stands for, before and after. -/

namespace UbsComm.Memory

open Library Function

variable {address order shift count : Nat} {region : PgtRegion} {entry linked : PgtEntry}
  {entries : Fin (2 ^ pteShiftPerDir) → PgtEntry}

theorem pteIndex_eq_digit {address shift : Nat} : pteIndex address shift = digit pteShiftPerDir shift address := by
  apply Fin.ext
  show (address >>> shift) &&& (2 ^ 4 - 1) = address / 2 ^ shift % 2 ^ 4
  rw [Nat.and_two_pow_sub_one_eq_mod, Nat.shiftRight_eq_div_pow]

def InPage (address order other : Nat) : Prop := other / 2 ^ order = address / 2 ^ order

instance (address order other : Nat) : Decidable (InPage address order other) :=
  inferInstanceAs (Decidable (_ = _))

theorem InPage.mono {other larger : Nat} (inPage : InPage address order other) (le : order ≤ larger) :
    InPage address larger other := by
  obtain ⟨more, rfl⟩ := Nat.exists_eq_add_of_le le
  rw [InPage, Nat.pow_add, ← Nat.div_div_eq_div_mul, ← Nat.div_div_eq_div_mul, inPage]

theorem inPage_of_digit {other : Nat} (inBlock : InPage address (shift + pteShiftPerDir) other) :
    digit pteShiftPerDir shift other = digit pteShiftPerDir shift address ↔ InPage address shift other :=
  digit_eq_digit_iff inBlock

/-- The page is set to the value, and the rest of the block is as in `entry`. -/
def SetIn (address order : Nat) (value : Option (Nat × PgtRegion)) (shift : Nat) (entry changed : PgtEntry) : Prop :=
  ∀ other, InPage address shift other →
    changed.find shift other = if InPage address order other then value else entry.find shift other

/-- From the entry below to its directory. -/
theorem SetIn.dir {value : Option (Nat × PgtRegion)} {changed : PgtEntry} (newCount : Nat) (le : order ≤ shift)
    (below : SetIn address order value shift (entries (digit pteShiftPerDir shift address)) changed) :
    SetIn address order value (shift + pteShiftPerDir) (.node count entries)
      (.node newCount (update entries (digit pteShiftPerDir shift address) changed)) := by
  intro other inBlock
  rw [@Radix.find_update _ _ _ _ count]
  simp only [inPage_of_digit inBlock]
  by_cases here : InPage address shift other
  · rw [if_pos here, below other here, Radix.find_node, (inPage_of_digit inBlock).mpr here]
  · have outside : ¬ InPage address order other := fun inPage => here (inPage.mono le)
    rw [if_neg here, if_neg outside]

/-! ## Linking -/

/-- The tree `linked` is `entry` with the page as a leaf. -/
structure Linked (address order : Nat) (region : PgtRegion) (shift : Nat) (entry linked : PgtEntry) : Prop where
  wf : linked.Wf pageShiftMin shift
  present : linked.isPresent = true
  free : ∀ other, InPage address order other → entry.find shift other = none
  found : ∀ other, InPage address shift other →
    linked.find shift other = if InPage address order other then some (order, region) else entry.find shift other

/-- From the entry below to its directory, which may be a new one. -/
theorem Linked.dir (le : order ≤ shift) (low : pageShiftMin ≤ order) (counted : count = Radix.presentCount entries)
    (wf : ∀ i, (entries i).Wf pageShiftMin shift)
    (below : Linked address order region shift (entries (digit pteShiftPerDir shift address)) linked) :
    Linked address order region (shift + pteShiftPerDir) (.node count entries)
      (.node (if (entries (digit pteShiftPerDir shift address)).isPresent then count else count + 1)
        (update entries (digit pteShiftPerDir shift address) linked)) where
  wf := by
    have pos := Radix.presence_le_presentCount entries (digit pteShiftPerDir shift address)
    have present := below.present
    apply Radix.wf_update (Nat.le_trans low le) counted wf below.wf
    · unfold Radix.presence at pos
      split <;> simp_all; omega
    · unfold Radix.presence
      split <;> simp_all
  present := rfl
  free := by
    intro other inPage
    rw [Radix.find_node, (inPage_of_digit (inPage.mono (by omega))).mpr (inPage.mono le)]
    exact below.free other inPage
  found := SetIn.dir _ le below.found

/-- The descent links the page, or something is found in it. -/
theorem insertEntry_spec (low : pageShiftMin ≤ order) : ∀ (levels fuel : Nat) (entry : PgtEntry), levels < fuel →
    entry.Wf pageShiftMin (order + pteShiftPerDir * levels) →
    match insertEntry address order region fuel (order + pteShiftPerDir * levels) entry with
    | none => ∃ other, InPage address order other ∧ (entry.find (order + pteShiftPerDir * levels) other).isSome = true
    | some linked => Linked address order region (order + pteShiftPerDir * levels) entry linked
  | _, 0, _, enough, _ => absurd enough (Nat.not_lt_zero _)
  | 0, fuel + 1, entry, _, wf => by
    simp only [Nat.mul_zero, Nat.add_zero] at wf ⊢
    rw [insertEntry.eq_def]
    simp only [if_true]
    cases present : entry.isPresent with
    | true => exact Radix.Wf.exists_find entry order _ wf present
    | false =>
      rw [Radix.isPresent_eq_false.mp present]
      exact {
        wf := low
        present := rfl
        free := fun _ _ => rfl
        found := fun other inPage => by rw [if_pos inPage, Radix.find_leaf] }
  | levels + 1, fuel + 1, entry, enough, wf => by
    have level : order + pteShiftPerDir * (levels + 1) = order + pteShiftPerDir * levels + pteShiftPerDir := by
      rw [Nat.mul_succ, Nat.add_assoc]
    rw [level] at *
    have deeper : ¬ order = order + pteShiftPerDir * levels + pteShiftPerDir := by
      simp only [pteShiftPerDir]
      omega
    have room : ¬ order + pteShiftPerDir * levels + pteShiftPerDir < pteShiftPerDir + order := by omega
    rw [insertEntry.eq_def]
    simp only [if_neg deeper, Nat.add_sub_cancel, pteIndex_eq_digit]
    cases entry with
    | leaf held => exact ⟨address, rfl, rfl⟩
    | empty =>
      simp only [if_neg room]
      have below := @insertEntry_spec low levels fuel .empty (by omega) trivial
      cases result : insertEntry address order region fuel (order + pteShiftPerDir * levels) .empty with
      | none =>
        rw [result] at below
        obtain ⟨other, _, found⟩ := below
        cases found
      | some linked =>
        rw [result] at below
        -- the new directory is one without entries that the page goes into
        have linkedDir := @Linked.dir _ _ _ 0 _ _ (fun _ => .empty) (Nat.le_add_right _ _) low
          (Radix.presentCount_eq_zero.mpr fun _ => rfl).symm (fun _ => trivial) below
        exact { linkedDir with
          free := fun _ _ => rfl
          found := fun other inBlock => linkedDir.found other inBlock }
    | node count entries =>
      obtain ⟨-, counted, -, entriesWf⟩ := Radix.wf_node.mp wf
      simp only [if_neg room]
      have below := @insertEntry_spec low levels fuel
        (entries (digit pteShiftPerDir (order + pteShiftPerDir * levels) address)) (by omega) (entriesWf _)
      cases result : insertEntry address order region fuel (order + pteShiftPerDir * levels)
          (entries (digit pteShiftPerDir (order + pteShiftPerDir * levels) address)) with
      | none =>
        rw [result] at below
        obtain ⟨other, inPage, found⟩ := below
        refine ⟨other, inPage, ?_⟩
        rw [Radix.find_node, (inPage_of_digit (inPage.mono (by omega))).mpr (inPage.mono (by omega))]
        exact found
      | some linked =>
        rw [result] at below
        exact below.dir (Nat.le_add_right _ _) low counted entriesWf

/-! ## Unlinking -/

/-- The tree `rest` is `entry` without the page. -/
structure Unlinked (address order shift : Nat) (entry rest : PgtEntry) : Prop where
  wf : rest.Wf pageShiftMin shift
  found : ∀ other, InPage address shift other →
    rest.find shift other = if InPage address order other then none else entry.find shift other

theorem find_of_presentCount_eq_zero (absent : Radix.presentCount entries = 0) (other : Nat) :
    (Radix.node count entries).find shift other = none := by
  rw [Radix.find, Radix.presentCount_eq_zero.mp absent, Radix.find_empty]

/-- From the entry below to its directory, which goes with its last entry. -/
theorem Unlinked.dir {rest : PgtEntry} (le : order ≤ shift) (low : pageShiftMin ≤ shift)
    (counted : count = Radix.presentCount entries) (wf : ∀ i, (entries i).Wf pageShiftMin shift)
    (present : (entries (digit pteShiftPerDir shift address)).isPresent = true)
    (below : Unlinked address order shift (entries (digit pteShiftPerDir shift address)) rest) :
    Unlinked address order (shift + pteShiftPerDir) (.node count entries)
      (if (if rest.isPresent then count else count - 1) = 0 then .empty
      else .node (if rest.isPresent then count else count - 1)
        (update entries (digit pteShiftPerDir shift address) rest)) := by
  have updated := Radix.presentCount_update entries (digit pteShiftPerDir shift address) rest
  generalize newCountEq : (if rest.isPresent then count else count - 1) = newCount
  have newCounted : newCount + (entries (digit pteShiftPerDir shift address)).presence = count + rest.presence := by
    have pos := Radix.presence_le_presentCount entries (digit pteShiftPerDir shift address)
    rw [← newCountEq]
    unfold Radix.presence at pos ⊢
    split <;> simp_all
    omega
  have found := @SetIn.dir _ _ _ count _ _ _ newCount le below.found
  by_cases last : newCount = 0
  · rw [if_pos last]
    have absent : Radix.presentCount (update entries (digit pteShiftPerDir shift address) rest) = 0 := by omega
    exact ⟨trivial, fun other inBlock => by rw [← found other inBlock, find_of_presentCount_eq_zero absent]; rfl⟩
  · rw [if_neg last]
    exact ⟨Radix.wf_update low counted wf below.wf (Nat.pos_of_ne_zero last) newCounted, found⟩

/-- The descent unlinks the page if its address leads to the region at that order. -/
theorem unlinkRegion_spec : ∀ (entry : PgtEntry) (shift : Nat), entry.Wf pageShiftMin shift →
    match unlinkRegion address order region entry shift with
    | none => entry.find shift address ≠ some (order, region)
    | some rest => entry.find shift address = some (order, region) ∧ Unlinked address order shift entry rest
  | .empty, shift, _ => nofun
  | .leaf held, shift, _ => by
    rw [unlinkRegion, Radix.find_leaf]
    by_cases level : shift = order
    · subst level
      by_cases same : held = region
      · subst same
        simp only [ne_eq, not_true, if_false]
        exact ⟨trivial, trivial, fun other inPage => by rw [if_pos inPage, Radix.find_empty]⟩
      · simp only [ne_eq, not_true, if_false, same, not_false_eq_true, if_true]
        exact fun equal => same (Prod.mk.inj (Option.some.inj equal)).2
    · simp only [ne_eq, level, not_false_eq_true, if_true]
      exact fun equal => level (Prod.mk.inj (Option.some.inj equal)).1
  | .node count entries, shift, wf => by
    obtain ⟨rest, rfl⟩ : ∃ rest, shift = rest + pteShiftPerDir :=
      ⟨shift - pteShiftPerDir, (Nat.sub_add_cancel (Nat.le_trans (Nat.le_add_left _ _) wf.1)).symm⟩
    obtain ⟨low, counted, -, entriesWf⟩ := Radix.wf_node.mp wf
    rw [unlinkRegion, Radix.find_node]
    simp only [Nat.add_sub_cancel, pteIndex_eq_digit]
    have below := unlinkRegion_spec (entries (digit pteShiftPerDir rest address)) rest (entriesWf _)
    cases result : unlinkRegion address order region (entries (digit pteShiftPerDir rest address)) rest with
    | none =>
      rw [result] at below
      exact below
    | some child =>
      rw [result] at below
      obtain ⟨here, unlinked⟩ := below
      have present : (entries (digit pteShiftPerDir rest address)).isPresent = true := by
        cases absent : (entries (digit pteShiftPerDir rest address)).isPresent with
        | true => rfl
        | false =>
          rw [Radix.isPresent_eq_false.mp absent] at here
          cases here
      exact ⟨here, unlinked.dir (Radix.find_shift_le _ _ here) low counted entriesWf present⟩

end UbsComm.Memory
