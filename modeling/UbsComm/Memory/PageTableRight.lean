import UbsComm.Memory.PageTableSound

/-! # Regions in and out of the table

A region is inserted page by page, and taken back page by page when one of its pages is taken; the pages
that go in and those that come out are the same.  So the table holds the regions inserted and not
removed, each with all of its pages. -/

namespace UbsComm.Memory

open Library List

namespace PgTable

variable {table changed : PgTable} {address start stop order : Nat} {region : PgtRegion}

/-- A range of addresses is set to the values; outside of it nothing changes. -/
structure SetRange (start stop : Nat) (value : Nat → Option (Nat × PgtRegion)) (table changed : PgTable) : Prop where
  sound : changed.Sound
  find : ∀ address, changed.find address =
    if start ≤ address ∧ address < stop then value address else table.find address
  regionCount : changed.regionCount = table.regionCount

theorem SetRange.nil {value : Nat → Option (Nat × PgtRegion)} (sound : table.Sound) (le : stop ≤ start) :
    SetRange start stop value table table :=
  ⟨sound, fun _ => (if_neg (by omega)).symm, rfl⟩

variable {middle : PgTable}

theorem SetRange.cons {pageValue : Option (Nat × PgtRegion)}
    {restValue value : Nat → Option (Nat × PgtRegion)} (page : SetPage start order pageValue table middle)
    (rest : SetRange (start + 2 ^ order) stop restValue middle changed) (aligned : 2 ^ order ∣ start)
    (le : start + 2 ^ order ≤ stop) (first : ∀ address, address < start + 2 ^ order → value address = pageValue)
    (behind : ∀ address, ¬ address < start + 2 ^ order → value address = restValue address) :
    SetRange start stop value table changed where
  sound := rest.sound
  find := by
    intro address
    rw [rest.find, page.find]
    simp only [inPage_iff aligned]
    by_cases before : address < start + 2 ^ order
    · rw [first address before, if_neg (by omega)]
      by_cases inside : start ≤ address
      · rw [if_pos ⟨inside, before⟩, if_pos (by omega)]
      · rw [if_neg (by omega), if_neg (by omega)]
    · rw [behind address before]
      by_cases inside : address < stop
      · rw [if_pos (by omega), if_pos (by omega)]
      · rw [if_neg (by omega), if_neg (by omega), if_neg (by omega)]
  regionCount := rest.regionCount.trans page.regionCount

theorem isPage_first (range : PageRange start stop) : IsPage start (firstOrder start stop) :=
  ⟨⟨_, rfl⟩, firstOrder_le range, (firstPage range).aligned, Nat.lt_trans range.lt range.small⟩

def pagesOf (region : PgtRegion) (start stop address : Nat) : Option (Nat × PgtRegion) :=
  some (orderAt start stop address, region)

theorem pagesOf_first (lt : start < stop) (first : address < start + 2 ^ firstOrder start stop) :
    pagesOf region start stop address = some (firstOrder start stop, region) := by
  rw [pagesOf, orderAt_first lt first]

theorem pagesOf_behind (lt : start < stop) (behind : ¬ address < start + 2 ^ firstOrder start stop) :
    pagesOf region start stop address = pagesOf region (start + 2 ^ firstOrder start stop) stop address := by
  rw [pagesOf, orderAt_behind lt behind, pagesOf]

/-! ## The loops -/

def FreeIn (start stop : Nat) (table : PgTable) : Prop :=
  ∀ address, start ≤ address → address < stop → table.find address = none

/-- Either the whole range was free and has the pages of the region, or the part before a taken page has. -/
def InsertedPages (region : PgtRegion) (address : Nat) (table : PgTable) : PgTable × Option Nat → Prop
  | (changed, none) => FreeIn address region.stop table ∧
      SetRange address region.stop (pagesOf region address region.stop) table changed
  | (changed, some failed) => address ≤ failed ∧ failed < region.stop ∧ 16 ∣ failed ∧ FreeIn address failed table ∧
      (∃ other, address ≤ other ∧ other < region.stop ∧ (table.find other).isSome = true) ∧
      SetRange address failed (pagesOf region address failed) table changed

theorem InsertedPages.cons {outcome : PgTable × Option Nat} (range : PageRange address region.stop)
    (free : ∀ other, InPage address (firstOrder address region.stop) other → table.find other = none)
    (page : SetPage address (firstOrder address region.stop)
      (some (firstOrder address region.stop, region)) table middle)
    (rest : InsertedPages region (address + 2 ^ firstOrder address region.stop) middle outcome) :
    InsertedPages region address table outcome := by
  have aligned : 2 ^ firstOrder address region.stop ∣ address := (firstPage range).aligned
  have stopLe := firstPage_stop_le range
  -- behind the page the table is as before it
  have behind : ∀ other, address + 2 ^ firstOrder address region.stop ≤ other →
      middle.find other = table.find other := by
    intro other ge
    rw [page.find, if_neg fun inPage => absurd ((inPage_iff aligned).mp inPage).2 (Nat.not_lt.mpr ge)]
  have freeUpTo : ∀ limit, FreeIn (address + 2 ^ firstOrder address region.stop) limit middle →
      FreeIn address limit table := by
    intro limit restFree other ge lt
    by_cases first : other < address + 2 ^ firstOrder address region.stop
    · exact free other ((inPage_iff aligned).mpr ⟨ge, first⟩)
    · rw [← behind other (Nat.not_lt.mp first)]
      exact restFree other (Nat.not_lt.mp first) lt
  obtain ⟨changed, none | failed⟩ := outcome
  · obtain ⟨restFree, setRest⟩ := rest
    exact ⟨freeUpTo _ restFree, setRest.cons page aligned stopLe (fun _ => pagesOf_first range.lt)
      (fun _ => pagesOf_behind range.lt)⟩
  · obtain ⟨failedGe, failedLt, failedAligned, restFree, ⟨other, ge, lt, found⟩, setRest⟩ := rest
    obtain ⟨cut, sameLevels⟩ := firstLevels_cut range failedAligned failedGe (Nat.le_of_lt failedLt)
    have sameOrder : firstOrder address failed = firstOrder address region.stop := by rw [firstOrder, sameLevels]
    refine ⟨Nat.le_trans (Nat.le_add_right _ _) failedGe, failedLt, failedAligned, freeUpTo _ restFree,
      ⟨other, Nat.le_trans (Nat.le_add_right _ _) ge, lt, behind other ge ▸ found⟩, ?_⟩
    rw [← sameOrder] at page setRest aligned failedGe
    exact setRest.cons page aligned failedGe (fun _ => pagesOf_first cut.lt) (fun _ => pagesOf_behind cut.lt)

theorem insertPages_spec : ∀ (fuel address : Nat) (table : PgTable), region.stop - address < fuel → 16 ∣ address →
    table.Sound → InsertedPages region address table (table.insertPages region fuel address)
  | 0, _, _, enough, _, _ => absurd enough (Nat.not_lt_zero _)
  | fuel + 1, address, table, enough, aligned, sound => by
    rw [insertPages]
    by_cases more : address < region.stop
    · have range : PageRange address region.stop := ⟨aligned, region.stopAligned, more, region.stopSmall⟩
      have page := isPage_first range
      have stopLe := firstPage_stop_le range
      have pos := Nat.two_pow_pos (firstOrder address region.stop)
      have orderLe := firstOrder_le range
      simp only [if_pos more, getNextPageOrder_eq range, if_neg (by omega : ¬ firstOrder address region.stop ≥ 64)]
      obtain ⟨middle, ⟨ok, free, setPage⟩ | ⟨failed, ⟨other, inPage, found⟩, reshaped⟩⟩ :=
        @insertPage_spec table address _ region page sound
      · simp only [ok, advanceAddrByOrder_eq range]
        have rest := insertPages_spec fuel (address + 2 ^ firstOrder address region.stop) middle (by omega)
          (Nat.dvd_add aligned sixteen_dvd_page) setPage.sound
        exact rest.cons range free setPage
      · simp only [failed]
        have inside := (inPage_iff page.aligned).mp inPage
        refine ⟨Nat.le_refl _, more, aligned, fun other ge lt => absurd lt (by omega),
          ⟨other, inside.1, by omega, found⟩, reshaped.sound, fun other => ?_,
          reshaped.regionCount⟩
        rw [reshaped.find, if_neg (by omega)]
    · rw [if_neg more]
      exact ⟨fun other ge lt => absurd lt (by omega), .nil sound (by omega)⟩

def HoldsPages (region : PgtRegion) (start stop : Nat) (table : PgTable) : Prop :=
  ∀ address, start ≤ address → address < stop → table.find address = pagesOf region start stop address

section Removal

variable (range : PageRange start stop)
include range

/-- The first page comes out, and the others are still there. -/
theorem HoldsPages.removePage (sound : table.Sound) (holds : HoldsPages region start stop table) :
    ∃ changed, table.removePage start (firstOrder start stop) region = (changed, .nnOk) ∧
      SetPage start (firstOrder start stop) none table changed ∧
      HoldsPages region (start + 2 ^ firstOrder start stop) stop changed := by
  have pos := Nat.two_pow_pos (firstOrder start stop)
  have first := holds start (Nat.le_refl _) range.lt
  rw [pagesOf_first range.lt (by omega)] at first
  obtain ⟨changed, ok, -, setPage⟩ | ⟨-, absent⟩ := @removePage_spec table start _ region (isPage_first range) sound
  · refine ⟨changed, ok, setPage, fun address ge lt => ?_⟩
    have behind : ¬ InPage start (firstOrder start stop) address := fun inPage =>
      absurd ((inPage_iff (isPage_first range).aligned).mp inPage).2 (Nat.not_lt.mpr ge)
    rw [setPage.find, if_neg behind, holds address (Nat.le_trans (Nat.le_add_right _ _) ge) lt,
      pagesOf_behind range.lt (Nat.not_lt.mpr ge)]
  · exact absurd first absent

theorem SetRange.cons_none (page : SetPage start (firstOrder start stop) none table middle)
    (rest : SetRange (start + 2 ^ firstOrder start stop) stop (fun _ => none) middle changed) :
    SetRange start stop (fun _ => none) table changed :=
  rest.cons page (isPage_first range).aligned (firstPage_stop_le range) (fun _ _ => rfl) (fun _ _ => rfl)

end Removal

theorem rollbackPages_spec (stopAligned : 16 ∣ stop) (small : stop < 2 ^ 64) : ∀ (fuel address : Nat) (table : PgTable),
    stop - address < fuel → 16 ∣ address → table.Sound → HoldsPages region address stop table →
    SetRange address stop (fun _ => none) table (table.rollbackPages region stop fuel address)
  | 0, _, _, enough, _, _, _ => absurd enough (Nat.not_lt_zero _)
  | fuel + 1, address, table, enough, aligned, sound, holds => by
    rw [rollbackPages]
    by_cases more : address < stop
    · have range : PageRange address stop := ⟨aligned, stopAligned, more, small⟩
      have pos := Nat.two_pow_pos (firstOrder address stop)
      obtain ⟨middle, ok, setPage, restHolds⟩ := holds.removePage range sound
      simp only [if_pos more, getNextPageOrder_eq range, advanceAddrByOrder_eq range, ok]
      exact .cons_none range setPage (rollbackPages_spec stopAligned small fuel _ _ (by omega)
        (Nat.dvd_add aligned sixteen_dvd_page) setPage.sound restHolds)
    · rw [if_neg more]
      exact .nil sound (by omega)

theorem removePages_spec : ∀ (fuel address : Nat) (table : PgTable),
    region.stop - address < fuel → 16 ∣ address → table.Sound → HoldsPages region address region.stop table →
    ∃ changed, table.removePages region fuel address = (changed, .nnOk) ∧
      SetRange address region.stop (fun _ => none) table changed
  | 0, _, _, enough, _, _, _ => absurd enough (Nat.not_lt_zero _)
  | fuel + 1, address, table, enough, aligned, sound, holds => by
    rw [removePages]
    by_cases more : address < region.stop
    · have range : PageRange address region.stop := ⟨aligned, region.stopAligned, more, region.stopSmall⟩
      have pos := Nat.two_pow_pos (firstOrder address region.stop)
      have orderLe := firstOrder_le range
      obtain ⟨middle, ok, setPage, restHolds⟩ := holds.removePage range sound
      simp only [if_pos more, getNextPageOrder_eq range, advanceAddrByOrder_eq range,
        if_neg (by omega : ¬ firstOrder address region.stop ≥ 64), ok]
      obtain ⟨changed, ok, setRest⟩ :=
        removePages_spec fuel _ _ (by omega) (Nat.dvd_add aligned sixteen_dvd_page) setPage.sound restHolds
      exact ⟨changed, ok, .cons_none range setPage setRest⟩
    · rw [if_neg more]
      exact ⟨table, rfl, .nil sound (by omega)⟩

/-! ## The calls -/

theorem wrongRegion_eq_false : wrongRegion region = false ↔ region.start < region.stop := by
  simp [wrongRegion, isAddrAligned_iff.mpr region.startAligned, isAddrAligned_iff.mpr region.stopAligned]

theorem wrongRegion_eq_true : wrongRegion region = true ↔ ¬ region.start < region.stop := by
  rw [← wrongRegion_eq_false, Bool.not_eq_false]

/-- A region goes in with all its pages if its addresses are free; otherwise the table is as before. -/
theorem insert_spec (sound : table.Sound) (lt : region.start < region.stop) : ∃ changed,
    (table.insert region = (changed, .nnOk) ∧ FreeIn region.start region.stop table ∧ changed.Sound ∧
      changed.regionCount = table.regionCount + 1 ∧
      ∀ address, changed.find address = if region.start ≤ address ∧ address < region.stop then
        pagesOf region region.start region.stop address else table.find address) ∨
    (table.insert region = (changed, .nnError) ∧
      (∃ other, region.start ≤ other ∧ other < region.stop ∧ (table.find other).isSome = true) ∧
      Reshaped table changed) := by
  rw [insert, wrongRegion_eq_false.mpr lt]
  have loop :=
    @insertPages_spec region (pagesFuel region) region.start table (Nat.lt_succ_self _) region.startAligned sound
  generalize table.insertPages region (pagesFuel region) region.start = outcome at loop ⊢
  obtain ⟨changed, none | failed⟩ := outcome
  · obtain ⟨free, setRange⟩ := loop
    exact ⟨_, .inl ⟨rfl, free, { setRange.sound with }, congrArg (· + 1) setRange.regionCount, setRange.find⟩⟩
  · obtain ⟨-, failedLt, failedAligned, free, taken, setRange⟩ := loop
    have holds : HoldsPages region region.start failed changed := fun address ge lt => by
      rw [setRange.find, if_pos ⟨ge, lt⟩]
    have back := rollbackPages_spec failedAligned (Nat.lt_trans failedLt region.stopSmall) (pagesFuel region)
      region.start changed (by unfold pagesFuel; omega) region.startAligned setRange.sound holds
    refine ⟨_, .inr ⟨rfl, taken, back.sound, fun address => ?_, back.regionCount.trans setRange.regionCount⟩⟩
    rw [back.find, setRange.find]
    by_cases inside : region.start ≤ address ∧ address < failed
    · -- what was inserted there had been free
      rw [if_pos inside, free address inside.1 inside.2]
    · rw [if_neg inside, if_neg inside]

/-- A region comes out with all its pages if they are there; otherwise the table stays. -/
theorem remove_of_holds (sound : table.Sound) (lt : region.start < region.stop)
    (holds : HoldsPages region region.start region.stop table) :
    ∃ changed, table.remove region = (changed, .nnOk) ∧ changed.Sound ∧ changed.regionCount = table.regionCount - 1 ∧
      ∀ address, changed.find address =
        if region.start ≤ address ∧ address < region.stop then none else table.find address := by
  obtain ⟨changed, ok, setRange⟩ := @removePages_spec region (pagesFuel region) region.start table (Nat.lt_succ_self _)
    region.startAligned sound holds
  rw [remove, wrongRegion_eq_false.mpr lt]
  simp only [ok]
  exact ⟨_, rfl, { setRange.sound with }, congrArg (· - 1) setRange.regionCount, setRange.find⟩

theorem remove_of_absent (sound : table.Sound) (absent : ∀ order, table.find region.start ≠ some (order, region)) :
    ∃ result, table.remove region = (table, result) ∧ result ≠ .nnOk := by
  rw [remove]
  by_cases lt : region.start < region.stop
  · have range : PageRange region.start region.stop := ⟨region.startAligned, region.stopAligned, lt, region.stopSmall⟩
    rw [pagesFuel, removePages]
    simp only [if_pos lt, getNextPageOrder_eq range]
    obtain ⟨-, -, found, -⟩ | ⟨failed, -⟩ := @removePage_spec table region.start _ region (isPage_first range) sound
    · exact absurd found (absent _)
    · simp only [failed, ite_self]
      exact ⟨_, rfl, nofun⟩
  · rw [wrongRegion_eq_true.mpr lt]
    exact ⟨_, rfl, nofun⟩

theorem insert_of_empty (empty : ¬ region.start < region.stop) : table.insert region = (table, .nnInvalidParam) := by
  rw [insert, wrongRegion_eq_true.mpr empty]
  rfl

end PgTable

/-! ## Runs -/

inductive PgtCall where
  | insert (region : PgtRegion)
  | remove (region : PgtRegion)

/-- The table and the regions that were inserted and not removed, by the results of the calls. -/
structure Registry where
  table : PgTable
  held : List PgtRegion

namespace Registry

def new : Registry := ⟨.new, []⟩

def step (registry : Registry) : PgtCall → Registry
  | .insert region =>
    match registry.table.insert region with
    | (table, .nnOk) => ⟨table, region :: registry.held⟩
    | (table, _) => ⟨table, registry.held⟩
  | .remove region =>
    match registry.table.remove region with
    | (table, .nnOk) => ⟨table, registry.held.erase region⟩
    | (table, _) => ⟨table, registry.held⟩

def run (calls : List PgtCall) : Registry := calls.foldl step new

/-- The table has the pages of the regions held and no others. -/
structure Right (registry : Registry) : Prop where
  sound : registry.table.Sound
  nodup : registry.held.Nodup
  nonempty : ∀ region ∈ registry.held, region.start < region.stop
  found : ∀ address order region, registry.table.find address = some (order, region) ↔
    region ∈ registry.held ∧ region.start ≤ address ∧ address < region.stop ∧
      order = orderAt region.start region.stop address
  counted : registry.table.regionCount = registry.held.length

variable {registry : Registry} {region : PgtRegion} {address : Nat}

theorem new_right : new.Right where
  sound := PgTable.new_sound
  nodup := .nil
  nonempty := nofun
  found := by
    intro address order region
    rw [PgTable.find_of_absent rfl]
    exact ⟨nofun, fun ⟨held, _⟩ => nomatch held⟩
  counted := rfl

section Step

variable (right : registry.Right) {table : PgTable}
include right

theorem Right.isSome_find_iff : (registry.table.find address).isSome = true ↔
    ∃ region ∈ registry.held, region.start ≤ address ∧ address < region.stop := by
  rw [Option.isSome_iff_exists]
  constructor
  · rintro ⟨⟨order, region⟩, found⟩
    obtain ⟨held, ge, lt, -⟩ := (right.found _ _ _).mp found
    exact ⟨region, held, ge, lt⟩
  · rintro ⟨region, held, ge, lt⟩
    exact ⟨_, (right.found _ _ _).mpr ⟨held, ge, lt, rfl⟩⟩

theorem Right.holdsPages (held : region ∈ registry.held) :
    PgTable.HoldsPages region region.start region.stop registry.table :=
  fun _ ge lt => (right.found _ _ _).mpr ⟨held, ge, lt, rfl⟩

theorem Right.absent (outside : region ∉ registry.held) (order : Nat) :
    registry.table.find region.start ≠ some (order, region) :=
  fun found => outside ((right.found _ _ _).mp found).1

/-- A region whose addresses were free joins the others. -/
theorem Right.insert (lt : region.start < region.stop)
    (free : PgTable.FreeIn region.start region.stop registry.table) (sound : table.Sound)
    (count : table.regionCount = registry.table.regionCount + 1)
    (find : ∀ address, table.find address = if region.start ≤ address ∧ address < region.stop then
      PgTable.pagesOf region region.start region.stop address else registry.table.find address) :
    Right ⟨table, region :: registry.held⟩ := by
  -- no region held has an address of the new one
  have apart : ∀ other ∈ registry.held, ∀ address, other.start ≤ address → address < other.stop →
      ¬ (region.start ≤ address ∧ address < region.stop) := by
    intro other held address ge lt inside
    have taken := right.isSome_find_iff.mpr ⟨other, held, ge, lt⟩
    rw [free address inside.1 inside.2] at taken
    cases taken
  refine ⟨sound, ?_, ?_, fun address order other => ?_, ?_⟩
  · refine nodup_cons.mpr ⟨fun held => ?_, right.nodup⟩
    exact apart region held region.start (Nat.le_refl _) lt ⟨Nat.le_refl _, lt⟩
  · exact forall_mem_cons.mpr ⟨lt, right.nonempty⟩
  · rw [find, mem_cons]
    by_cases inside : region.start ≤ address ∧ address < region.stop
    · rw [if_pos inside, PgTable.pagesOf, Option.some.injEq, Prod.mk.injEq]
      constructor
      · rintro ⟨rfl, rfl⟩
        exact ⟨.inl rfl, inside.1, inside.2, rfl⟩
      · rintro ⟨rfl | held, ge, lt, rfl⟩
        · exact ⟨rfl, rfl⟩
        · exact absurd inside (apart other held address ge lt)
    · rw [if_neg inside, right.found]
      constructor
      · rintro ⟨held, rest⟩
        exact ⟨.inr held, rest⟩
      · rintro ⟨rfl | held, ge, lt, rfl⟩
        · exact absurd ⟨ge, lt⟩ inside
        · exact ⟨held, ge, lt, rfl⟩
  · rw [count, right.counted, length_cons]

/-- The others have no address of a region that goes. -/
theorem Right.remove (held : region ∈ registry.held) (sound : table.Sound)
    (count : table.regionCount = registry.table.regionCount - 1)
    (find : ∀ address, table.find address = if region.start ≤ address ∧ address < region.stop then none
      else registry.table.find address) : Right ⟨table, registry.held.erase region⟩ := by
  refine ⟨sound, right.nodup.erase _, fun other mem => right.nonempty other (mem_of_mem_erase mem),
    fun address order other => ?_, ?_⟩
  · rw [find, right.nodup.mem_erase_iff]
    by_cases inside : region.start ≤ address ∧ address < region.stop
    · rw [if_pos inside]
      constructor
      · nofun
      · rintro ⟨⟨ne, otherHeld⟩, ge, lt, rfl⟩
        have first := (right.found address _ _).mpr ⟨held, inside.1, inside.2, rfl⟩
        have second := (right.found address _ _).mpr ⟨otherHeld, ge, lt, rfl⟩
        exact absurd (Prod.mk.inj (Option.some.inj (second.symm.trans first))).2 ne
    · rw [if_neg inside, right.found]
      constructor
      · rintro ⟨otherHeld, ge, lt, rfl⟩
        refine ⟨⟨fun same => inside ?_, otherHeld⟩, ge, lt, rfl⟩
        rw [← same]
        exact ⟨ge, lt⟩
      · rintro ⟨⟨-, otherHeld⟩, rest⟩
        exact ⟨otherHeld, rest⟩
  · rw [count, right.counted, length_erase_of_mem held]

theorem Right.reshaped (reshaped : PgTable.Reshaped registry.table table) :
    Right ⟨table, registry.held⟩ where
  sound := reshaped.sound
  nodup := right.nodup
  nonempty := right.nonempty
  found := by
    intro address order region
    rw [reshaped.find]
    exact right.found address order region
  counted := reshaped.regionCount.trans right.counted

theorem Right.step {call : PgtCall} : (registry.step call).Right := by
  cases call with
  | insert region =>
    rw [Registry.step]
    by_cases lt : region.start < region.stop
    · obtain ⟨table, ⟨ok, free, sound, count, find⟩ | ⟨failed, -, reshaped⟩⟩ := PgTable.insert_spec right.sound lt
      · rw [ok]
        exact right.insert lt free sound count find
      · rw [failed]
        exact right.reshaped reshaped
    · rw [PgTable.insert_of_empty lt]
      exact right
  | remove region =>
    rw [Registry.step]
    by_cases held : region ∈ registry.held
    · obtain ⟨table, ok, sound, count, find⟩ :=
        PgTable.remove_of_holds right.sound (right.nonempty region held) (right.holdsPages held)
      rw [ok]
      exact right.remove held sound count find
    · obtain ⟨result, same, failed⟩ := PgTable.remove_of_absent right.sound (right.absent held)
      rw [same]
      cases result with
      | nnOk => exact absurd rfl failed
      | nnError | nnInvalidParam => exact right

end Step

theorem run_right (calls : List PgtCall) : (run calls).Right :=
  calls.foldlRecOn _ new_right fun _ right _ _ => right.step

def Overlap (region other : PgtRegion) : Prop := region.start < other.stop ∧ other.start < region.stop

theorem Right.insert_iff (right : registry.Right) : (registry.table.insert region).2 = .nnOk ↔
    region.start < region.stop ∧ ∀ other ∈ registry.held, ¬ Overlap region other := by
  by_cases lt : region.start < region.stop
  · obtain ⟨table, ⟨ok, free, -⟩ | ⟨failed, ⟨address, ge, below, taken⟩, -⟩⟩ := PgTable.insert_spec right.sound lt
    · refine iff_of_true (by rw [ok]) ⟨lt, fun other held overlap => ?_⟩
      obtain ⟨before, behind⟩ := overlap
      have otherLt := right.nonempty other held
      have found := right.isSome_find_iff.mpr
        ⟨other, held, Nat.le_max_right region.start other.start, Nat.max_lt.mpr ⟨before, otherLt⟩⟩
      rw [free _ (Nat.le_max_left _ _) (Nat.max_lt.mpr ⟨lt, behind⟩)] at found
      cases found
    · refine iff_of_false (by rw [failed]; nofun) fun ⟨_, apart⟩ => ?_
      obtain ⟨other, held, otherGe, otherBelow⟩ := right.isSome_find_iff.mp taken
      exact apart other held ⟨by omega, by omega⟩
  · rw [PgTable.insert_of_empty lt]
    exact iff_of_false nofun fun ⟨nonempty, _⟩ => lt nonempty

theorem Right.remove_iff (right : registry.Right) :
    (registry.table.remove region).2 = .nnOk ↔ region ∈ registry.held := by
  by_cases held : region ∈ registry.held
  · obtain ⟨table, ok, -⟩ :=
      PgTable.remove_of_holds right.sound (right.nonempty region held) (right.holdsPages held)
    exact iff_of_true (by rw [ok]) held
  · obtain ⟨result, same, failed⟩ := PgTable.remove_of_absent right.sound (right.absent held)
    exact iff_of_false (by rwa [same]) held

theorem Right.lookup_iff (right : registry.Right) (small : address < 2 ^ 64) :
    registry.table.lookup address = some region ↔
      region ∈ registry.held ∧ region.start ≤ address ∧ address < region.stop := by
  rw [right.sound.lookup_eq small]
  constructor
  · intro looked
    obtain ⟨⟨order, other⟩, found, inside⟩ := Option.bind_eq_some_iff.mp looked
    obtain ⟨held, ge, lt, -⟩ := (right.found _ _ _).mp found
    rw [if_pos ⟨ge, lt⟩, Option.some.injEq] at inside
    subst inside
    exact ⟨held, ge, lt⟩
  · rintro ⟨held, ge, lt⟩
    rw [(right.found _ _ _).mpr ⟨held, ge, lt, rfl⟩, Option.bind_some, if_pos ⟨ge, lt⟩]

/-- In every run a region is inserted if and only if it has addresses and overlaps no region held, one is removed
    if and only if it is held, and an address leads to the region held that it lies in. -/
theorem run_insert_and_lookup (calls : List PgtCall) :
    (∀ region, ((run calls).table.insert region).2 = .nnOk ↔
      region.start < region.stop ∧ ∀ other ∈ (run calls).held, ¬ Overlap region other) ∧
    (∀ region, ((run calls).table.remove region).2 = .nnOk ↔ region ∈ (run calls).held) ∧
    ∀ address < 2 ^ 64,
      (∀ region, (run calls).table.lookup address = some region ↔
        region ∈ (run calls).held ∧ region.start ≤ address ∧ address < region.stop) ∧
      (∀ region ∈ (run calls).held, ∀ other ∈ (run calls).held, region.start ≤ address → address < region.stop →
        other.start ≤ address → address < other.stop → region = other) := by
  have right := run_right calls
  refine ⟨fun _ => right.insert_iff, fun _ => right.remove_iff,
    fun address small => ⟨fun _ => right.lookup_iff small, ?_⟩⟩
  intro region held other otherHeld ge lt otherGe otherLt
  have first := (right.lookup_iff small).mpr ⟨held, ge, lt⟩
  have second := (right.lookup_iff small).mpr ⟨otherHeld, otherGe, otherLt⟩
  exact Option.some.inj (first.symm.trans second)

/-- No directory outlives the regions: each one counts its entries and has one, and the root is present exactly
    while some region is held. -/
theorem run_directories (calls : List PgtCall) :
    (run calls).table.rootEntry.Wf pageShiftMin (run calls).table.indexShift ∧
      ((run calls).table.rootEntry.isPresent = true ↔ (run calls).held ≠ []) := by
  have right := run_right calls
  refine ⟨right.sound.wf, ?_, ?_⟩
  · intro present nothing
    obtain ⟨address, inBlock, found⟩ := Radix.Wf.exists_find _ _ _ right.sound.wf present
    have here : (run calls).table.find address = (run calls).table.rootEntry.find _ address := if_pos inBlock
    obtain ⟨region, held, -⟩ := right.isSome_find_iff.mp (here ▸ found)
    rw [nothing] at held
    cases held
  · intro some
    obtain ⟨region, held⟩ := exists_mem_of_ne_nil _ some
    have found := right.isSome_find_iff.mpr ⟨region, held, Nat.le_refl _, right.nonempty region held⟩
    by_contra absent
    rw [PgTable.find_of_absent (Bool.not_eq_true _ ▸ absent)] at found
    cases found

def lowRegion : PgtRegion := ⟨0x1010, 0x3000, 1, by decide, by decide, by decide, by decide⟩

def highRegion : PgtRegion := ⟨0x3000, 0x10000000, 2, by decide, by decide, by decide, by decide⟩

/-- Two regions side by side, the first of them removed again. -/
def neighbours : List PgtCall := [.insert lowRegion, .insert highRegion, .insert lowRegion, .remove lowRegion]

theorem lookup_neighbours : (run neighbours).table.lookup 0x3000 = some highRegion :=
  (((run_insert_and_lookup neighbours).2.2 0x3000 (by decide)).1 highRegion).mpr
    ⟨by decide +kernel, by decide, by decide⟩

end Registry

end UbsComm.Memory
