import Mathlib.Algebra.Ring.Nat
import Mathlib.Data.List.Basic

/-! # Visiting the runs of a list

A loop over a list that collects neighbours with the same key and hands them over as one
batch when the key changes, and the last batch at the end. -/

namespace UbsComm.Library

open List

variable {α κ σ : Type*} {key : α → κ} {seen batch rest : List α} {batchKey : κ} {item : α}

/-- A batch is a run: not empty, of one key, and cut off from the items before it by a
change of the key. -/
structure IsRun (key : α → κ) (seen batch : List α) (batchKey : κ) : Prop where
  nonempty : batch ≠ []
  sameKey : ∀ item ∈ batch, key item = batchKey
  cut : ∀ last ∈ seen.getLast?, key last ≠ batchKey

theorem IsRun.first : IsRun key [] [item] (key item) := ⟨cons_ne_nil _ _, by simp, by simp⟩

theorem IsRun.snoc (run : IsRun key seen batch batchKey) (same : key item = batchKey) :
    IsRun key seen (batch ++ [item]) batchKey where
  nonempty := by simp
  sameKey := forall_mem_append.mpr ⟨run.sameKey, forall_mem_singleton.mpr same⟩
  cut := run.cut

theorem IsRun.next (run : IsRun key seen batch batchKey) (changed : key item ≠ batchKey) :
    IsRun key (seen ++ batch) [item] (key item) where
  nonempty := cons_ne_nil _ _
  sameKey := forall_mem_singleton.mpr rfl
  cut := by
    intro last found
    rw [getLast?_append_of_ne_nil _ run.nonempty] at found
    rw [run.sameKey last (mem_of_mem_getLast? found)]
    exact fun same => changed same.symm

variable [DecidableEq κ] {visit : σ → List α → σ} {motive : List α → σ → Prop} {state : σ} {list : List α}
  {p : α → Prop}

/-- `batch` is what has been collected under `batchKey`. -/
def foldRuns (key : α → κ) (visit : σ → List α → σ) (batchKey : κ) (batch : List α) : List α → σ → σ
  | [], state => visit state batch
  | item :: rest, state =>
    if key item = batchKey then foldRuns key visit batchKey (batch ++ [item]) rest state
    else foldRuns key visit (key item) [item] rest (visit state batch)

/-- The loop as it is started on a list, with its first item as the first batch. -/
def visitRuns (key : α → κ) (visit : σ → List α → σ) : List α → σ → σ
  | [], state => state
  | first :: rest, state => foldRuns key visit (key first) [first] rest state

/-- What every visit of a run carries on holds after the whole list. -/
theorem foldRuns_induction
    (visited : ∀ seen batch batchKey state, IsRun key seen batch batchKey → (∀ item ∈ batch, p item) →
      motive seen state →
      motive (seen ++ batch) (visit state batch))
    (run : IsRun key seen batch batchKey) (allBatch : ∀ item ∈ batch, p item) (allRest : ∀ item ∈ rest, p item)
    (start : motive seen state) : motive (seen ++ (batch ++ rest)) (foldRuns key visit batchKey batch rest state) := by
  induction rest generalizing seen batch batchKey state with
  | nil =>
    rw [append_nil]
    exact visited seen batch batchKey state run allBatch start
  | cons item rest ih =>
    rw [forall_mem_cons] at allRest
    rw [foldRuns]
    split
    · rename_i same
      have allLonger : ∀ other ∈ batch ++ [item], p other :=
        forall_mem_append.mpr ⟨allBatch, forall_mem_singleton.mpr allRest.1⟩
      have longer := ih (run.snoc same) allLonger allRest.2 start
      rwa [append_assoc] at longer
    · rename_i changed
      have later := ih (run.next changed) (forall_mem_singleton.mpr allRest.1) allRest.2
        (visited seen batch batchKey state run allBatch start)
      rwa [append_assoc] at later

theorem visitRuns_induction
    (visited : ∀ seen batch batchKey state, IsRun key seen batch batchKey → (∀ item ∈ batch, item ∈ list) →
      motive seen state → motive (seen ++ batch) (visit state batch))
    (start : motive [] state) : motive list (visitRuns key visit list state) := by
  cases list with
  | nil => exact start
  | cons first rest =>
    exact foldRuns_induction visited (.first) (forall_mem_singleton.mpr mem_cons_self)
      (fun item mem => mem_cons_of_mem _ mem) start

/-! ## Where the runs start -/

/-- The items whose key differs from that of the item before them. -/
def startsAfter (key : α → κ) (before : Option κ) : List α → List α
  | [] => []
  | item :: rest =>
    if some (key item) = before then startsAfter key before rest
    else item :: startsAfter key (some (key item)) rest

def runStarts (key : α → κ) (list : List α) : List α := startsAfter key none list

theorem startsAfter_sublist (before : Option κ) : (startsAfter key before list).Sublist list := by
  induction list generalizing before with
  | nil => exact .slnil
  | cons item rest ih =>
    rw [startsAfter]
    split
    · exact (ih before).cons item
    · exact (ih _).cons_cons item

theorem startsAfter_same (same : ∀ item ∈ batch, key item = batchKey) : startsAfter key (some batchKey) batch = [] := by
  induction batch with
  | nil => rfl
  | cons item rest ih =>
    rw [startsAfter, if_pos (congrArg some (same item mem_cons_self))]
    exact ih fun other mem => same other (mem_cons_of_mem _ mem)

theorem IsRun.runStarts_append (run : IsRun key seen batch batchKey) :
    runStarts key (seen ++ batch) = runStarts key seen ++ [batch.head run.nonempty] := by
  have start : ∀ before : Option κ, before ≠ some batchKey →
      startsAfter key before batch = [batch.head run.nonempty] := by
    intro before ne
    obtain ⟨item, rest, rfl⟩ := exists_cons_of_ne_nil run.nonempty
    have itemKey := run.sameKey item mem_cons_self
    rw [startsAfter, itemKey, if_neg (Ne.symm ne),
      startsAfter_same fun other mem => run.sameKey other (mem_cons_of_mem _ mem)]
    rfl
  have walk : ∀ (earlier : List α) (before : Option κ), (∀ last ∈ earlier.getLast?, key last ≠ batchKey) →
      (earlier = [] → before ≠ some batchKey) →
      startsAfter key before (earlier ++ batch) = startsAfter key before earlier ++ [batch.head run.nonempty] := by
    intro earlier
    induction earlier with
    | nil =>
      intro before _ ne
      exact start before (ne rfl)
    | cons item later ih =>
      intro before cut _
      have cutLater : ∀ last ∈ later.getLast?, key last ≠ batchKey := by
        intro last found
        apply cut last
        rw [getLast?_cons, Option.mem_def.mp found]
        rfl
      have itemDiffers : later = [] → some (key item) ≠ some batchKey := by
        rintro rfl same
        exact cut item (by simp) (Option.some.inj same)
      rw [cons_append, startsAfter, startsAfter]
      split
      · rename_i same
        exact ih before cutLater fun empty => same ▸ itemDiffers empty
      · rw [ih _ cutLater itemDiffers, cons_append]
  exact walk seen none run.cut fun _ => by simp

/-- All items of a kind start a run just when no two of them are neighbours. -/
theorem mem_runStarts_iff_isChain (nodup : list.Nodup)
    (kind : ∀ first ∈ list, p first → ∀ second ∈ list, (p second ↔ key second = key first)) :
    (∀ item ∈ list, p item → item ∈ runStarts key list) ↔ list.IsChain fun first second => ¬ (p first ∧ p second) := by
  -- generalised to a list that stands behind an item whose key is given
  have walk : ∀ (rest : List α) (first : α), (first :: rest).Nodup →
      (∀ one ∈ first :: rest, p one → ∀ two ∈ first :: rest, (p two ↔ key two = key one)) →
      ((∀ item ∈ rest, p item → item ∈ startsAfter key (some (key first)) rest) ↔
        (first :: rest).IsChain fun one two => ¬ (p one ∧ p two)) := by
    intro rest
    induction rest with
    | nil => simp
    | cons item rest ih =>
      intro first nodup kind
      have itemFresh : item ∉ rest := (nodup_cons.mp (nodup_cons.mp nodup).2).1
      have later := ih item (nodup_cons.mp nodup).2
        (fun one mem is two listedTwo =>
          kind one (mem_cons_of_mem _ mem) is two (mem_cons_of_mem _ listedTwo))
      have together : p item → (p first ↔ key first = key item) := fun is =>
        kind item (by simp) is first mem_cons_self
      rw [isChain_cons_cons, ← later, startsAfter, forall_mem_cons]
      split
      · rename_i same
        have same := Option.some.inj same
        have notStart : item ∉ startsAfter key (some (key first)) rest := fun mem =>
          itemFresh ((startsAfter_sublist _).mem mem)
        rw [same]
        constructor
        · rintro ⟨itemStarts, restStart⟩
          exact ⟨fun both => notStart (itemStarts both.2), restStart⟩
        · rintro ⟨apart, restStart⟩
          exact ⟨fun is => absurd ⟨(together is).mpr same.symm, is⟩ apart, restStart⟩
      · rename_i changed
        have apart : ¬ (p first ∧ p item) := fun both =>
          changed (congrArg some ((together both.2).mp both.1).symm)
        constructor
        · rintro ⟨-, restStart⟩
          refine ⟨apart, fun other mem is => ?_⟩
          exact mem_of_ne_of_mem (ne_of_mem_of_not_mem mem itemFresh) (restStart other mem is)
        · rintro ⟨-, restStart⟩
          exact ⟨fun _ => mem_cons_self, fun other mem is => mem_cons_of_mem _ (restStart other mem is)⟩
  cases list with
  | nil => simp
  | cons first rest =>
    have firstFresh : first ∉ rest := (nodup_cons.mp nodup).1
    rw [← walk rest first nodup kind, forall_mem_cons]
    constructor
    · rintro ⟨-, restStart⟩ other mem is
      exact mem_of_ne_of_mem (ne_of_mem_of_not_mem mem firstFresh) (restStart other mem is)
    · intro restStart
      exact ⟨fun _ => mem_cons_self, fun other mem is => mem_cons_of_mem _ (restStart other mem is)⟩

end UbsComm.Library
