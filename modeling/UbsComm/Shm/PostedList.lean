import UbsComm.Library.Links
import UbsComm.Library.Run
import Mathlib.Data.List.Perm.Subperm

/-! # Posted contexts of a shared-memory channel

The contexts of the operations in flight are linked in both directions behind a head that the channel owns.
A completion unlinks its context, and the handler of a broken channel takes the whole list.  The contexts it
takes keep their links, and a completion that comes late finds them there. -/

namespace UbsComm.Shm

open Library List Function

/-- A context, or the head of the list (`none`), which is a context that is never posted. -/
abbrev CtxInfo := Option Nat

/-- `mCtxPosted` with `mCtxPostedCount`, or `mCompPosted` with `mCompPostedCount`.  `posts` and `handedOut` have
an entry for each time a context was put in the list, and was returned from it. -/
structure PostedList where
  next : CtxInfo → Option CtxInfo
  prev : CtxInfo → Option CtxInfo
  count : Nat
  posts : List CtxInfo
  handedOut : List CtxInfo

inductive PostedAction where
  /-- `AddOpCtxInfo` sets `prev` before it takes the lock. -/
  | beginAdd (ctx : Nat)
  | addOpCtxInfo (ctx : Nat)
  | removeOpCtxInfo (ctx : Nat)
  | getCtxPosted

/-- The contexts met from a link on. -/
def walkNext (next : CtxInfo → Option CtxInfo) : Nat → Option CtxInfo → List CtxInfo
  | 0, _ | _, none => []
  | fuel + 1, some ctx => ctx :: walkNext next fuel (next ctx)

namespace PostedList

def empty : PostedList := ⟨fun _ => none, fun _ => none, 0, [], []⟩

variable (list : PostedList)

/-- The list as a caller of `GetCtxPosted` goes through it. -/
def listed : List CtxInfo := walkNext list.next list.posts.length (list.next none)

/-- `link->prev = ctx` unless the link is null. -/
def setPrev (prev : CtxInfo → Option CtxInfo) (link : Option CtxInfo) (ctx : CtxInfo) : CtxInfo → Option CtxInfo :=
  fun other => if link = some other then some ctx else prev other

def addOpCtxInfo (ctx : CtxInfo) : PostedList :=
  { list with
    next := update (update list.next ctx (list.next none)) none (some ctx)
    prev := setPrev list.prev (list.next none) ctx
    count := (list.count + 1) % 2 ^ 32
    posts := ctx :: list.posts }

/-- Nothing is done for `SH_OP_CTX_REMOVED`. -/
def removeOpCtxInfo (ctx : CtxInfo) : PostedList :=
  if list.count = 0 then list
  else
    match list.prev ctx with
    | none => list
    | some before =>
      { list with
        next := update (update list.next before (list.next ctx)) ctx none
        prev := update (setPrev list.prev (list.next ctx) before) ctx none
        count := list.count - 1
        handedOut := ctx :: list.handedOut }

def getCtxPosted : PostedList :=
  { list with next := update list.next none none, count := 0, handedOut := list.listed ++ list.handedOut }

/-- A context is not posted while it is in the list. -/
def step : PostedAction → PostedList
  | .beginAdd ctx =>
    if some ctx ∉ list.listed then { list with prev := update list.prev (some ctx) (some none) } else list
  | .addOpCtxInfo ctx =>
    if some ctx ∉ list.listed ∧ list.prev (some ctx) = some none then list.addOpCtxInfo (some ctx) else list
  | .removeOpCtxInfo ctx => list.removeOpCtxInfo (some ctx)
  | .getCtxPosted => list.getCtxPosted

/-- The count is the length of the list, and a context was handed out as often as it was posted, except for
the last time if it is in the list. -/
structure Right : Prop where
  count : list.count = list.listed.length
  once : list.listed.Nodup
  handedOut : ∀ ctx, list.posts.count (some ctx) = list.handedOut.count (some ctx) + list.listed.count (some ctx)

/-- A removal is of a context of the list, of one whose `prev` is null, or from an empty list; the number of
contexts has 32 bits. -/
def Careful : PostedAction → Prop
  | .addOpCtxInfo _ => list.count + 1 < 2 ^ 32
  | .removeOpCtxInfo ctx => some ctx ∈ list.listed ∨ list.prev (some ctx) = none ∨ list.count = 0
  | .beginAdd _ | .getCtxPosted => True

instance (action) : Decidable (list.Careful action) := by
  cases action <;> dsimp only [Careful] <;> infer_instance

/-! ## The links of the list -/

variable {list} {places : List CtxInfo} {ctx : Nat}

theorem walkNext_linked {next : CtxInfo → Option CtxInfo} {place : CtxInfo}
    (linked : Linked next (place :: places) none)
    {fuel : Nat} (enough : places.length ≤ fuel) : walkNext next fuel (next place) = places := by
  induction places generalizing place fuel with
  | nil =>
    have ends : next place = none := linked
    cases fuel <;> simp [ends, walkNext]
  | cons first places ih =>
    cases fuel with
    | zero => cases enough
    | succ fuel => rw [linked.1, walkNext, ih linked.2 (Nat.le_of_succ_le_succ enough)]

/-- A removal that the condition allows of a context not in the list does nothing. -/
theorem removeOpCtxInfo_unlisted (unlisted : some ctx ∉ list.listed)
    (careful : list.Careful (.removeOpCtxInfo ctx)) : list.removeOpCtxInfo (some ctx) = list := by
  rw [PostedList.removeOpCtxInfo]
  split
  · rfl
  · rename_i some
    rw [(careful.resolve_left unlisted).resolve_right some]

/-- The head and the contexts of the list are `places`, and `prev` leads to where `next` comes from. -/
structure Inv (list : PostedList) (places : List CtxInfo) : Prop where
  head : places.head? = some none
  linked : Linked list.next places none
  back : ∀ ctx, some ctx ∈ places → ∃ place ∈ places, list.prev (some ctx) = some place ∧
    list.next place = some (some ctx)
  nodup : places.Nodup
  count : list.count + 1 = places.length
  handedOut : ∀ ctx, list.posts.count (some ctx) = list.handedOut.count (some ctx) + places.count (some ctx)

section

variable (inv : Inv list places)
include inv

theorem Inv.listed : places = none :: list.listed := by
  obtain ⟨contexts, rfl⟩ : ∃ contexts, places = none :: contexts := head?_eq_some_iff.mp inv.head
  refine congrArg _ (walkNext_linked inv.linked (subperm_of_subset (nodup_cons.mp inv.nodup).2 ?_).length_le).symm
  rintro (_ | ctx) mem
  · cases (nodup_cons.mp inv.nodup).1 mem
  · have posted := inv.handedOut ctx
    have listed := count_pos_iff.mpr (mem_cons_of_mem none mem)
    exact count_pos_iff.mp (by omega)

theorem Inv.addOpCtxInfo (unlisted : some ctx ∉ list.listed) (points : list.prev (some ctx) = some none)
    (small : list.count + 1 < 2 ^ 32) : Inv (list.addOpCtxInfo (some ctx)) (none :: some ctx :: list.listed) := by
  obtain rfl := inv.listed
  obtain ⟨fresh, nodup⟩ := nodup_cons.mp inv.nodup
  obtain ⟨first, behind⟩ := linked_cons.mp inv.linked
  have same : ∀ place ∈ list.listed, (list.addOpCtxInfo (some ctx)).next place = list.next place := by
    intro place mem
    simp [PostedList.addOpCtxInfo, ne_of_mem_of_not_mem mem unlisted, ne_of_mem_of_not_mem mem fresh]
  have ahead : (list.addOpCtxInfo (some ctx)).next (some ctx) = list.next none := by simp [PostedList.addOpCtxInfo]
  have head : (list.addOpCtxInfo (some ctx)).next none = some (some ctx) := by simp [PostedList.addOpCtxInfo]
  refine ⟨rfl, ⟨head, linked_cons.mpr ⟨ahead.trans first, behind.congr same⟩⟩, fun other mem => ?_, ?_, ?_,
    fun other => ?_⟩
  · by_cases leads : list.next none = some (some other)
    · exact ⟨some ctx, by simp, if_pos leads, ahead.trans leads⟩
    · have kept : (list.addOpCtxInfo (some ctx)).prev (some other) = list.prev (some other) := if_neg leads
      by_cases isNew : other = ctx
      · exact ⟨none, by simp, by rw [kept, isNew, points], by rw [isNew, head]⟩
      · obtain ⟨place, placed, points, leads⟩ := inv.back other (by simpa [isNew] using mem)
        have listed : place ∈ list.listed := by grind
        exact ⟨place, by simp [listed], kept.trans points, (same place listed).trans leads⟩
  · simp [fresh, unlisted, nodup]
  · exact congrArg (· + 1) ((Nat.mod_eq_of_lt small).trans inv.count)
  · have posted := inv.handedOut other
    simp only [PostedList.addOpCtxInfo, count_cons] at posted ⊢
    omega

/-- The context is unlinked from the place that leads to it. -/
theorem Inv.removeOpCtxInfo (mem : some ctx ∈ list.listed) : ∃ after, Inv (list.removeOpCtxInfo (some ctx)) after := by
  obtain ⟨before, mem, came, leads⟩ := inv.back ctx (by simp [inv.listed, mem])
  obtain ⟨start, rest, rfl⟩ := append_of_mem mem
  obtain ⟨head, linked, back, nodup, counted, handedOut⟩ := inv
  obtain ⟨upto, behind⟩ := linked_append_cons.mp linked
  obtain ⟨follows, behind⟩ := linked_cons.mp behind
  cases rest with
  | nil => cases leads.symm.trans follows
  | cons _ rest =>
    cases leads.symm.trans follows
    obtain ⟨follows, behind⟩ := linked_cons.mp behind
    have ne : before ≠ some ctx := by grind
    have apart : ∀ place ∈ start ++ rest, place ≠ before ∧ place ≠ some ctx := by grind
    have nonempty : list.count ≠ 0 := by grind
    have same : ∀ place ∈ start ++ rest, (list.removeOpCtxInfo (some ctx)).next place = list.next place := by
      intro place mem
      simp [PostedList.removeOpCtxInfo, nonempty, came, apart place mem]
    have skips : (list.removeOpCtxInfo (some ctx)).next before = list.next (some ctx) := by
      simp [PostedList.removeOpCtxInfo, nonempty, came, ne]
    refine ⟨start ++ before :: rest, ?_, ?_, fun other mem => ?_, nodup.sublist (by simp), ?_, fun other => ?_⟩
    · cases start <;> exact head
    · refine linked_append_cons.mpr ⟨upto.congr fun place mem => same place (mem_append_left _ mem), ?_⟩
      exact linked_cons.mpr ⟨skips.trans follows, behind.congr fun place mem => same place (mem_append_right _ mem)⟩
    · have isOther : other ≠ ctx := by grind
      by_cases leads : list.next (some ctx) = some (some other)
      · refine ⟨before, by simp, ?_, skips.trans leads⟩
        simp [PostedList.removeOpCtxInfo, nonempty, came, setPrev, leads, isOther]
      · obtain ⟨place, placed, points, toOther⟩ := back other (by grind)
        have kept : place ∈ start ++ rest := by grind
        refine ⟨place, by grind, ?_, (same place kept).trans toOther⟩
        simp [PostedList.removeOpCtxInfo, nonempty, came, setPrev, leads, isOther, points]
    · grind [PostedList.removeOpCtxInfo]
    · have posted := handedOut other
      simp only [PostedList.removeOpCtxInfo] at posted ⊢
      grind

theorem Inv.getCtxPosted : Inv list.getCtxPosted [none] := by
  refine ⟨rfl, by simp [Linked, PostedList.getCtxPosted], by simp, nodup_singleton _, rfl, fun ctx => ?_⟩
  have posted := inv.handedOut ctx
  rw [inv.listed] at posted
  simp only [PostedList.getCtxPosted, count_append, count_cons, count_nil] at posted ⊢
  omega

theorem Inv.step {action : PostedAction} (careful : list.Careful action) : ∃ after, Inv (list.step action) after := by
  cases action with
  | beginAdd ctx =>
    refine guarded (motive := fun list => ∃ after, Inv list after) ⟨places, inv⟩ fun unlisted => ⟨places, ?_⟩
    refine { inv with back := fun other mem => ?_ }
    obtain ⟨place, placed, points, leads⟩ := inv.back other mem
    have listed : some other ∈ list.listed := by simpa [inv.listed] using mem
    exact ⟨place, placed, (update_of_ne (ne_of_mem_of_not_mem listed unlisted) ..).trans points, leads⟩
  | addOpCtxInfo ctx =>
    refine guarded (motive := fun list => ∃ after, Inv list after) ⟨places, inv⟩ fun ⟨unlisted, points⟩ => ?_
    exact ⟨_, inv.addOpCtxInfo unlisted points careful⟩
  | removeOpCtxInfo ctx =>
    by_cases mem : some ctx ∈ list.listed
    · exact inv.removeOpCtxInfo mem
    · refine ⟨places, ?_⟩
      rwa [PostedList.step, removeOpCtxInfo_unlisted mem careful]
  | getCtxPosted => exact ⟨[none], inv.getCtxPosted⟩

end

/-- In every run of careful steps the count is right and every context is handed out once for each post, and
the removal of a context that is not in the list changes nothing. -/
theorem posted_once_of_careful_removals (run : Run step Careful empty list) :
    list.Right ∧ ∀ ctx, some ctx ∉ list.listed → list.Careful (.removeOpCtxInfo ctx) →
      list.removeOpCtxInfo (some ctx) = list := by
  obtain ⟨places, inv⟩ := run.invariant (motive := fun list => ∃ places, Inv list places)
    ⟨[none], rfl, rfl, by simp, nodup_singleton _, rfl, fun _ => rfl⟩ fun _ _ ⟨_, inv⟩ careful => inv.step careful
  cases inv.listed
  refine ⟨⟨Nat.succ.inj inv.count, (nodup_cons.mp inv.nodup).2, fun ctx => ?_⟩, fun ctx => removeOpCtxInfo_unlisted⟩
  simpa using inv.handedOut ctx

/-- Two contexts posted, one completed, the other drained and completed late. -/
def lateRemoval : List PostedAction :=
  [.beginAdd 1, .addOpCtxInfo 1, .beginAdd 2, .addOpCtxInfo 2, .removeOpCtxInfo 1, .getCtxPosted, .removeOpCtxInfo 2]

theorem posted_once_lateRemoval : (lateRemoval.foldl step empty).Right :=
  (posted_once_of_careful_removals (Run.ofList (by decide : AllAllowed step Careful empty lateRemoval))).1

/-- A context was drained and another one posted when the first completes: the second one is lost. -/
theorem removeOpCtxInfo_drained :
    ¬ ([.beginAdd 1, .addOpCtxInfo 1, .getCtxPosted, .beginAdd 2, .addOpCtxInfo 2,
      .removeOpCtxInfo 1].foldl step empty).Right := by
  intro right
  have posted := right.handedOut 2
  revert posted
  decide

end PostedList

end UbsComm.Shm
