import UbsComm.Library.Lists
import UbsComm.Library.Masks
import UbsComm.Library.Run
import UbsComm.Qbuf.Basic

/-! # The capacity granted to the thread caches of a class

Each thread cache has a capacity, and `g_total_local_cap` is meant to be their sum.  A cache that grows loads
the sum, cuts its growth to what is left of the budget and adds it in a later access.  How many buffers a cache
holds when it is looked at is up to the calls in between. -/

namespace UbsComm.Qbuf

open Library List

/-- The buffers with data of a size class have half the depth as their limit per thread. -/
structure TlsLimits where
  withData : Bool
  perThread : Nat
  depth : Nat

/-- The cache of a live thread; `delta` is its growth between the load of the sum and the addition, and
`overtaken` says that another growth was added since the load. -/
structure TlsCap where
  capacity : Nat
  delta : Nat
  overtaken : Bool

def TlsCap.overtake (cache : TlsCap) : TlsCap := { cache with overtaken := true }

structure TlsCaps where
  total : Nat
  caches : List TlsCap

inductive TlsCapAction where
  | start
  | grow (cache bufCnt : Nat)
  | grant (cache : Nat)
  | selfShrink (cache bufCnt : Nat)
  | exit (cache bufCnt : Nat)

namespace TlsCaps

variable (limits : TlsLimits)

/-- The end of `umq_qbuf_local_pool_fetch_and_expand`. -/
def growth (total capacity bufCnt : Nat) : Nat :=
  let delta := bufCnt - capacity
  let delta := if capacity + delta > limits.perThread then limits.perThread - capacity else delta
  if total + delta > limits.depth then limits.depth - total else delta

/-- What `thread_cache_self_shrink` takes off the capacity. -/
def shrinkage (capacity bufCnt : Nat) : Nat :=
  let shrink := bufCnt / qbufPoolSelfShrinkRatio
  if shrink < qbufPoolShrinkThreshold then 0 else min shrink capacity

/-- What `release_thread_cache` takes off the sum: it goes on to the next class when the list is empty. -/
def released (capacity bufCnt : Nat) : Nat :=
  if limits.withData ∧ bufCnt = 0 then 0 else capacity

variable (caps : TlsCaps)

def step : TlsCapAction → TlsCaps
  | .start => { caps with caches := ⟨0, 0, false⟩ :: caps.caches }
  | .grow index bufCnt =>
    match caps.caches[index]? with
    | some ⟨capacity, 0, _⟩ =>
      let delta := growth limits caps.total capacity bufCnt
      { caps with caches := ⟨capacity, delta, false⟩ :: caps.caches.eraseIdx index }
    | _ => caps
  | .grant index =>
    match caps.caches[index]? with
    | none => caps
    | some ⟨capacity, delta, _⟩ =>
      if 0 < delta then
        ⟨caps.total + delta, ⟨capacity + delta, 0, false⟩ :: (caps.caches.eraseIdx index).map TlsCap.overtake⟩
      else caps
  | .selfShrink index bufCnt =>
    match caps.caches[index]? with
    | some ⟨capacity, 0, _⟩ =>
      let shrink := shrinkage capacity bufCnt
      ⟨sub64 caps.total shrink, ⟨capacity - shrink, 0, false⟩ :: caps.caches.eraseIdx index⟩
    | _ => caps
  | .exit index bufCnt =>
    match caps.caches[index]? with
    | some ⟨capacity, 0, _⟩ => ⟨sub64 caps.total (released limits capacity bufCnt), caps.caches.eraseIdx index⟩
    | _ => caps

def granted : Nat := (caps.caches.map TlsCap.capacity).sum

structure Right : Prop where
  total : caps.total = caps.granted
  bounded : caps.total ≤ limits.depth

/-- No growth is added between the load and the addition of another one, and a thread whose cache is empty at its
end has no capacity. -/
def Careful : TlsCapAction → Prop
  | .grant index => ∀ cache ∈ caps.caches[index]?, cache.overtaken = false
  | .exit index bufCnt =>
    limits.withData ∧ bufCnt = 0 → ∀ cache ∈ caps.caches[index]?, cache.delta = 0 → cache.capacity = 0
  | .start | .grow _ _ | .selfShrink _ _ => True

instance (action) : Decidable (caps.Careful limits action) := by
  cases action <;> dsimp only [Careful] <;> infer_instance

theorem growth_fits {limits : TlsLimits} {total capacity bufCnt : Nat} (below : total ≤ limits.depth) :
    total + growth limits total capacity bufCnt ≤ limits.depth := by
  unfold growth
  extract_lets delta cut
  split <;> omega

theorem shrinkage_le (capacity bufCnt : Nat) : shrinkage capacity bufCnt ≤ capacity := by
  rw [shrinkage]
  split
  · exact Nat.zero_le _
  · exact Nat.min_le_right _ _

/-- The budget that a growth was cut to is still there until another one is added. -/
structure Inv : Prop extends Right limits caps where
  room : ∀ cache ∈ caps.caches, cache.overtaken = false → caps.total + cache.delta ≤ limits.depth

variable {limits} {caps} {index capacity : Nat}

namespace Inv

variable (inv : caps.Inv limits)
include inv

theorem total_of_found {delta : Nat} {overtaken : Bool}
    (found : caps.caches[index]? = some ⟨capacity, delta, overtaken⟩) :
    caps.total = capacity + ((caps.caches.eraseIdx index).map TlsCap.capacity).sum :=
  inv.total.trans (sum_map_eraseIdx found)

/-- The other caches keep their room when the sum does not grow. -/
theorem room_of_le {total : Nat} (less : total ≤ caps.total) :
    ∀ cache ∈ caps.caches.eraseIdx index, cache.overtaken = false → total + cache.delta ≤ limits.depth :=
  fun cache mem fresh =>
    (Nat.add_le_add_right less _).trans (inv.room cache (mem_of_mem_eraseIdx mem) fresh)

theorem grow {bufCnt : Nat} : (caps.step limits (.grow index bufCnt)).Inv limits := by
  rw [step]
  split
  next capacity overtaken found =>
    refine ⟨⟨inv.total_of_found found, inv.bounded⟩, forall_mem_cons.2 ⟨fun _ => ?_, inv.room_of_le le_rfl⟩⟩
    exact growth_fits inv.bounded
  next => exact inv

theorem grant (careful : caps.Careful limits (.grant index)) : (caps.step limits (.grant index)).Inv limits := by
  rw [step]
  split
  next => exact inv
  next capacity delta overtaken found =>
    have total := inv.total_of_found found
    have room := inv.room _ (mem_of_getElem? found) (careful _ found)
    refine guarded inv fun _ => ⟨⟨?_, room⟩, forall_mem_cons.2 ⟨fun _ => room, ?_⟩⟩
    · simp only [granted, map_cons, sum_cons, map_map]
      change caps.total + delta = capacity + delta + ((caps.caches.eraseIdx index).map TlsCap.capacity).sum
      omega
    · exact forall_mem_map.2 fun _ _ => nofun

theorem selfShrink {bufCnt : Nat} : (caps.step limits (.selfShrink index bufCnt)).Inv limits := by
  rw [step]
  split
  next capacity overtaken found =>
    have total := inv.total_of_found found
    have bounded := inv.bounded
    have less := shrinkage_le capacity bufCnt
    dsimp only
    rw [sub64_eq (by omega)]
    have lower : caps.total - shrinkage capacity bufCnt ≤ caps.total := Nat.sub_le ..
    refine ⟨⟨?_, lower.trans bounded⟩, forall_mem_cons.2 ⟨fun _ => lower.trans bounded, inv.room_of_le lower⟩⟩
    simp only [granted, map_cons, sum_cons]
    omega
  next => exact inv

theorem exit {bufCnt : Nat} (careful : caps.Careful limits (.exit index bufCnt)) :
    (caps.step limits (.exit index bufCnt)).Inv limits := by
  rw [step]
  split
  next capacity overtaken found =>
    have total := inv.total_of_found found
    -- where nothing is given back there was nothing to give
    have given : released limits capacity bufCnt = capacity := by
      rw [released]
      split
      next empty => exact (careful empty _ found rfl).symm
      next => rfl
    rw [given, sub64_eq (by omega)]
    have lower : caps.total - capacity ≤ caps.total := Nat.sub_le ..
    refine ⟨⟨?_, lower.trans inv.bounded⟩, inv.room_of_le lower⟩
    simp only [granted]
    omega
  next => exact inv

theorem step {action : TlsCapAction} (careful : caps.Careful limits action) : (caps.step limits action).Inv limits := by
  cases action with
  | start =>
    refine ⟨⟨inv.total.trans (Nat.zero_add _).symm, inv.bounded⟩, ?_⟩
    exact forall_mem_cons.2 ⟨fun _ => inv.bounded, inv.room⟩
  | grow index bufCnt => exact inv.grow
  | grant index => exact inv.grant careful
  | selfShrink index bufCnt => exact inv.selfShrink
  | exit index bufCnt => exact inv.exit careful

end Inv

/-- Along careful steps the sum is that of the live threads and within the limit, and zero when no thread is left. -/
theorem granted_exact_of_careful_threads {finish : TlsCaps} (run : Run (step limits) (Careful limits) ⟨0, []⟩ finish) :
    finish.Right limits ∧ (finish.caches = [] → finish.total = 0) := by
  have inv : finish.Inv limits :=
    run.invariant ⟨⟨rfl, Nat.zero_le _⟩, nofun⟩ fun _ _ inv careful => Inv.step inv careful
  refine ⟨inv.toRight, fun gone => ?_⟩
  rw [inv.total, granted, gone]
  rfl

/-- A budget of 1024 buffers. -/
def dataLimits : TlsLimits := ⟨true, 512, 1024⟩

/-- Two threads grow, one of them up to what is left for a thread; it shrinks, and both end. -/
def twoThreads : List TlsCapAction :=
  [.start, .start, .grow 0 400, .grant 0, .grow 1 600, .grant 0, .selfShrink 0 600, .exit 0 100, .exit 0 400]

theorem granted_exact_twoThreads : (twoThreads.foldl (step dataLimits) ⟨0, []⟩).total = 0 := by
  have run : Run (step dataLimits) (Careful dataLimits) ⟨0, []⟩ (twoThreads.foldl _ _) := Run.ofList (by decide)
  exact (granted_exact_of_careful_threads run).2 (by decide)

/-- A thread ends with an empty cache. -/
def emptyExit : List TlsCapAction := [.start, .grow 0 400, .grant 0, .exit 0 0]

/-- Three threads load the sum before one of them adds to it. -/
def racingGrowths : List TlsCapAction :=
  [.start, .start, .start, .grow 0 512, .grow 1 512, .grow 2 512, .grant 0, .grant 1, .grant 2]

/-- The sum is not given back, and it passes the limit. -/
theorem granted_emptyExit :
    ¬ (emptyExit.foldl (step dataLimits) ⟨0, []⟩).Right dataLimits ∧
      ¬ (racingGrowths.foldl (step dataLimits) ⟨0, []⟩).Right dataLimits := by
  constructor
  · exact fun right => absurd right.total (by decide)
  · exact fun right => absurd right.bounded (by decide)

end TlsCaps

end UbsComm.Qbuf
