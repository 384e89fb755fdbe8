import UbsComm.Library.Run
import UbsComm.Ub.PostTx

/-! # What is outstanding on a borrowed jetty node

A data post loads `tx_outstanding`, computes what still fits under `borrow_limit` and adds it in a later
access.  Flow-control messages are added without a look at the limit; completions and failed posts are taken off. -/

namespace UbsComm.Ub

open Library List

/-- A data post between its load and its addition; `overtaken` says that something was added to the node
    since the load. -/
structure LimitedPost where
  maxTx : Nat
  wrCntLimit : Nat
  overtaken : Bool

def LimitedPost.overtake (post : LimitedPost) : LimitedPost := { post with overtaken := true }

/-- `totals` records `tx_outstanding` right after the additions of the data posts. -/
structure JettyLoad where
  node : JettyNode
  posts : List LimitedPost
  totals : List (Fin (2 ^ 32))

inductive JettyLoadAction where
  | load (maxTx : Fin (2 ^ 32))
  | add (post : Nat)
  | flowControl
  | takeOff (count : Fin (2 ^ 32))

namespace JettyLoad

def borrowed (borrowLimit : Fin (2 ^ 32)) : JettyLoad := ⟨⟨0, borrowLimit, false⟩, [], []⟩

variable (load : JettyLoad)

/-- `__atomic_add_fetch`, which all posts that have loaded before it do not see. -/
def addOutstanding (count : Nat) : JettyLoad where
  node := { load.node with txOutstanding := Fin.ofNat _ (load.node.txOutstanding.val + count) }
  posts := load.posts.map LimitedPost.overtake
  totals := load.totals

def step : JettyLoadAction → JettyLoad
  | .load maxTx => { load with posts := ⟨maxTx, umqUbWrCntLimit load.node maxTx, false⟩ :: load.posts }
  | .add index =>
    match load.posts[index]? with
    | none => load
    | some post =>
      let load := { load with posts := load.posts.eraseIdx index }
      -- the call ends with `ENOBUFS`
      if post.wrCntLimit = 0 then load
      else
        let load := load.addOutstanding post.wrCntLimit
        { load with totals := load.node.txOutstanding :: load.totals }
  | .flowControl => load.addOutstanding 1
  | .takeOff count =>
    if count ≤ load.node.txOutstanding then
      { load with node := { load.node with txOutstanding := load.node.txOutstanding - count } }
    else load

structure Right : Prop where
  limits : ∀ post ∈ load.posts, post.wrCntLimit ≤ post.maxTx
  totals : ∀ total ∈ load.totals, total ≤ load.node.borrowLimit

/-- The node is not overdrawn at the load, where the sum fits its word, and nothing is added between the load
    and the addition of a post. -/
def Careful : JettyLoadAction → Prop
  | .load maxTx =>
    load.node.txOutstanding ≤ load.node.borrowLimit ∧ load.node.txOutstanding.val + maxTx.val < 2 ^ 32
  | .add index => ∀ post ∈ load.posts[index]?, post.overtaken = false
  | .flowControl | .takeOff _ => True

instance (action) : Decidable (load.Careful action) := by
  cases action <;> dsimp only [Careful] <;> infer_instance

/-- Below the limit, the limit of a post is the smaller of its batch and the room left. -/
theorem umqUbWrCntLimit_eq {node : JettyNode} {maxTx : Nat} (below : node.txOutstanding ≤ node.borrowLimit)
    (small : node.txOutstanding.val + maxTx < 2 ^ 32) :
    umqUbWrCntLimit node maxTx = min maxTx (node.borrowLimit.val - node.txOutstanding.val) := by
  have below : node.txOutstanding.val ≤ node.borrowLimit.val := below
  rw [umqUbWrCntLimit, Nat.mod_eq_of_lt small]
  split <;> omega

/-- The room that a post has found is still there until something is added. -/
structure Inv : Prop extends Right load where
  room : ∀ post ∈ load.posts, post.overtaken = false →
    load.node.txOutstanding.val + post.wrCntLimit ≤ load.node.borrowLimit.val

variable {load}

namespace Inv

variable (inv : load.Inv)
include inv

theorem addOutstanding (count : Nat) : (load.addOutstanding count).Inv where
  limits := forall_mem_map.2 inv.limits
  totals := inv.totals
  room := forall_mem_map.2 fun _ _ => nofun

theorem erase (index : Nat) : ({ load with posts := load.posts.eraseIdx index } : JettyLoad).Inv where
  limits := fun post mem => inv.limits post (mem_of_mem_eraseIdx mem)
  totals := inv.totals
  room := fun post mem => inv.room post (mem_of_mem_eraseIdx mem)

theorem loaded {maxTx : Fin (2 ^ 32)} (careful : load.Careful (.load maxTx)) : (load.step (.load maxTx)).Inv := by
  have below : load.node.txOutstanding.val ≤ load.node.borrowLimit.val := careful.1
  have limit := umqUbWrCntLimit_eq careful.1 careful.2
  refine ⟨⟨forall_mem_cons.2 ⟨?_, inv.limits⟩, inv.totals⟩, forall_mem_cons.2 ⟨fun _ => ?_, inv.room⟩⟩
  · exact limit.trans_le (Nat.min_le_left _ _)
  · change load.node.txOutstanding.val + umqUbWrCntLimit load.node maxTx ≤ load.node.borrowLimit.val
    omega

theorem add {index : Nat} (careful : load.Careful (.add index)) : (load.step (.add index)).Inv := by
  rw [step]
  cases found : load.posts[index]? with
  | none => exact inv
  | some post =>
    have room := inv.room post (mem_of_getElem? found) (careful post found)
    have after := (inv.erase index).addOutstanding post.wrCntLimit
    dsimp only
    split
    next => exact inv.erase index
    next =>
      refine ⟨⟨after.limits, forall_mem_cons.2 ⟨?_, after.totals⟩⟩, after.room⟩
      exact (Nat.mod_le _ _).trans room

theorem takeOff {count : Fin (2 ^ 32)} : (load.step (.takeOff count)).Inv :=
  guarded inv fun less => ⟨⟨inv.limits, inv.totals⟩, fun post mem fresh => by
    have room := inv.room post mem fresh
    have lower := Fin.sub_val_of_le less
    dsimp only
    omega⟩

theorem step {action : JettyLoadAction} (careful : load.Careful action) : (load.step action).Inv := by
  cases action with
  | load maxTx => exact inv.loaded careful
  | add index => exact inv.add careful
  | flowControl => exact inv.addOutstanding 1
  | takeOff count => exact inv.takeOff

end Inv

/-- Along careful steps no limit goes around below zero, and no data post takes the node over its limit. -/
theorem wrCntLimit_kept_of_careful_posts {borrowLimit : Fin (2 ^ 32)} {finish : JettyLoad}
    (run : Run step Careful (borrowed borrowLimit) finish) : finish.Right :=
  (run.invariant ⟨⟨nofun, nofun⟩, nofun⟩ fun _ _ inv careful => Inv.step inv careful).toRight

/-- Two posts and a credit message in turn; the second post is cut to the room left. -/
def mixedPosts : List JettyLoadAction := [.load 3, .add 0, .flowControl, .takeOff 1, .load 3, .add 0]

theorem wrCntLimit_kept_mixedPosts :
    (mixedPosts.foldl step (borrowed 4)).Right ∧ (mixedPosts.foldl step (borrowed 4)).totals = [4, 3] :=
  ⟨wrCntLimit_kept_of_careful_posts (Run.ofList (by decide)), by decide⟩

/-- Credit messages fill the node beyond its limit before a data post. -/
def creditFirst : List JettyLoadAction := [.flowControl, .flowControl, .flowControl, .load 2]

/-- Two posts load the same value. -/
def racingPosts : List JettyLoadAction := [.load 2, .load 2, .add 0, .add 0]

/-- The limit of two requests becomes 2^32 - 1; and the node with a limit of two gets four data requests. -/
theorem wrCntLimit_creditFirst :
    ¬ (creditFirst.foldl step (borrowed 2)).Right ∧ ¬ (racingPosts.foldl step (borrowed 2)).Right := by
  constructor
  · exact fun right => absurd (right.limits _ (.head _)) (by decide)
  · exact fun right => absurd (right.totals _ (.head _)) (by decide)

end JettyLoad

end UbsComm.Ub
