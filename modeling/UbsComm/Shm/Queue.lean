import UbsComm.Library.Run
import Mathlib.Logic.Function.Basic

/-! # The queue in shared memory

Producers and consumers reserve a slot by swapping the head of their side and publish it by
moving the tail.  The indices are words of 32 bits.  A third party may move the producers' tail
past a producer that it takes for stuck.

Each call is a small program whose steps are its accesses to the shared memory; the constructors
below say which access comes next and what the call has read so far.  The counts `seen` and
`slot` in them are not in the memory: they number the reservations without wrapping. -/

namespace UbsComm.Shm

open Function

def nextIndex (index : Nat) : Nat := (index + 1) % 2 ^ 32

/-- `UINT64_MAX`, no index. -/
def noIndex : Nat := 2 ^ 64 - 1

/-- A call of `Enqueue` before its next access. -/
inductive Producer (α : Type) where
  | idle
  | readHead (item : α)
  | readConsTail (item : α) (oldHead seen : Nat)
  | swapHead (item : α) (oldHead seen : Nat)
  | write (item : α) (oldHead slot : Nat)
  | swapTail (item : α) (oldHead slot : Nat)
  deriving DecidableEq

/-- A call of `Dequeue` before its next access.  `again` is the second request, after a failed
producer's slot; the tail is then moved with no item taken. -/
inductive Consumer (α : Type) where
  | idle
  | readHead (again : Bool)
  | readProdTail (again : Bool) (oldHead seen : Nat)
  | swapHead (again : Bool) (oldHead seen : Nat)
  | compareFailed (oldHead slot : Nat)
  | read (oldHead slot : Nat)
  | readTail (oldHead slot : Nat) (item : Option α)
  | storeTail (oldHead slot : Nat) (item : Option α)
  deriving DecidableEq

/-- A call of `CheckAndMarkProducerState` before its next access. -/
inductive Checker where
  | idle
  | readTail (head : Nat)
  | compareTail
  | recordTail
  | compareTime
  | loadTail
  | storeTail (tail : Nat)
  deriving DecidableEq

/-- The queue with the calls under way and a record of what has happened: how many slots were
reserved, published and released, the words swapped by consumers in their order, and the slots
and items of the calls that returned OK. -/
structure ShmQueue (α : Type) where
  capacity : Nat
  prodHead : Nat
  prodTail : Nat
  consHead : Nat
  consTail : Nat
  data : Nat → α
  tempProdIdx : Nat
  failedProd : Nat
  producers : Nat → Producer α
  consumers : Nat → Consumer α
  checker : Checker
  reservedCount : Nat
  publishedCount : Nat
  releasedCount : Nat
  claimedWords : List Nat
  enqueued : List (Nat × α)
  dequeued : List (Nat × α)

/-- `giveUp` is the end of the waiting time in `UpdateProdTail` or `UpdateConsTail`, and `expire`
the end of the time that a producer may take. -/
inductive QueueAction (α : Type) where
  | enqueue (thread : Nat) (item : α)
  | producerStep (thread : Nat)
  | producerGiveUp (thread : Nat)
  | dequeue (thread : Nat)
  | consumerStep (thread : Nat)
  | consumerGiveUp (thread : Nat)
  | check
  | checkerStep
  | expire

namespace ShmQueue

variable {α : Type}

def initial (capacity : Nat) (data : Nat → α) : ShmQueue α where
  capacity := capacity
  prodHead := 0
  prodTail := 0
  consHead := 0
  consTail := 0
  data := data
  tempProdIdx := noIndex
  failedProd := noIndex
  producers := fun _ => .idle
  consumers := fun _ => .idle
  checker := .idle
  reservedCount := 0
  publishedCount := 0
  releasedCount := 0
  claimedWords := []
  enqueued := []
  dequeued := []

variable (queue : ShmQueue α)

/-- The place of an index in the data: `index & mMask`. -/
def place (index : Nat) : Nat := index &&& (queue.capacity - 1)

def setProducer (thread : Nat) (producer : Producer α) : ShmQueue α :=
  { queue with producers := update queue.producers thread producer }

def setConsumer (thread : Nat) (consumer : Consumer α) : ShmQueue α :=
  { queue with consumers := update queue.consumers thread consumer }

/-! ## The steps of a producer -/

/-- The swap of `prod.head` has succeeded. -/
def reserve (thread : Nat) (item : α) (oldHead : Nat) : ShmQueue α :=
  { queue with
    prodHead := nextIndex oldHead
    producers := update queue.producers thread (.write item oldHead queue.reservedCount)
    reservedCount := queue.reservedCount + 1 }

def writeItem (thread : Nat) (item : α) (oldHead slot : Nat) : ShmQueue α :=
  { queue with
    data := update queue.data (queue.place oldHead) item
    producers := update queue.producers thread (.swapTail item oldHead slot) }

/-- The swap of `prod.tail` has succeeded and `Enqueue` returns OK. -/
def publish (thread : Nat) (item : α) (oldHead slot : Nat) : ShmQueue α :=
  { queue with
    prodTail := nextIndex oldHead
    producers := update queue.producers thread .idle
    publishedCount := queue.publishedCount + 1
    enqueued := queue.enqueued ++ [(slot, item)] }

def producerStep (thread : Nat) : ShmQueue α :=
  match queue.producers thread with
  | .idle => queue
  | .readHead item => queue.setProducer thread (.readConsTail item queue.prodHead queue.reservedCount)
  | .readConsTail item oldHead seen =>
    let freeSpace := (queue.capacity + queue.consTail + (2 ^ 32 - oldHead)) % 2 ^ 32
    if 1 > freeSpace then queue.setProducer thread .idle else queue.setProducer thread (.swapHead item oldHead seen)
  | .swapHead item oldHead _ =>
    if queue.prodHead = oldHead then queue.reserve thread item oldHead else queue.setProducer thread (.readHead item)
  | .write item oldHead slot => queue.writeItem thread item oldHead slot
  | .swapTail item oldHead slot => if queue.prodTail = oldHead then queue.publish thread item oldHead slot else queue

/-- `UpdateProdTail` returns false and `Enqueue` an error. -/
def producerGiveUp (thread : Nat) : ShmQueue α :=
  match queue.producers thread with
  | .swapTail _ _ _ => queue.setProducer thread .idle
  | _ => queue

/-! ## The steps of a consumer -/

/-- The swap of `cons.head` has succeeded. -/
def claim (thread : Nat) (again : Bool) (oldHead : Nat) : ShmQueue α :=
  let slot := queue.claimedWords.length
  { queue with
    consHead := nextIndex oldHead
    consumers :=
      update queue.consumers thread (if again then .read oldHead slot else .compareFailed oldHead slot)
    claimedWords := queue.claimedWords ++ [oldHead] }

/-- `UpdateConsTail` has returned: a skipped slot is followed by the second request, otherwise
`Dequeue` returns the item. -/
def afterConsTail (thread slot : Nat) : Option α → ShmQueue α
  | none => queue.setConsumer thread (.readHead true)
  | some item =>
    { queue with
      consumers := update queue.consumers thread .idle
      dequeued := queue.dequeued ++ [(slot, item)] }

/-- The store to `cons.tail`. -/
def release (oldHead : Nat) : ShmQueue α :=
  { queue with
    consTail := nextIndex oldHead
    releasedCount := queue.releasedCount + 1 }

def consumerStep (thread : Nat) : ShmQueue α :=
  match queue.consumers thread with
  | .idle => queue
  | .readHead again => queue.setConsumer thread (.readProdTail again queue.consHead queue.claimedWords.length)
  | .readProdTail again oldHead seen =>
    let dequeueCount := (queue.prodTail + (2 ^ 32 - oldHead)) % 2 ^ 32
    if dequeueCount = 0 then queue.setConsumer thread .idle else queue.setConsumer thread (.swapHead again oldHead seen)
  | .swapHead again oldHead _ =>
    if queue.consHead = oldHead then queue.claim thread again oldHead else queue.setConsumer thread (.readHead again)
  | .compareFailed oldHead slot =>
    if oldHead = queue.failedProd then queue.setConsumer thread (.readTail oldHead slot none)
    else queue.setConsumer thread (.read oldHead slot)
  | .read oldHead slot => queue.setConsumer thread (.readTail oldHead slot (some (queue.data (queue.place oldHead))))
  | .readTail oldHead slot item =>
    if queue.consTail = oldHead then queue.setConsumer thread (.storeTail oldHead slot item) else queue
  | .storeTail oldHead slot item => (queue.release oldHead).afterConsTail thread slot item

/-- `UpdateConsTail` returns without moving the tail. -/
def consumerGiveUp (thread : Nat) : ShmQueue α :=
  match queue.consumers thread with
  | .readTail _ slot item => queue.afterConsTail thread slot item
  | _ => queue

/-! ## The check for a stuck producer -/

def checkerStep : ShmQueue α :=
  match queue.checker with
  | .idle => queue
  | .readTail head =>
    if head > queue.prodTail then { queue with checker := .compareTail }
    else { queue with checker := .idle, tempProdIdx := noIndex }
  | .compareTail =>
    if queue.tempProdIdx ≠ queue.prodTail then { queue with checker := .recordTail }
    else { queue with checker := .compareTime }
  | .recordTail => { queue with checker := .idle, tempProdIdx := queue.prodTail }
  | .compareTime => { queue with checker := .idle }
  | .loadTail => { queue with checker := .storeTail queue.prodTail }
  | .storeTail tail =>
    { queue with
      checker := .idle
      prodTail := nextIndex tail
      publishedCount := queue.publishedCount + 1 }

/-- The time has passed: the producer is taken for stuck. -/
def expire : ShmQueue α :=
  match queue.checker with
  | .compareTime => { queue with checker := .loadTail, failedProd := queue.tempProdIdx, tempProdIdx := noIndex }
  | _ => queue

def step [DecidableEq α] (queue : ShmQueue α) : QueueAction α → ShmQueue α
  | .enqueue thread item => if queue.producers thread = .idle then queue.setProducer thread (.readHead item) else queue
  | .producerStep thread => queue.producerStep thread
  | .producerGiveUp thread => queue.producerGiveUp thread
  | .dequeue thread => if queue.consumers thread = .idle then queue.setConsumer thread (.readHead false) else queue
  | .consumerStep thread => queue.consumerStep thread
  | .consumerGiveUp thread => queue.consumerGiveUp thread
  | .check => if queue.checker = .idle then { queue with checker := .readTail queue.prodHead } else queue
  | .checkerStep => queue.checkerStep
  | .expire => queue.expire

end ShmQueue

end UbsComm.Shm
