import Mathlib.Logic.Function.Basic
import XiaoNet.Lib.Runs

/-!
# `MpscQueue`

The lock-free queue of `utils/LockFreeQueue.h`: any number of producers call `enqueue`,
one consumer calls `dequeue` and `empty`.

- `MpscQueue`: the two pointers and the heap of nodes; a deleted node is gone from the heap.
- `Threads`: the queue with the threads that use it, each at a point between two atomic
  operations; `step` is the next operation of one thread. An operation a thread is not at
  does nothing. `fault` is set when a thread touches a deleted node.
- `inputs`, `enqueued` and `dequeued` record the calls of `enqueue`, the items in the order
  in which they were put at `head_`, and the items that came out.
-/

namespace XiaoNet

universe u v

namespace MpscQueue

abbrev NodeId := Nat

/-- `MpscQueue::BufferNode`; the data of the first node and of one that was taken is not
there. -/
structure BufferNode (T : Type u) where
  dataPtr : Option T
  next : Option NodeId
  deriving DecidableEq, Repr

end MpscQueue

structure MpscQueue (T : Type u) where
  /-- The nodes that were made and not deleted. -/
  nodes : MpscQueue.NodeId → Option (MpscQueue.BufferNode T)
  /-- The name of the next node. -/
  fresh : MpscQueue.NodeId
  head : MpscQueue.NodeId
  tail : MpscQueue.NodeId

namespace MpscQueue

variable {ι : Type u} {T : Type v}

/-- As constructed, with one node that has no data. -/
def new : MpscQueue T where
  nodes := Function.update (fun _ => none) 0 (some ⟨none, none⟩)
  fresh := 1
  head := 0
  tail := 0

/-- `new BufferNode(input)`. -/
def newBufferNode (q : MpscQueue T) (input : T) : MpscQueue T :=
  { q with
    nodes := Function.update q.nodes q.fresh (some ⟨some input, none⟩)
    fresh := q.fresh + 1 }

/-- `head_.exchange(node)`. -/
def exchange (q : MpscQueue T) (node : NodeId) : MpscQueue T × NodeId :=
  ({ q with head := node }, q.head)

/-- `prevhead->next_.store(node)`. -/
def storeNext (q : MpscQueue T) (prevhead node : NodeId) : Option (MpscQueue T) :=
  (q.nodes prevhead).map fun n =>
    { q with nodes := Function.update q.nodes prevhead (some { n with next := some node }) }

/-- `tail_->next_.load()`. -/
def loadNext (q : MpscQueue T) : Option (Option NodeId) :=
  (q.nodes q.tail).map BufferNode.next

/-- The rest of `dequeue` once it knows the next node: the item is moved out, `tail_` is
stored and the old tail is deleted. -/
def takeNext (q : MpscQueue T) (tail next : NodeId) : Option (T × MpscQueue T) :=
  match q.nodes next with
  | none => none
  | some n =>
    n.dataPtr.map fun output =>
      (output, { q with
        nodes := Function.update (Function.update q.nodes next (some { n with dataPtr := none }))
          tail none
        tail := next })

/-! ## Threads -/

/-- Where a producer is: outside `enqueue`, before the exchange of `head_`, or before the
store of `next_`. -/
inductive Producer (T : Type v) where
  | idle
  | created (node : NodeId) (input : T)
  | exchanged (node prevhead : NodeId)
  deriving DecidableEq, Repr

/-- Where the consumer is: outside `dequeue`, or before the store of `tail_`. -/
inductive Consumer where
  | idle
  | loaded (tail next : NodeId)
  deriving DecidableEq, Repr

/-- An item that was put at `head_`. -/
structure Entry (ι : Type u) (T : Type v) where
  producer : ι
  node : NodeId
  input : T
  deriving DecidableEq, Repr

structure Threads (ι : Type u) (T : Type v) where
  queue : MpscQueue T
  producers : ι → Producer T
  consumer : Consumer
  fault : Bool
  inputs : ι → List T
  enqueued : List (Entry ι T)
  dequeued : List T

/-- The next atomic operation of a producer or of the consumer. -/
inductive Act (ι : Type u) (T : Type v) where
  /-- Call `enqueue` and make the node. -/
  | enqueue (p : ι) (input : T)
  /-- Exchange `head_`. -/
  | exchange (p : ι)
  /-- Store `next_` and return from `enqueue`. -/
  | link (p : ι)
  /-- Call `dequeue` and load `tail_->next_`; it returns when there is none. -/
  | dequeue
  /-- Store `tail_` and return from `dequeue`. -/
  | take
  /-- Call `empty`, which loads `tail_->next_`. -/
  | empty

namespace Threads

def start : Threads ι T where
  queue := .new
  producers _ := .idle
  consumer := .idle
  fault := false
  inputs _ := []
  enqueued := []
  dequeued := []

/-- What `empty` returns. -/
def isEmpty (s : Threads ι T) : Bool := s.queue.loadNext == some none

variable [DecidableEq ι]

def step (s : Threads ι T) : Act ι T → Threads ι T
  | .enqueue p input =>
    match s.producers p with
    | .idle =>
      { s with
        queue := s.queue.newBufferNode input
        producers := Function.update s.producers p (.created s.queue.fresh input)
        inputs := Function.update s.inputs p (s.inputs p ++ [input]) }
    | _ => s
  | .exchange p =>
    match s.producers p with
    | .created node input =>
      let (queue, prevhead) := s.queue.exchange node
      { s with
        queue := queue
        producers := Function.update s.producers p (.exchanged node prevhead)
        enqueued := s.enqueued ++ [⟨p, node, input⟩] }
    | _ => s
  | .link p =>
    match s.producers p with
    | .exchanged node prevhead =>
      match s.queue.storeNext prevhead node with
      | some queue => { s with queue := queue, producers := Function.update s.producers p .idle }
      | none => { s with fault := true }
    | _ => s
  | .dequeue =>
    match s.consumer with
    | .idle =>
      match s.queue.loadNext with
      | some (some next) => { s with consumer := .loaded s.queue.tail next }
      | some none => s
      | none => { s with fault := true }
    | .loaded _ _ => s
  | .take =>
    match s.consumer with
    | .loaded tail next =>
      match s.queue.takeNext tail next with
      | some (output, queue) =>
        { s with queue := queue, consumer := .idle, dequeued := s.dequeued ++ [output] }
      | none => { s with fault := true }
    | .idle => s
  | .empty =>
    match s.consumer with
    | .idle =>
      match s.queue.loadNext with
      | some _ => s
      | none => { s with fault := true }
    | .loaded _ _ => s

/-- `dequeue` until it returns false; the second component says that it did. -/
def drain : Nat → Threads ι T → Threads ι T × Bool
  | 0, s => (s, false)
  | fuel + 1, s =>
    match s.queue.loadNext with
    | some (some _) => drain fuel ((s.step .dequeue).step .take)
    | _ => (s, true)

end Threads

end MpscQueue

end XiaoNet
