import Mathlib.Logic.Function.Basic
import XiaoNet.Lib.Runs

/-!
# `ConcurrentTaskQueue`

A queue of tasks and the threads that run them (`utils/ConcurrentTaskQueue.{h,cpp}`).

- The threads are the `n` workers and any others (`Thread`). All of them can call
  `runTaskInQueue` and `stop`, a worker from the task it runs.
- `Worker` is where a worker is in `queueFunc`, `Caller` where a thread is in a call.
- `step` is the next step of one thread. A step that is not possible changes nothing.

`wait` gives the mutex back and blocks in one step. A blocked worker is woken up by
`notify_one`, by `notify_all`, or for no reason; then it has to get the mutex. The test of the
inner loop reads `stop_` and then the size of the queue; it is one step because the size
cannot change while the worker has the mutex. A `stop` in a task is simplified: here the worker
waits in the joins for ever, where `std::thread::join` throws `resource_deadlock_would_occur`.
-/

namespace XiaoNet

universe u v

namespace ConcurrentTaskQueue

/-- The threads. -/
inductive Thread (n : Nat) (ι : Type u) where
  | worker (w : Fin n)
  | other (p : ι)
  deriving DecidableEq, Repr

/-- Where a worker is in `queueFunc`. -/
inductive Worker (F : Type v) where
  /-- Before the test of the outer loop. -/
  | outer
  /-- Before it has the mutex. -/
  | locking
  /-- Before the test of the inner loop. -/
  | testing
  /-- Before `wait`. -/
  | toWait
  /-- In `wait`, with no notification. -/
  | blocked
  /-- In `wait`, before it has the mutex again. -/
  | woken
  /-- After the inner loop. -/
  | taking
  | running (r : F)
  | returned
  deriving Repr

/-- Where a thread is in `runTaskInQueue` or `stop`. -/
inductive Caller (F : Type v) where
  | idle
  /-- In `runTaskInQueue`: before it has the mutex, before `push`, `notify_one` and `unlock`. -/
  | locking (task : F)
  | pushing (task : F)
  | notifyingOne
  | unlocking
  /-- In `stop`: before `stop_ = true`, before `notify_all`, in the joins. -/
  | settingStop
  | notifyingAll
  | joining
  deriving Repr

def Worker.isBlocked {F : Type v} : Worker F → Bool
  | .blocked => true
  | _ => false

def Worker.hasReturned {F : Type v} : Worker F → Bool
  | .returned => true
  | _ => false

end ConcurrentTaskQueue

open ConcurrentTaskQueue

structure ConcurrentTaskQueue (n : Nat) (ι : Type u) (F : Type v) where
  taskQueue : List F
  /-- Who has `taskMutex_`. -/
  taskMutex : Option (Thread n ι)
  stop : Bool
  workers : Fin n → Worker F
  callers : Thread n ι → Caller F

namespace ConcurrentTaskQueue

variable {n : Nat} {ι : Type u} {F : Type v}

/-- The constructor has started the threads. -/
def new : ConcurrentTaskQueue n ι F where
  taskQueue := []
  taskMutex := none
  stop := false
  workers _ := .outer
  callers _ := .idle

/-- Whose step is next, and what it does where that is open. -/
inductive Act (n : Nat) (ι : Type u) (F : Type v) where
  /-- The worker goes on in `queueFunc`; a blocked one wakes up for no reason. -/
  | worker (w : Fin n)
  /-- The thread calls `runTaskInQueue` or `stop`. -/
  | runTaskInQueue (p : Thread n ι) (task : F)
  | stop (p : Thread n ι)
  /-- The thread goes on in its call. `notify_one` wakes up `w`, or nobody when nobody is
  blocked. -/
  | caller (p : Thread n ι) (w : Option (Fin n))

variable [DecidableEq ι]

def setWorker (s : ConcurrentTaskQueue n ι F) (w : Fin n) (pc : Worker F) :
    ConcurrentTaskQueue n ι F :=
  { s with workers := Function.update s.workers w pc }

def setCaller (s : ConcurrentTaskQueue n ι F) (p : Thread n ι) (pc : Caller F) :
    ConcurrentTaskQueue n ι F :=
  { s with callers := Function.update s.callers p pc }

/-- The thread can call a function of the queue. -/
def free (s : ConcurrentTaskQueue n ι F) (p : Thread n ι) : Bool :=
  match s.callers p, p with
  | .idle, .other _ => true
  | .idle, .worker w =>
    match s.workers w with
    | .running _ => true
    | _ => false
  | _, _ => false

/-- What `notify_all` does to a worker. -/
def Worker.notified : Worker F → Worker F
  | .blocked => .woken
  | pc => pc

def notifyAll (s : ConcurrentTaskQueue n ι F) : ConcurrentTaskQueue n ι F :=
  { s with workers := fun w => (s.workers w).notified }

/-- The next step of a worker in `queueFunc`. -/
def stepWorker (s : ConcurrentTaskQueue n ι F) (w : Fin n) : Worker F → ConcurrentTaskQueue n ι F
  | .outer => s.setWorker w (if s.stop then .returned else .locking)
  | .locking | .woken =>
    if s.taskMutex.isNone then { s.setWorker w .testing with taskMutex := some (.worker w) }
    else s
  | .testing => s.setWorker w (if !s.stop && s.taskQueue.isEmpty then .toWait else .taking)
  | .toWait => { s.setWorker w .blocked with taskMutex := none }
  | .blocked => s.setWorker w .woken
  | .taking =>
    match s.taskQueue with
    | r :: rest => { s.setWorker w (.running r) with taskQueue := rest, taskMutex := none }
    | [] => { s.setWorker w .outer with taskMutex := none }
  | .running _ => if s.free (.worker w) then s.setWorker w .outer else s
  | .returned => s

/-- The next step of a thread in a call. -/
def stepCaller (s : ConcurrentTaskQueue n ι F) (p : Thread n ι) (w : Option (Fin n)) :
    Caller F → ConcurrentTaskQueue n ι F
  | .idle => s
  | .locking task =>
    if s.taskMutex.isNone then { s.setCaller p (.pushing task) with taskMutex := some p } else s
  | .pushing task => { s.setCaller p .notifyingOne with taskQueue := s.taskQueue ++ [task] }
  | .notifyingOne =>
    match w with
    | some w =>
      if (s.workers w).isBlocked then (s.setWorker w .woken).setCaller p .unlocking else s
    | none => if ∃ w, (s.workers w).isBlocked = true then s else s.setCaller p .unlocking
  | .unlocking => { s.setCaller p .idle with taskMutex := none }
  | .settingStop => { s.setCaller p .notifyingAll with stop := true }
  | .notifyingAll => s.notifyAll.setCaller p .joining
  | .joining => if ∀ w, (s.workers w).hasReturned = true then s.setCaller p .idle else s

/-- A `stop` that finds `stop_` set returns at once. -/
def step (s : ConcurrentTaskQueue n ι F) : Act n ι F → ConcurrentTaskQueue n ι F
  | .worker w => s.stepWorker w (s.workers w)
  | .runTaskInQueue p task => if s.free p then s.setCaller p (.locking task) else s
  | .stop p => if s.free p && !s.stop then s.setCaller p .settingStop else s
  | .caller p w => s.stepCaller p w (s.callers p)

end ConcurrentTaskQueue

end XiaoNet
