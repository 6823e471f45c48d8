import XiaoNet.Net.EventLoopFuncs

/-!
# `SerialTaskQueue`

A queue whose tasks are the functions of one event loop (`utils/SerialTaskQueue.{h,cpp}`,
`utils/TaskQueue.h`), and the threads that use it.

- `runTaskInQueue` is `runInLoop`: in the thread of the loop the task runs at once, as a part of
  what that thread is doing, and elsewhere it is queued. `queueInLoop` queues it everywhere.
- `syncTaskInQueue` makes a promise, queues a function that runs the task and then sets the
  value, and waits in `fut.get()`; `get` is the step that returns from there. A thread that waits
  makes no other call. `waitAllTasksFinished` is such a call, with a task that does nothing.
- `returned` records the functions that have returned. A function that throws ends the loop, and
  its promise is never set.

The steps of the loop are those of `EventLoop`. Its thread is that of an `EventLoopThread`, where
an exception that leaves `loop()` ends the program: it is not caught.
-/

namespace XiaoNet

universe u v

namespace SerialTaskQueue

/-- A function of the loop: a task, and the promise that is set after it. -/
structure Func (τ : Type v) where
  task : τ
  promise : Option Nat
  deriving DecidableEq, Repr

/-- What a thread waits for, and how many functions had been put into the queue when it called. -/
structure Wait where
  promise : Nat
  before : Nat
  deriving DecidableEq, Repr

end SerialTaskQueue

open SerialTaskQueue

structure SerialTaskQueue (ι : Type u) (τ : Type v) where
  loop : EventLoop ι (Func τ)
  /-- The promises that were made; their numbers are below it. -/
  promises : Nat
  isSet : Nat → Bool
  waits : ι → Option Wait
  returned : List (Func τ)

namespace SerialTaskQueue

variable {ι : Type u} {τ : Type v}

/-- The loop has been made in thread `threadId`. -/
def new (threadId : ι) : SerialTaskQueue ι τ where
  loop := .new threadId
  promises := 0
  isSet _ := false
  waits _ := none
  returned := []

inductive Act (ι : Type u) (τ : Type v) where
  | queueInLoop (p : ι) (task : τ)
  | runTaskInQueue (p : ι) (task : τ)
  | syncTaskInQueue (p : ι) (task : τ)
  /-- `fut.get()` returns. -/
  | get (p : ι)
  /-- Another step of the loop or of a thread in a call. -/
  | loop (a : EventLoop.Act ι (Func τ))

variable [DecidableEq ι]

/-- The thread can make a call. -/
def canCall (s : SerialTaskQueue ι τ) (p : ι) : Bool := (s.waits p).isNone && s.loop.free p

/-- `loop->queueInLoop(f)`. -/
def enqueue (s : SerialTaskQueue ι τ) (p : ι) (f : Func τ) : SerialTaskQueue ι τ :=
  { s with loop := s.loop.step (.queueInLoop p f) }

/-- The function that the loop thread is in returns; when it has a promise, that is set. -/
def funcReturns (s : SerialTaskQueue ι τ) : SerialTaskQueue ι τ :=
  match s.loop.funcs.dequeued.getLast? with
  | some f =>
    { s with
      loop := s.loop.step .funcReturns
      isSet := match f.promise with
        | some k => Function.update s.isSet k true
        | none => s.isSet
      returned := s.returned ++ [f] }
  | none => { s with loop := s.loop.step .funcReturns }

def stepLoop (s : SerialTaskQueue ι τ) : EventLoop.Act ι (Func τ) → SerialTaskQueue ι τ
  | .queueInLoop _ _ | .caught => s
  | .quit p => if (s.waits p).isNone then { s with loop := s.loop.step (.quit p) } else s
  | .funcReturns => if s.loop.pc = .running ∧ s.loop.own = true then s.funcReturns else s
  | a => { s with loop := s.loop.step a }

/-- A call, or another step. Of the calls of the loop's own thread `queueInLoop` alone changes
something here: in that thread the task of the others runs at once and they return. -/
def step (s : SerialTaskQueue ι τ) : Act ι τ → SerialTaskQueue ι τ
  | .queueInLoop p task => if s.canCall p then s.enqueue p ⟨task, none⟩ else s
  | .runTaskInQueue p task =>
    if s.canCall p && p != s.loop.threadId then s.enqueue p ⟨task, none⟩ else s
  | .syncTaskInQueue p task =>
    if s.canCall p && p != s.loop.threadId then
      { s.enqueue p ⟨task, some s.promises⟩ with
        promises := s.promises + 1
        waits := Function.update s.waits p (some ⟨s.promises, s.loop.enqueued.length⟩) }
    else s
  | .get p =>
    match s.waits p with
    | some w =>
      if s.isSet w.promise && s.loop.callers p == .idle then
        { s with waits := Function.update s.waits p none }
      else s
    | none => s
  | .loop a => s.stepLoop a

end SerialTaskQueue

end XiaoNet
