import XiaoNet.Net.TimerQueue

/-!
# The timers of an `EventLoop`

`runAt`, `runAfter`, `runEvery` and `invalidateTimer` of `net/EventLoop.cpp`, called in the loop
thread or in any other.

- A call in the loop thread has its effect on the `TimerQueue` at once, one in another thread
  queues a closure (`Closure`). `funcs` is what `funcs_` holds: a list used as a queue, as
  `MpscQueue.Threads.items_step` says of it.
- `runAt` and its siblings make the timer (`addTimer`), go on with `addInLoop` or `queueAdd`, and
  return the id. `invalidateTimer` looks at `isRunning`; in another thread the closure is
  queued later (`queueErase`).
- `log` records when a timer is cancelled and when a callback runs. A call of `invalidateTimer`
  in another thread cancels when its closure runs, or at once when it queues none.

The steps of the loop are those that matter here. Other functions in the queue and other
events do nothing to the timers but make calls in the loop thread.
-/

namespace XiaoNet

universe u

/-- A closure of `TimerQueue` in `funcs_`. -/
inductive Closure where
  | addTimer (id : TimerId)
  | eraseTimer (id : TimerId)
  deriving DecidableEq, Repr

inductive CancelEvent where
  | cancelled (id : TimerId)
  | ran (id : TimerId)
  deriving DecidableEq, Repr

structure EventLoopTimers (P : PriorityQueue.{0, 0, u} Timer.when) where
  looping : Bool
  quit : Bool
  /-- Between the two stores at the start of `loop()`. -/
  starting : Bool
  funcs : List Closure
  timers : TimerQueue P
  /-- The ids that calls have returned. -/
  returned : List TimerId
  /-- Calls of `invalidateTimer` in other threads that have seen `isRunning`. -/
  erasing : List TimerId
  log : List CancelEvent

namespace EventLoopTimers

variable {P : PriorityQueue.{0, 0, u} Timer.when}

def new (P : PriorityQueue.{0, 0, u} Timer.when) : EventLoopTimers P where
  looping := false
  quit := false
  starting := false
  funcs := []
  timers := .new P
  returned := []
  erasing := []
  log := []

def isRunning (s : EventLoopTimers P) : Bool := s.looping && !s.quit

/-- The loop thread is in a round of the loop. -/
def inRound (s : EventLoopTimers P) : Bool := s.looping && !s.starting

/-- The timer that the next callback of the pass is of. -/
def next (s : EventLoopTimers P) : Option Timer :=
  match s.timers.pass with
  | some ⟨_, _, t :: _⟩ => if t.id ∈ s.timers.timerIdSet then some t else none
  | _ => none

inductive Op where
  /-- The loop thread: the two stores of `loop()`, and its end. -/
  | loop
  | clearQuit
  | endLoop
  /-- Any thread. -/
  | quit
  /-- Any thread: a timer is made. -/
  | addTimer (when : TimePoint) (interval : TimeInterval)
  /-- The loop thread, and another one: the rest of the call. -/
  | addInLoop (id : TimerId) (clock : TimePoint)
  | queueAdd (id : TimerId)
  | invalidateTimer (inLoop : Bool) (id : TimerId)
  | queueErase (id : TimerId)
  /-- The loop thread runs the next function. -/
  | runFunc (clock : TimePoint)
  /-- The loop thread: a pass over the expired timers. -/
  | handleRead (now : TimePoint)
  | callback
  | resetExpired (clock : TimePoint)

/-- The timer has been made and its id has not been returned. -/
def pending (s : EventLoopTimers P) (id : TimerId) : Bool :=
  s.timers.created.any (·.id = id) && !s.returned.contains id

def record (s : EventLoopTimers P) (e : CancelEvent) : EventLoopTimers P :=
  { s with log := s.log ++ [e] }

def step (s : EventLoopTimers P) : Op → EventLoopTimers P
  | .loop => if s.looping then s else { s with looping := true, starting := true }
  | .clearQuit => if s.starting then { s with quit := false, starting := false } else s
  | .endLoop =>
    if s.inRound = true ∧ s.quit = true ∧ s.timers.pass = none then { s with looping := false } else s
  | .quit => { s with quit := true }
  | .addTimer when interval => { s with timers := s.timers.step (.addTimer when interval) }
  | .addInLoop id clock =>
    if s.pending id then
      { s with timers := s.timers.step (.addTimerInLoop id clock), returned := id :: s.returned }
    else s
  | .queueAdd id =>
    if s.pending id then
      { s with funcs := s.funcs ++ [.addTimer id], returned := id :: s.returned }
    else s
  | .invalidateTimer inLoop id =>
    if id ∈ s.returned then
      if inLoop then
        if s.isRunning then
          { s with timers := s.timers.step (.invalidateTimer id) }.record (.cancelled id)
        else s.record (.cancelled id)
      else
        if s.isRunning then { s with erasing := id :: s.erasing } else s.record (.cancelled id)
    else s
  | .queueErase id =>
    if id ∈ s.erasing then
      { s with funcs := s.funcs ++ [.eraseTimer id], erasing := s.erasing.erase id }
    else s
  | .runFunc clock =>
    if s.inRound then
      match s.funcs with
      | .addTimer id :: funcs =>
        { s with funcs := funcs, timers := s.timers.step (.addTimerInLoop id clock) }
      | .eraseTimer id :: funcs =>
        { s with
          funcs := funcs, timers := s.timers.step (.invalidateTimer id) }.record (.cancelled id)
      | [] => s
    else s
  | .handleRead now => if s.inRound then { s with timers := s.timers.step (.handleRead now) } else s
  | .callback =>
    let s' := { s with timers := s.timers.step .callback }
    match s.next with
    | some t => s'.record (.ran t.id)
    | none => s'
  | .resetExpired clock => { s with timers := s.timers.step (.resetExpired clock) }

end EventLoopTimers

end XiaoNet
