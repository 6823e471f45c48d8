import Mathlib.Algebra.Group.Nat.Defs
import XiaoNet.Utils.LockFreeQueue

/-!
# `EventLoop`

The loop of `net/EventLoop.{h,cpp}` and the threads that hand functions to it.

- `LoopPc` is where the loop thread is in `loop()`, `Caller` where a thread is in
  `queueInLoop` or `quit`. The steps of `funcs_.enqueue` and `funcs_.dequeue` are those of
  `MpscQueue`; the counter of the `eventfd` is `wakeupFd`.
- `step` is the next step of one thread. The loop thread runs code of the user before and
  after `loop()`, in the callbacks of events and timers and in queued functions (`runsUser`);
  there it can call `queueInLoop` and `quit` like the other threads.
- `epoll_wait` can return at any time. It reports the `eventfd` only when its counter is not
  0, and does not have to report it when there are other events.

An exception that leaves `loop()` leaves the functions where they are. The code that called
`loop()` may catch it and call `loop()` again.
-/

namespace XiaoNet

universe u v

/-- Where the loop thread is. -/
inductive LoopPc where
  /-- Outside `loop()`. -/
  | outside
  /-- `looping_` is set. -/
  | started
  /-- At the test of `quit_`. -/
  | test
  | polling
  /-- The active channels are handled; `woken`: `wakeupRead` is still to be called. -/
  | handling (woken : Bool)
  /-- At `while (!funcs_.empty())`. -/
  | outer
  /-- At `while (funcs_.dequeue(func))`. -/
  | inner
  /-- In `dequeue`. -/
  | taking
  /-- In a queued function. -/
  | running
  /-- An exception is on its way out of `loop()`; the functions on quit run. -/
  | threw
  deriving DecidableEq, Repr

/-- The loop thread is in code of the user. -/
def LoopPc.runsUser : LoopPc → Bool
  | .outside | .handling _ | .running | .threw => true
  | _ => false

/-- Where a thread is in `queueInLoop` or `quit`. -/
inductive Caller where
  | idle
  /-- In `funcs_.enqueue`. -/
  | enqueueing
  /-- At the test whether to wake the loop up. -/
  | enqueued
  /-- At the `write` of `wakeup`. -/
  | waking
  /-- At the `write` of `wakeup` that `quit` calls. -/
  | quitting
  deriving DecidableEq, Repr

structure EventLoop (ι : Type u) (F : Type v) where
  threadId : ι
  looping : Bool
  quit : Bool
  /-- The counter of the `eventfd`. -/
  wakeupFd : Nat
  funcs : MpscQueue.Threads ι F
  callers : ι → Caller
  pc : LoopPc

namespace EventLoop

variable {ι : Type u} {F : Type v}

/-- As constructed in thread `threadId`. -/
def new (threadId : ι) : EventLoop ι F where
  threadId := threadId
  looping := false
  quit := false
  wakeupFd := 0
  funcs := .start
  callers _ := .idle
  pc := .outside

/-- The most the counter of an `eventfd` holds. -/
def eventfdMax : Nat := 2 ^ 64 - 2

/-- `write(wakeupFd_, &one, 8)`; on a full counter it fails. -/
def writeWakeupFd (s : EventLoop ι F) : EventLoop ι F :=
  { s with wakeupFd := if s.wakeupFd < eventfdMax then s.wakeupFd + 1 else s.wakeupFd }

/-- The next step of a thread. -/
inductive Act (ι : Type u) (F : Type v) where
  /-- Call `queueInLoop`. -/
  | queueInLoop (p : ι) (f : F)
  /-- In `funcs_.enqueue`: the exchange and the store of the link. -/
  | exchange (p : ι)
  | link (p : ι)
  /-- `!isInLoopThread() || !looping_`. -/
  | testWakeup (p : ι)
  | wakeup (p : ι)
  | quit (p : ι)
  /-- Call `loop()`. -/
  | loop
  | clearQuit
  | testQuit
  /-- `epoll_wait` returns. -/
  | poll (woken : Bool)
  | wakeupRead
  /-- All active channels are handled. -/
  | handled
  | testFuncs
  | dequeue
  | take
  /-- The function returns. -/
  | funcReturns
  /-- Code of the user throws. -/
  | userThrows
  /-- The exception is caught outside `loop()`. -/
  | caught

variable [DecidableEq ι]

/-- The thread can call a function of the loop. -/
def free (s : EventLoop ι F) (p : ι) : Bool :=
  s.callers p == .idle && (p != s.threadId || s.pc.runsUser)

/-- The loop thread is in no call. -/
def own (s : EventLoop ι F) : Bool := s.callers s.threadId == .idle

def setCaller (s : EventLoop ι F) (p : ι) (caller : Caller) : EventLoop ι F :=
  { s with callers := Function.update s.callers p caller }

/-- A step of the loop thread from `pc` on. -/
def loopStep (s : EventLoop ι F) (pc : LoopPc) (next : EventLoop ι F) : EventLoop ι F :=
  if s.pc = pc ∧ s.own = true then next else s

def step (s : EventLoop ι F) : Act ι F → EventLoop ι F
  | .queueInLoop p f =>
    if s.free p then
      { s with funcs := s.funcs.step (.enqueue p f) }.setCaller p .enqueueing
    else s
  | .exchange p => { s with funcs := s.funcs.step (.exchange p) }
  | .link p =>
    match s.funcs.producers p with
    | .exchanged _ _ => { s with funcs := s.funcs.step (.link p) }.setCaller p .enqueued
    | _ => s
  | .testWakeup p =>
    if s.callers p = .enqueued then
      s.setCaller p (if p ≠ s.threadId ∨ s.looping = false then .waking else .idle)
    else s
  | .wakeup p =>
    if s.callers p = .waking ∨ s.callers p = .quitting then s.writeWakeupFd.setCaller p .idle
    else s
  | .quit p =>
    if s.free p then
      if p ≠ s.threadId then { s with quit := true }.setCaller p .quitting
      else { s with quit := true }
    else s
  | .loop => s.loopStep .outside { s with looping := true, pc := .started }
  | .clearQuit => s.loopStep .started { s with quit := false, pc := .test }
  | .testQuit =>
    s.loopStep .test
      (if s.quit then { s with looping := false, pc := .outside } else { s with pc := .polling })
  | .poll woken =>
    s.loopStep .polling
      (if woken = true ∧ s.wakeupFd = 0 then s else { s with pc := .handling woken })
  | .wakeupRead => s.loopStep (.handling true) { s with wakeupFd := 0, pc := .handling false }
  | .handled => s.loopStep (.handling false) { s with pc := .outer }
  | .testFuncs =>
    s.loopStep .outer
      { s with
        funcs := s.funcs.step .empty
        pc := if s.funcs.isEmpty then .test else .inner }
  | .dequeue =>
    s.loopStep .inner
      { s with
        funcs := s.funcs.step .dequeue
        pc := if s.funcs.isEmpty then .outer else .taking }
  | .take => s.loopStep .taking { s with funcs := s.funcs.step .take, pc := .running }
  | .funcReturns => s.loopStep .running { s with pc := .inner }
  | .userThrows =>
    match s.pc with
    | .handling _ | .running => if s.own then { s with looping := false, pc := .threw } else s
    | _ => s
  | .caught => s.loopStep .threw { s with pc := .outside }

end EventLoop

end XiaoNet
