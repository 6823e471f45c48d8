import XiaoNet.Net.EventLoop

/-!
# `EventLoopThread`

A thread that makes an `EventLoop` and runs it (`net/EventLoopThread.{h,cpp}`), and the
threads that use it.

- The threads are the loop thread, the owner of the object and any others (`Party`).
- `LoopFuncs` is where the loop thread is in `loopFuncs`, `Run` where a thread is in
  `run`, `Owner` where the owner is between the constructor and the end of the destructor.
- `step` is the next step of one thread. The steps in the loop and in calls of `queueInLoop`
  and `quit` are those of `EventLoop` (`loop`), as far as `allowed` lets them happen.

Any thread can call `run` and `queueInLoop` once the constructor has returned. `quit` is
called on the loop when a call of `run` has returned, or by a function that the loop runs.
An exception that leaves `loop()` ends the program.
-/

namespace XiaoNet

universe u v

/-- The threads. -/
inductive Party (ι : Type u) where
  | loopThread
  | owner
  | other (p : ι)
  deriving DecidableEq, Repr

/-- What is queued: `promiseForLoop_.set_value(1)`, or a function of the user. -/
inductive LoopFunc (F : Type v) where
  | promiseForLoop
  | user (f : F)
  deriving DecidableEq, Repr

/-- Where the loop thread is in `loopFuncs`. -/
inductive LoopFuncs where
  | started
  /-- In `queueInLoop`. -/
  | queueing
  /-- At the `get` of `promiseForRun_`. -/
  | getting
  /-- In `loop()`. -/
  | looping
  /-- Before `loop_ = nullptr`. -/
  | looped
  | returned
  deriving DecidableEq, Repr

/-- Where a thread is in `run`. -/
inductive Run where
  | idle
  /-- At `std::call_once`. -/
  | calling
  /-- In the function that is called once, before `promiseForRun_.set_value(1)`. -/
  | setting
  /-- At the `get` of `promiseForLoop_`. -/
  | getting
  deriving DecidableEq, Repr

/-- `std::once_flag`. -/
inductive OnceFlag where
  | notCalled
  | active
  | returned
  deriving DecidableEq, Repr

/-- Where the owner is. -/
inductive Owner where
  /-- At the `get` of `promiseForLoopPointer_`. -/
  | constructing
  | constructed
  /-- In `wait`. -/
  | waiting
  /-- In the destructor: in `run`, before `loop = loop_`, before `quit`, in `quit`, in
  `join`. -/
  | running
  | reading
  | quitting
  | waking
  | joining
  | destroyed
  deriving DecidableEq, Repr

structure EventLoopThread (ι : Type u) (F : Type v) where
  /-- The loop that the thread makes. -/
  loop : EventLoop (Party ι) (LoopFunc F)
  /-- `loop_` is not null. -/
  hasLoop : Bool
  promiseForLoopPointer : Bool
  promiseForRun : Bool
  promiseForLoop : Bool
  once : OnceFlag
  joinable : Bool
  loopFuncs : LoopFuncs
  runs : Party ι → Run
  owner : Owner

namespace EventLoopThread

variable {ι : Type u} {F : Type v}

/-- The owner has started the constructor, and the constructor the thread. -/
def start : EventLoopThread ι F where
  loop := .new .loopThread
  hasLoop := false
  promiseForLoopPointer := false
  promiseForRun := false
  promiseForLoop := false
  once := .notCalled
  joinable := true
  loopFuncs := .started
  runs _ := .idle
  owner := .constructing

/-- The next step of a thread. -/
inductive Act (ι : Type u) (F : Type v) where
  /-- The loop thread: `queueInLoop`, `promiseForLoopPointer_.set_value(loop)`, the return of
  `promiseForRun_`'s `get`, the return of `loop()`, and `loop_ = nullptr`. -/
  | queueFirst
  | setLoopPointer
  | gotRun
  | loopReturns
  | resetLoop
  /-- A step in the loop, or of a call on it. -/
  | loop (a : EventLoop.Act (Party ι) (LoopFunc F))
  /-- A thread calls `run`, enters `call_once`, sets `promiseForRun_`, and returns. -/
  | run (p : Party ι)
  | callOnce (p : Party ι)
  | setRun (p : Party ι)
  | gotLoop (p : Party ι)
  /-- The owner: the constructor returns; `wait`; the destructor, step by step. -/
  | construct
  | wait
  | waited
  | destroy
  | ran
  | read
  | quit
  | woken
  | joined

variable [DecidableEq ι]

/-- The thread can call a function of the object or of its loop. -/
def free (s : EventLoopThread ι F) (p : Party ι) : Bool :=
  s.loop.free p && s.runs p == .idle &&
    match p with
    | .loopThread => s.loopFuncs == .looping
    | .owner => s.owner == .constructed
    | .other _ => s.owner != .constructing

/-- The step of the loop can be the next one. -/
def allowed (s : EventLoopThread ι F) : EventLoop.Act (Party ι) (LoopFunc F) → Bool
  | .queueInLoop p (.user _) => s.free p
  | .queueInLoop _ .promiseForLoop => false
  | .exchange _ | .link _ | .testWakeup _ | .wakeup _ => true
  | .quit p => s.free p && (p == .loopThread || s.once == .returned && s.hasLoop)
  | .loop | .userThrows | .caught => false
  | .clearQuit | .testQuit | .poll _ | .wakeupRead | .handled | .testFuncs | .dequeue | .take
  | .funcReturns => s.loopFuncs == .looping && s.runs .loopThread == .idle

/-- The function that returns now is the one that sets `promiseForLoop_`. -/
def setsLoop (s : EventLoopThread ι F) : EventLoop.Act (Party ι) (LoopFunc F) → Bool
  | .funcReturns =>
    s.loop.pc == .running && s.loop.own &&
      match s.loop.funcs.dequeued.getLast? with
      | some .promiseForLoop => true
      | _ => false
  | _ => false

def setRuns (s : EventLoopThread ι F) (p : Party ι) (run : Run) : EventLoopThread ι F :=
  { s with runs := Function.update s.runs p run }

def step (s : EventLoopThread ι F) : Act ι F → EventLoopThread ι F
  | .queueFirst =>
    if s.loopFuncs = .started then
      { s with
        loop := s.loop.step (.queueInLoop .loopThread .promiseForLoop), loopFuncs := .queueing }
    else s
  | .setLoopPointer =>
    if s.loopFuncs = .queueing ∧ s.loop.own = true then
      { s with promiseForLoopPointer := true, loopFuncs := .getting }
    else s
  | .gotRun =>
    if s.loopFuncs = .getting ∧ s.promiseForRun = true then
      { s with loop := s.loop.step .loop, loopFuncs := .looping }
    else s
  | .loopReturns =>
    if s.loopFuncs = .looping ∧ s.loop.pc = .outside then { s with loopFuncs := .looped } else s
  | .resetLoop =>
    if s.loopFuncs = .looped then { s with hasLoop := false, loopFuncs := .returned } else s
  | .loop a =>
    if s.allowed a then
      { s with loop := s.loop.step a, promiseForLoop := s.promiseForLoop || s.setsLoop a }
    else s
  | .run p => if s.free p then s.setRuns p .calling else s
  | .callOnce p =>
    if s.runs p = .calling then
      match s.once with
      | .notCalled => { s with once := .active }.setRuns p .setting
      | .active => s
      | .returned => s.setRuns p .idle
    else s
  | .setRun p =>
    if s.runs p = .setting then { s with promiseForRun := true }.setRuns p .getting else s
  | .gotLoop p =>
    if s.runs p = .getting ∧ s.promiseForLoop = true then
      { s with once := .returned }.setRuns p .idle
    else s
  | .construct =>
    if s.owner = .constructing ∧ s.promiseForLoopPointer = true then
      { s with hasLoop := true, owner := .constructed }
    else s
  | .wait =>
    if s.free .owner = true ∧ s.joinable = true then { s with owner := .waiting } else s
  | .waited =>
    if s.owner = .waiting ∧ s.loopFuncs = .returned then
      { s with joinable := false, owner := .constructed }
    else s
  | .destroy => if s.free .owner then { s with owner := .running }.setRuns .owner .calling else s
  | .ran =>
    if s.owner = .running ∧ s.runs .owner = .idle then { s with owner := .reading } else s
  | .read =>
    if s.owner = .reading then
      { s with owner := if s.hasLoop then .quitting else .joining }
    else s
  | .quit =>
    if s.owner = .quitting ∧ s.loop.free .owner = true then
      { s with loop := s.loop.step (.quit .owner), owner := .waking }
    else s
  | .woken =>
    if s.owner = .waking ∧ s.loop.callers .owner = .idle then { s with owner := .joining } else s
  | .joined =>
    if s.owner = .joining ∧ (s.joinable = true → s.loopFuncs = .returned) then
      { s with owner := .destroyed }
    else s

end EventLoopThread

end XiaoNet
