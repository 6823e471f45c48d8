import Mathlib.Data.Finset.Basic
import XiaoNet.Lib.Int64
import XiaoNet.Lib.PriorityQueue
import XiaoNet.Lib.Runs

/-!
# `TimerQueue`

The timers of an event loop, from `net/inner/TimerQueue.{h,cpp}` and `Timer.{h,cpp}`.

- `timers` is the `std::priority_queue`, any one (`PriorityQueue`); `timerIdSet` says which of
  its timers are still wanted.
- `addTimer` makes a timer in any thread; the loop thread passes it to `addTimerInLoop` later,
  or at once when the call is its own. `invalidateTimer` is the erase in the loop thread.
- `handleRead` takes several steps: the expired timers are taken off, each is run if it is
  still wanted (`callback`), and in the end `resetExpired` puts the repeating ones back. What
  the callbacks do to the queue are further steps in between.
- `timerfd` is the alarm: `none` until it is armed and once `handleRead` has read it.
- `log` records what has happened.

A callback is known by the timer it belongs to, and a timer is given to `addTimerInLoop` once, as
`addTimer` does. Where a sum or a difference of times overflows in the source, it wraps around.
-/

namespace XiaoNet

universe u

abbrev TimerId := Nat

/-- A reading of `steady_clock`, in nanoseconds. -/
abbrev TimePoint := Int64

/-- In microseconds. -/
abbrev TimeInterval := Int64

structure Timer where
  id : TimerId
  when : TimePoint
  interval : TimeInterval
  deriving DecidableEq, Repr

namespace Timer

/-- `repeat_`. -/
def isRepeat (t : Timer) : Bool := 0 < t.interval

def restart (t : Timer) (now clock : TimePoint) : Timer :=
  { t with when := if t.isRepeat then now + t.interval * 1000 else clock }

end Timer

structure Timespec where
  tvSec : Int64
  tvNsec : Int64
  deriving DecidableEq, Repr

/-- `now`: what `steady_clock::now()` returns. -/
def howMuchTimeFromNow (when now : TimePoint) : Timespec :=
  let microSeconds := (when - now) / 1000
  let microSeconds := if microSeconds < 100 then 100 else microSeconds
  { tvSec := microSeconds / 1000000, tvNsec := microSeconds % 1000000 * 1000 }

/-- How the `timerfd` was armed, and the clock that was read to do so. -/
structure Alarm where
  armedAt : TimePoint
  value : Timespec
  deriving DecidableEq, Repr

/-- When the kernel lets it go off, in nanoseconds. -/
def Alarm.expiration (a : Alarm) : Int :=
  a.armedAt.toInt + a.value.tvSec.toInt * 1000000000 + a.value.tvNsec.toInt

/-- A call of `handleRead`. -/
structure Pass where
  now : TimePoint
  expired : List Timer
  /-- What the loop over `expired` has not come to. -/
  toRun : List Timer
  deriving DecidableEq, Repr

inductive TimerEvent where
  | added (t : Timer)
  | invalidated (id : TimerId)
  | ran (t : Timer) (now : TimePoint)
  | reinserted (t : Timer)
  /-- `handleRead` returns. -/
  | passed (p : Pass)
  deriving DecidableEq, Repr

structure TimerQueue (P : PriorityQueue.{0, 0, u} Timer.when) where
  timers : P.Heap
  timerIdSet : Finset TimerId
  /-- `Timer::timersCreated_`. -/
  timersCreated : Nat
  /-- Not given to `addTimerInLoop` yet. -/
  created : List Timer
  pass : Option Pass
  timerfd : Option Alarm
  log : List TimerEvent

namespace TimerQueue

variable {P : PriorityQueue.{0, 0, u} Timer.when}

def new (P : PriorityQueue.{0, 0, u} Timer.when) : TimerQueue P where
  timers := P.empty
  timerIdSet := ∅
  timersCreated := 0
  created := []
  pass := none
  timerfd := none
  log := []

def record (s : TimerQueue P) (e : TimerEvent) : TimerQueue P := { s with log := s.log ++ [e] }

def resetTimerfd (s : TimerQueue P) (expiration clock : TimePoint) : TimerQueue P :=
  { s with timerfd := some ⟨clock, howMuchTimeFromNow expiration clock⟩ }

/-- What `insert` returns. -/
def earliestChanged (s : TimerQueue P) (t : Timer) : Bool :=
  match P.top s.timers with
  | none => true
  | some top => t.when < top.when

def insert (s : TimerQueue P) (t : Timer) : TimerQueue P :=
  { s with timers := P.push s.timers t }

/-- The timer that `addTimer` makes. -/
def addTimer (s : TimerQueue P) (when : TimePoint) (interval : TimeInterval) : TimerQueue P :=
  { s with
    timersCreated := s.timersCreated + 1
    created := s.created ++ [⟨s.timersCreated + 1, when, interval⟩] }

def addTimerInLoop (s : TimerQueue P) (t : Timer) (clock : TimePoint) : TimerQueue P :=
  let s' := { s with timerIdSet := Insert.insert t.id s.timerIdSet }
  let s'' := (s'.insert t).record (.added t)
  if s'.earliestChanged t then s''.resetTimerfd t.when clock else s''

def invalidateTimer (s : TimerQueue P) (id : TimerId) : TimerQueue P :=
  { s with timerIdSet := s.timerIdSet.erase id }.record (.invalidated id)

def getExpired (s : TimerQueue P) (now : TimePoint) : List Timer × P.Heap :=
  P.popWhile (fun t => t.when < now) (P.size s.timers) s.timers

/-- The loop of `reset`. -/
def resetTimers (now clock : TimePoint) : List Timer → TimerQueue P → TimerQueue P
  | [], s => s
  | t :: expired, s =>
    resetTimers now clock expired <|
      if t.id ∈ s.timerIdSet then
        if t.isRepeat then
          (s.insert (t.restart now clock)).record (.reinserted (t.restart now clock))
        else { s with timerIdSet := s.timerIdSet.erase t.id }
      else s

/-- Arm the `timerfd` for the first timer, when there is one. -/
def armTop (s : TimerQueue P) (clock : TimePoint) : TimerQueue P :=
  match P.top s.timers with
  | none => s
  | some top => s.resetTimerfd top.when clock

inductive Op where
  | addTimer (when : TimePoint) (interval : TimeInterval)
  | addTimerInLoop (id : TimerId) (clock : TimePoint)
  | invalidateTimer (id : TimerId)
  /-- `handleRead` is called and takes the expired timers off. -/
  | handleRead (now : TimePoint)
  /-- The next timer of the pass. -/
  | callback
  /-- `reset(expired, now)`. -/
  | resetExpired (clock : TimePoint)
  /-- `reset()` after a fork, with a new `timerfd`. -/
  | reset (clock : TimePoint)

def step (s : TimerQueue P) : Op → TimerQueue P
  | .addTimer when interval => s.addTimer when interval
  | .addTimerInLoop id clock =>
    match s.created.find? (·.id = id) with
    | some t => { s with created := s.created.filter (·.id ≠ id) }.addTimerInLoop t clock
    | none => s
  | .invalidateTimer id => s.invalidateTimer id
  | .handleRead now =>
    match s.pass with
    | some _ => s
    | none =>
      let (expired, timers) := s.getExpired now
      { s with timers := timers, timerfd := none, pass := some ⟨now, expired, expired⟩ }
  | .callback =>
    match s.pass with
    | some ⟨now, expired, t :: toRun⟩ =>
      let s' := { s with pass := some ⟨now, expired, toRun⟩ }
      if t.id ∈ s.timerIdSet then s'.record (.ran t now) else s'
    | _ => s
  | .resetExpired clock =>
    match s.pass with
    | some ⟨now, expired, []⟩ =>
      let s' := (resetTimers now clock expired s).armTop clock
      { s' with pass := none }.record (.passed ⟨now, expired, []⟩)
    | _ => s
  | .reset clock => { s with timerfd := none }.armTop clock

end TimerQueue

end XiaoNet
