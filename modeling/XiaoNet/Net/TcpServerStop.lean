import Mathlib.Data.List.Dedup
import XiaoNet.Net.TcpServer

/-!
# `TcpServer::stop`

A call of `stop` of a server, the loops of its connections and the threads that run them.

- `server` are the connections, `life` the loops: those of the pool of the server are ended,
  one after the other, when `stop` releases the pool (`~EventLoopThread`).
- The part of `stop` that closes is in the code twice, for the thread of the loop and in the
  closure for another thread. Either way `connPtrs` is the vector while it runs.
- `Stopping` is where the caller of `stop` is, `caller` the thread it is called in; `pro` is
  the promise that it waits for.
- `deadCalls` are the loops for which `stop` or a closure of `handleCloseInLoop` has called
  `runInLoop` or `queueInLoop` after they were destroyed.

What user code calls on a connection of such a loop is not looked at.
-/

namespace XiaoNet

/-- The life of an event loop. -/
inductive LoopLife where
  | running
  /-- After `quit`. -/
  | quitting
  /-- The thread has left `loop()`. -/
  | exited
  /-- The thread has been joined, and the object is gone. -/
  | destroyed
  deriving DecidableEq, Repr

/-- The loop still runs what is queued in it. -/
def LoopLife.alive : LoopLife → Bool
  | .running | .quitting => true
  | .exited | .destroyed => false

/-- The thread that calls `stop`. -/
inductive StopCaller where
  | loopThread
  | other
  deriving DecidableEq, Repr

/-- Where the call of `stop` is. -/
inductive Stopping where
  | notCalled
  /-- It closes the connections, in the thread of the loop. -/
  | closing
  /-- In another thread, at the `get` for the closure. -/
  | waiting
  /-- It releases the pool; these threads are still to be ended. -/
  | releasing (threads : List Nat)
  /-- It joins the thread of a loop. -/
  | joining (l : Nat) (threads : List Nat)
  /-- It resets the wheels of these loops. -/
  | resetting (wheels : List Nat)
  /-- At the `get` for the closure that resets a wheel. -/
  | waitingWheel (wheels : List Nat)
  | returned
  deriving DecidableEq, Repr

structure TcpServerStop where
  server : TcpServer
  started : Bool
  /-- `acceptorPtr_` is not null. -/
  acceptor : Bool
  /-- The loops with a wheel in `timingWheelMap_`. -/
  timingWheelMap : List Nat
  /-- The loops of the pool that the server owns. -/
  loopPool : List Nat
  life : Nat → LoopLife
  caller : Option StopCaller
  stopping : Stopping
  connPtrs : Option (List Nat)
  /-- The closure of `stop` is queued in the loop of the server. -/
  stopFunc : Bool
  /-- The closures that reset a wheel, by the loop they are queued in. -/
  wheelFuncs : List Nat
  pro : Bool
  /-- The connections for which `stop` has called `forceClose`. -/
  forceClosed : List Nat
  deadCalls : List Nat

namespace TcpServerStop

/-- A server with these loops for its connections, of which it owns those in `loopPool`. -/
def new (loop : Nat) (ioLoops loopPool : List Nat) (idleTimeout : Nat) : TcpServerStop where
  server := .new loop ioLoops idleTimeout
  started := false
  acceptor := true
  timingWheelMap := []
  loopPool := loopPool
  life _ := .running
  caller := none
  stopping := .notCalled
  connPtrs := none
  stopFunc := false
  wheelFuncs := []
  pro := false
  forceClosed := []
  deadCalls := []

/-- The thread of the server's loop is in `stop` or in the closure of `stop`. -/
def busy (s : TcpServerStop) : Bool :=
  s.connPtrs.isSome ||
    s.caller = some .loopThread && s.stopping ≠ .notCalled && s.stopping ≠ .returned

/-- `runInLoop` or `queueInLoop` is called for these loops. -/
def callLoops (s : TcpServerStop) (ls : List Nat) : TcpServerStop :=
  { s with deadCalls := s.deadCalls ++ ls.filter fun l => s.life l = .destroyed }

/-- The loop of connection `i`. -/
def ioLoop (s : TcpServerStop) (i : Nat) : Nat :=
  match s.server.conns[i]? with
  | some conn => conn.ioLoop
  | none => s.server.loop

/-- The loop can take the step. -/
def runs (s : TcpServerStop) (l : Nat) : Bool :=
  (s.life l).alive && (l ≠ s.server.loop || !s.busy)

/-- The step of the server and its connections can be the next one. -/
def allowed (s : TcpServerStop) : TcpServer.Op → Bool
  | .newConnection _ => s.acceptor && s.started && s.runs s.server.loop
  | .connectEstablished i | .event i _ | .callback i _ _ _ => s.runs (s.ioLoop i)
  | .call i .runFunc _ | .call i (.destroyEntry _) _ => s.runs (s.ioLoop i)
  | .call i _ _ => s.life (s.ioLoop i) ≠ .destroyed
  | .runFunc => s.runs s.server.loop

/-- `handleCloseInLoop` calls `queueInLoop` of the connection's loop. -/
def closeLoops (s : TcpServerStop) : TcpServer.Op → List Nat
  | .runFunc =>
    match s.server.funcs with
    | i :: _ =>
      if s.server.idle s.server.loop && !s.server.failed && i ∈ s.server.connSet then
        [s.ioLoop i]
      else []
    | [] => []
  | _ => []

/-- A step of the server. -/
def stepServer (s : TcpServerStop) (op : TcpServer.Op) : TcpServerStop :=
  { s.callLoops (s.closeLoops op) with server := s.server.step op }

/-- The copy of `connSet_`, in the order of the set. -/
def copies (s : TcpServerStop) (connPtrs : List Nat) : Bool :=
  connPtrs.Nodup && connPtrs.toFinset = s.server.connSet

/-- `connection->forceClose()`, in the thread of the server's loop. -/
def forceClose (s : TcpServerStop) (i : Nat) : TcpServerStop :=
  let inLoop : Bool := s.ioLoop i = s.server.loop
  let server := s.server.step (.call i (.forceClose inLoop) [])
  { s.callLoops [s.ioLoop i] with server := server, forceClosed := s.forceClosed ++ [i] }

inductive Act where
  /-- A step of the server and its connections. -/
  | server (op : TcpServer.Op)
  | start
  /-- `stop` is called in the thread of the loop, or in another one. -/
  | stop (connPtrs : List Nat)
  | stopElsewhere
  /-- The loop runs the closure of `stop`. -/
  | runStop (connPtrs : List Nat)
  /-- The next `forceClose`, and the end of that part. -/
  | close
  | closed
  /-- The caller has its promise fulfilled. -/
  | gotPromise
  /-- The pool is released: `quit` of the next loop, its exit, and `join`. -/
  | release
  | exit (l : Nat)
  | joined
  /-- The next wheel is reset. -/
  | resetWheel
  | runWheel (l : Nat)

/-- The caller goes on after `f.get()`. -/
def gotPromise (s : TcpServerStop) : TcpServerStop :=
  match s.stopping with
  | .waiting => { s with stopping := .releasing s.loopPool }
  | .waitingWheel wheels => { s with stopping := .resetting wheels }
  | _ => s

/-- `iter.second->getLoop()->runInLoop(..)` for the wheel of loop `l`. -/
def resetWheel (s : TcpServerStop) (l : Nat) (wheels : List Nat) : TcpServerStop :=
  if s.caller = some .loopThread ∧ l = s.server.loop then { s with stopping := .resetting wheels }
  else
    { s.callLoops [l] with
      wheelFuncs := if s.life l = .destroyed then s.wheelFuncs else s.wheelFuncs ++ [l]
      pro := false
      stopping := .waitingWheel wheels }

def step (s : TcpServerStop) : Act → TcpServerStop
  | .server op => if s.allowed op then s.stepServer op else s
  | .start =>
    if s.started || !s.acceptor || s.busy then s
    else
      { s with
        started := true
        timingWheelMap := if s.server.idleTimeout > 0 then s.server.ioLoops.dedup else [] }
  | .stop connPtrs =>
    if s.caller = none ∧ s.copies connPtrs = true then
      { s with
        caller := some .loopThread
        stopping := .closing
        acceptor := false
        connPtrs := some connPtrs }
    else s
  | .stopElsewhere =>
    if s.caller = none then
      { s with caller := some .other, stopping := .waiting, stopFunc := true, pro := false }
    else s
  | .runStop connPtrs =>
    if s.stopFunc = true ∧ s.runs s.server.loop = true ∧ s.server.idle s.server.loop = true ∧
        s.copies connPtrs = true then
      { s with stopFunc := false, acceptor := false, connPtrs := some connPtrs }
    else s
  | .close =>
    match s.connPtrs with
    | some (i :: connPtrs) => { s.forceClose i with connPtrs := some connPtrs }
    | _ => s
  | .closed =>
    match s.connPtrs with
    | some [] =>
      { s with
        connPtrs := none
        -- the closure does not set `pro`
        stopping := if s.stopping = .closing then .releasing s.loopPool else s.stopping }
    | _ => s
  | .gotPromise => if s.pro then s.gotPromise else s
  | .release =>
    match s.stopping with
    | .releasing (l :: threads) =>
      { s with life := Function.update s.life l .quitting, stopping := .joining l threads }
    | .releasing [] => { s with stopping := .resetting s.timingWheelMap }
    | _ => s
  | .exit l =>
    if s.life l = .quitting ∧ s.server.idle l = true then
      { s with life := Function.update s.life l .exited }
    else s
  | .joined =>
    match s.stopping with
    | .joining l threads =>
      if s.life l = .exited then
        { s with life := Function.update s.life l .destroyed, stopping := .releasing threads }
      else s
    | _ => s
  | .resetWheel =>
    match s.stopping with
    | .resetting (l :: wheels) => s.resetWheel l wheels
    | .resetting [] => { s with stopping := .returned }
    | _ => s
  | .runWheel l =>
    if l ∈ s.wheelFuncs ∧ s.runs l = true then
      { s with wheelFuncs := s.wheelFuncs.erase l, pro := true }
    else s

end TcpServerStop

end XiaoNet
