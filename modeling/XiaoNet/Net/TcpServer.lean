import Mathlib.Data.Finset.Basic
import XiaoNet.Net.Quiet

/-!
# `TcpServer`

A server of `net/TcpServer.{h,cpp}` and the connections it has made.

- Event loops are known by numbers: `loop` is the one of the server, `ioLoops` those of the
  connections. A connection is known by its place in `conns`.
- `Conn` is a connection with the work its loop has for it: the closure of
  `connectEstablished`, the closures in `impl.funcs`, and the callbacks of the event that the
  loop is handling (`active`). A loop runs closures and timers only between events.
- `funcs` are the closures of `handleCloseInLoop` queued in `loop`.
- The closures of one connection run in order, those of two in any.

`erased` has what the calls of `erase` in `handleCloseInLoop` returned.
-/

namespace XiaoNet

namespace TcpServer

/-- A connection made by `newConnection`. -/
structure Conn where
  impl : TcpConnectionImpl
  ioLoop : Nat
  /-- The closure of `connectEstablished` is queued. -/
  establishing : Bool
  /-- The callbacks still to be called for the event that is handled. -/
  active : List Channel.Callback
  /-- How often `connectDestroyed` has run. -/
  destroyed : Nat

end TcpServer

structure TcpServer where
  loop : Nat
  ioLoops : List Nat
  nextLoopIdx : Nat
  idleTimeout : Nat
  conns : List TcpServer.Conn
  connSet : Finset Nat
  funcs : List Nat
  erased : List Nat
  failed : Bool

namespace TcpServer

def new (loop : Nat) (ioLoops : List Nat) (idleTimeout : Nat) : TcpServer where
  loop := loop
  ioLoops := ioLoops
  nextLoopIdx := 0
  idleTimeout := idleTimeout
  conns := []
  connSet := ∅
  funcs := []
  erased := []
  failed := false

/-- A failed assertion of a connection ends the program. -/
def setConn (s : TcpServer) (i : Nat) (conn : Conn) : TcpServer :=
  { s with conns := s.conns.set i conn, failed := s.failed || conn.impl.failed }

/-- The connection that `newConnection` makes, before `connectEstablished`. -/
def makeConn (s : TcpServer) (ioLoop : Nat) (highWaterMark : Option Nat) : Conn where
  impl :=
    { TcpConnectionImpl.new with
      highWaterMark := highWaterMark
      kickoff :=
        if s.idleTimeout > 0 then Kickoff.new.enableKickingOff s.idleTimeout else .new }
  ioLoop := ioLoop
  establishing := true
  active := []
  destroyed := 0

/-- The closure of `connectEstablished`. -/
def Conn.establish (conn : Conn) : Conn :=
  { conn with impl := conn.impl.connectEstablished, establishing := false }

def newConnection (s : TcpServer) (highWaterMark : Option Nat) : TcpServer :=
  match s.ioLoops[s.nextLoopIdx]? with
  | none => s
  | some ioLoop =>
    let conn := s.makeConn ioLoop highWaterMark
    { s with
      nextLoopIdx := if s.nextLoopIdx + 1 ≥ s.ioLoops.length then 0 else s.nextLoopIdx + 1
      -- in its own loop `runInLoop` runs the closure at once
      conns := s.conns ++ [if ioLoop = s.loop then conn.establish else conn]
      connSet := insert s.conns.length s.connSet }

def handleCloseInLoop (s : TcpServer) (i : Nat) : TcpServer :=
  let n := if i ∈ s.connSet then 1 else 0
  let s :=
    { s with
      connSet := s.connSet.erase i
      erased := s.erased ++ [n]
      failed := s.failed || n != 1 }
  if s.failed then s
  else
    match s.conns[i]? with
    | some conn => s.setConn i { conn with impl := conn.impl.step (.queueDestroyed, []) }
    | none => s

/-- The `closeCallback_` of connection `i`. -/
def connectionClosed (s : TcpServer) (i ioLoop : Nat) : TcpServer :=
  if ioLoop = s.loop then s.handleCloseInLoop i else { s with funcs := s.funcs ++ [i] }

/-- An operation of connection `i`; it may run `closeCallback_`. -/
def stepConn (s : TcpServer) (i : Nat) (conn : Conn) (op : TcpConnectionImpl.Op)
    (rs : List SysRet) : TcpServer :=
  let impl := conn.impl.step (op, rs)
  let destroyed := if conn.impl.Removes op then conn.destroyed + 1 else conn.destroyed
  let s := s.setConn i { conn with impl := impl, destroyed := destroyed }
  if impl.closing > conn.impl.closing then s.connectionClosed i conn.ioLoop else s

/-- The loop is not handling an event. -/
def idle (s : TcpServer) (loop : Nat) : Bool :=
  s.conns.all fun conn => conn.ioLoop ≠ loop || conn.active.isEmpty

/-- What may happen to a connection besides its events and its closing. Only `stop` knows it
before it is established. -/
def accepts (s : TcpServer) (conn : Conn) : TcpConnectionImpl.Op → Bool
  | .readCallback _ _ | .writeCallback | .closeCallback | .queueDestroyed => false
  | .forceClose false => true
  | .runFunc | .destroyEntry _ => !conn.establishing && s.idle conn.ioLoop
  | _ => !conn.establishing

/-- The operation of the connection that a callback of its channel is; `handleError` only
logs. -/
def callbackOp (now : Nat) (ret : TcpConnectionImpl.ReadRet) :
    Channel.Callback → Option TcpConnectionImpl.Op
  | .close => some .closeCallback
  | .error => none
  | .read => some (.readCallback now ret)
  | .write => some .writeCallback

inductive Op where
  | newConnection (highWaterMark : Option Nat)
  /-- The loop of connection `i` runs the closure of `connectEstablished`. -/
  | connectEstablished (i : Nat)
  /-- Something happens to connection `i`. -/
  | call (i : Nat) (op : TcpConnectionImpl.Op) (rs : List SysRet)
  /-- `handleEvent` of the channel of connection `i`. -/
  | event (i : Nat) (revents : BitVec 32)
  /-- The next callback of that event. -/
  | callback (i now : Nat) (ret : TcpConnectionImpl.ReadRet) (rs : List SysRet)
  /-- The loop of the server runs the next closure. -/
  | runFunc

def step (s : TcpServer) (op : Op) : TcpServer :=
  if s.failed then s
  else
    match op with
    | .newConnection highWaterMark => s.newConnection highWaterMark
    | .connectEstablished i =>
      match s.conns[i]? with
      | some conn => if conn.establishing then s.setConn i conn.establish else s
      | none => s
    | .call i op rs =>
      match s.conns[i]? with
      | some conn => if s.accepts conn op then s.stepConn i conn op rs else s
      | none => s
    | .event i revents =>
      match s.conns[i]? with
      | some conn =>
        if !conn.impl.ioChannel.isNoneEvent && s.idle conn.ioLoop then
          s.setConn i { conn with active := Channel.handleEventSafely revents }
        else s
      | none => s
    | .callback i now ret rs =>
      match s.conns[i]? with
      | some conn =>
        match conn.active with
        | [] => s
        | cb :: cbs =>
          match callbackOp now ret cb with
          | some op => s.stepConn i { conn with active := cbs } op rs
          | none => s.setConn i { conn with active := cbs }
      | none => s
    | .runFunc =>
      match s.funcs with
      | [] => s
      | i :: funcs =>
        if s.idle s.loop then { s with funcs := funcs }.handleCloseInLoop i else s

end TcpServer

end XiaoNet
