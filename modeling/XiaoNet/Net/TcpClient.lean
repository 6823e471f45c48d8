import XiaoNet.Net.ConnectorCalls

/-!
# `TcpClient`

A client of `net/TcpClient.{h,cpp}`: its `Connector`, which never retries, and the connection
it has got.

- `attempting`: `connect` was called, and what it started has not come to an end: no connection,
  no error, and no call of `stop` since.
- `stale`: an attempt got as far as `handleWrite`, or `stop` was called while a closure of
  `connect` was still to run, and there was no other `stop` since.

`restart` of the `Connector`, which `removeConnection` calls, does nothing.
-/

namespace XiaoNet

structure TcpClient where
  connector : ConnectorCalls
  /-- The socket of `connection_`. -/
  connection : Option Nat
  connect : Bool
  retry : Bool
  attempting : Bool
  stale : Bool

namespace TcpClient

def new : TcpClient where
  connector := .new false
  connection := none
  connect := true
  retry := false
  attempting := false
  stale := false

inductive Act where
  /-- In the thread of the loop. -/
  | connect (errno : Connector.Errno)
  | connectElsewhere
  | queueStart
  | disconnect
  /-- In the thread of the loop. -/
  | stop
  | stopElsewhere
  | queueStop (starts : Nat)
  | enableRetry
  /-- What the loop does. -/
  | runFunc (errno : Connector.Errno)
  | retryTimer (errno : Connector.Errno)
  | poll
  | event (revents : BitVec 32)
  | callback (report : SocketReport) (stops : Bool)
  /-- The `closeCallback_` of the connection. -/
  | removeConnection

/-- A closure of `connect` is queued or about to be queued. -/
def startQueued (s : TcpClient) : Bool :=
  s.connector.starting > 0 || .startInLoop ∈ s.connector.funcs

/-- `stop` was called. -/
def stopCalled (s : TcpClient) : TcpClient :=
  { s with connect := false, attempting := false, stale := s.startQueued }

/-- A callback of the `Connector`; it may call `newConnection`. -/
def runCallback (s : TcpClient) (report : SocketReport) (stops : Bool) (cb : Channel.Callback) :
    TcpClient :=
  let connector := s.connector.step (.callback report stops)
  let ends : Bool := s.connector.conn.status = .Connecting && cb ≠ .read
  let s' := if stops then s.stopCalled else s
  { s' with
    connector := connector
    connection :=
      if connector.conn.handed = s.connector.conn.handed then s.connection
      else connector.conn.handed.getLast?
    attempting := s'.attempting && !ends
    stale :=
      -- a `stop` that is overtaken by `handleWrite` resets `status_` after an error only
      if ends && cb = .write then !(stops && (report.error || report.selfConnect)) else s'.stale }

def step (s : TcpClient) (a : Act) : TcpClient :=
  if s.connector.ended then s
  else
    match a with
    | .connect errno =>
      if s.connector.userRuns then
        { s with
          connector := s.connector.step (.start errno)
          connect := true
          attempting := errno.connectCase = .connecting }
      else s
    | .connectElsewhere =>
      { s with
        connector := s.connector.step .startElsewhere
        connect := true
        attempting := true }
    | .queueStart => { s with connector := s.connector.step .queueStart }
    | .disconnect => { s with connect := false }
    | .stop =>
      if s.connector.userRuns then
        { s.stopCalled with connector := s.connector.step .stop }
      else s
    | .stopElsewhere => { s.stopCalled with connector := s.connector.step .stopElsewhere }
    | .queueStop starts => { s with connector := s.connector.step (.queueStop starts) }
    | .enableRetry => { s with retry := true }
    | .runFunc errno =>
      let runs : Bool := s.connector.handled && s.connector.funcs.head? = some .startInLoop
      { s with
        connector := s.connector.step (.runFunc errno)
        -- an attempt may fail at once
        attempting := s.attempting && (!runs || errno.connectCase = .connecting) }
    | .retryTimer errno => { s with connector := s.connector.step (.retryTimer errno) }
    | .poll => { s with connector := s.connector.step .poll }
    | .event revents => { s with connector := s.connector.step (.event revents) }
    | .callback report stops =>
      match s.connector.active with
      | [] => s
      | cb :: _ => s.runCallback report stops cb
    | .removeConnection => { s with connection := none }

end TcpClient

end XiaoNet
