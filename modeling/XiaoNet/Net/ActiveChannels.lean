import Mathlib.Logic.Function.Basic
import XiaoNet.Lib.Runs
import XiaoNet.Net.TcpConnectionImpl

/-!
# The channels of a loop and their owners

One event loop (`EventLoop::loop`), the channels that it dispatches and the objects that own
them: acceptors of servers (`net/inner/Acceptor.cpp`), connections (`net/TcpServer.cpp`,
`net/TcpClient.cpp`) and connectors (`net/inner/Connector.cpp`).

- The servers `σ` and the connectors `κ` are those that run in the loop. The owner of a
  connection is such a server, a client, or a server that runs in another loop.
- An object is destroyed when nothing holds it any more. What can hold the channel of a
  connection is in `connAlive`, what can hold that of a connector in `connectAlive`; the channel
  of an acceptor is a part of it, and the acceptor is held by `acceptorPtr_` alone.
- `Closure` is a closure queued in the loop, with what it holds.
- `Call` is what a callback or a queued function does, `Other` what other threads do.

When an assertion fails the program ends (`failed`).
-/

namespace XiaoNet

universe u v

namespace ActiveChannels

inductive ChannelId (σ : Type u) (κ : Type v) where
  /-- The channels of the loop itself and of its timers. -/
  | wakeup
  | timerfd
  /-- `acceptChannel_` of a server. -/
  | accept (i : σ)
  /-- `ioChannelPtr_` of connection `c`. -/
  | io (c : Nat)
  /-- `channelPtr_` of attempt `k` of a connector. -/
  | connect (j : κ) (k : Nat)
  deriving DecidableEq

inductive ConnOwner (σ : Type u) where
  | server (i : σ)
  | client
  /-- A server whose `loop_` is another loop. -/
  | elsewhere
  deriving DecidableEq

structure Conn (σ : Type u) where
  owner : ConnOwner σ
  status : ConnStatus
  /-- It is in `connSet_`, or is `connection_`. -/
  held : Bool
  /-- The poller knows its channel. -/
  registered : Bool
  /-- The references of user code. -/
  users : Nat
  deriving DecidableEq

/-- A closure queued in the loop. -/
inductive Closure (σ : Type u) (κ : Type v) where
  | connectEstablished (c : Nat)
  | connectDestroyed (c : Nat)
  | forceClose (c : Nat)
  /-- `stop` of a connector in another thread. -/
  | removeChannel (j : κ)
  /-- The empty function that holds the channel of an attempt. -/
  | channel (j : κ) (k : Nat)
  /-- `stop` of a server in another thread. -/
  | stop (i : σ)
  deriving DecidableEq

/-- Where `loop()` is. -/
inductive Phase where
  | polling
  | handling
  | functions
  deriving DecidableEq

end ActiveChannels

open ActiveChannels

structure ActiveChannels (σ : Type u) (κ : Type v) where
  phase : Phase
  /-- The channels of `activeChannels_` that are still to be dispatched. -/
  activeChannels : List (ChannelId σ κ)
  /-- The channel whose `handleEvent` is on the stack. -/
  currentActiveChannel : Option (ChannelId σ κ)
  funcs : List (ActiveChannels.Closure σ κ)
  /-- The function that runs. -/
  running : Option (ActiveChannels.Closure σ κ)
  /-- `acceptorPtr_` is not null. -/
  acceptor : σ → Bool
  listening : σ → Bool
  conns : List (Conn σ)
  /-- The closures of `handleCloseInLoop` queued in other loops. -/
  closing : List Nat
  channelPtr : κ → Option Nat
  attempts : κ → Nat
  failed : Bool

namespace ActiveChannels

variable {σ : Type u} {κ : Type v}

/-- Servers and connectors have been made, and nothing started. -/
def new : ActiveChannels σ κ where
  phase := .polling
  activeChannels := []
  currentActiveChannel := none
  funcs := []
  running := none
  acceptor _ := true
  listening _ := false
  conns := []
  closing := []
  channelPtr _ := none
  attempts _ := 0
  failed := false

variable [DecidableEq σ] [DecidableEq κ]

/-- The poller knows the channel. -/
def registered (s : ActiveChannels σ κ) : ChannelId σ κ → Bool
  | .wakeup | .timerfd => true
  | .accept i => s.acceptor i && s.listening i
  | .io c => (s.conns[c]?).any (·.registered)
  | .connect j k => s.channelPtr j == some k

/-- The connection a closure holds. -/
def Closure.conn : Closure σ κ → Option Nat
  | .connectEstablished c | .connectDestroyed c | .forceClose c => some c
  | _ => none

/-- Something holds connection `c`: its owner, a closure in this loop or another, user code,
or the guard of its own `handleEvent`. -/
def connAlive (s : ActiveChannels σ κ) (c : Nat) : Bool :=
  (s.conns[c]?).any (fun conn => conn.held || 0 < conn.users) ||
    s.funcs.any (·.conn == some c) || s.running.any (·.conn == some c) || s.closing.contains c ||
    s.currentActiveChannel == some (.io c)

/-- Something holds the channel: its connector, or a closure. -/
def connectAlive (s : ActiveChannels σ κ) (j : κ) (k : Nat) : Bool :=
  s.channelPtr j == some k || s.funcs.contains (.channel j k) || s.running == some (.channel j k)

/-- The channel has not been destroyed. -/
def alive (s : ActiveChannels σ κ) : ChannelId σ κ → Bool
  | .wakeup | .timerfd => true
  | .accept i => s.acceptor i
  | .io c => s.connAlive c
  | .connect j k => s.connectAlive j k

def setConn (s : ActiveChannels σ κ) (c : Nat) (conn : Conn σ) : ActiveChannels σ κ :=
  { s with conns := s.conns.set c conn }

def queueInLoop (s : ActiveChannels σ κ) (f : Closure σ κ) : ActiveChannels σ κ :=
  { s with funcs := s.funcs ++ [f] }

/-- `TcpServer::handleCloseInLoop` and `TcpClient::removeConnection`. -/
def removeConnection (s : ActiveChannels σ κ) (c : Nat) : ActiveChannels σ κ :=
  match s.conns[c]? with
  | some conn =>
    if conn.held then
      (s.setConn c { conn with held := false }).queueInLoop (.connectDestroyed c)
    else { s with failed := true }
  | none => s

/-- `closeCallback_` of connection `c`. -/
def connectionClosed (s : ActiveChannels σ κ) (c : Nat) (owner : ConnOwner σ) : ActiveChannels σ κ :=
  match owner with
  | .server _ | .client => s.removeConnection c
  | .elsewhere => { s with closing := s.closing ++ [c] }

/-- `TcpConnectionImpl::handleClose`. -/
def handleClose (s : ActiveChannels σ κ) (c : Nat) : ActiveChannels σ κ :=
  match s.conns[c]? with
  | some conn =>
    if conn.registered then
      (s.setConn c { conn with status := .disconnected }).connectionClosed c conn.owner
    else s
  | none => s

/-- What `forceClose` runs in the loop. -/
def forceClose (s : ActiveChannels σ κ) (c : Nat) : ActiveChannels σ κ :=
  match s.conns[c]? with
  | some conn => if conn.status = .connected then s.handleClose c else s
  | none => s

/-- The part of `TcpServer::stop` that runs in the loop of the server. -/
def stop (s : ActiveChannels σ κ) (i : σ) : ActiveChannels σ κ :=
  let connPtrs := (List.range s.conns.length).filter fun c =>
    (s.conns[c]?).any fun conn => conn.owner == .server i && conn.held
  connPtrs.foldl forceClose { s with acceptor := Function.update s.acceptor i false }

/-- `Connector::removeAndResetChannel`. -/
def removeAndResetChannel (s : ActiveChannels σ κ) (j : κ) : ActiveChannels σ κ :=
  match s.channelPtr j with
  | some k =>
    { s.queueInLoop (.channel j k) with channelPtr := Function.update s.channelPtr j none }
  | none => s

/-- `Connector::connecting`, with a new channel. -/
def connecting (s : ActiveChannels σ κ) (j : κ) : ActiveChannels σ κ :=
  if s.channelPtr j = none then
    { s with
      channelPtr := Function.update s.channelPtr j (some (s.attempts j))
      attempts := Function.update s.attempts j (s.attempts j + 1) }
  else { s with failed := true }

/-- A connection of this loop, as `newConnection` leaves it. -/
def newConnection (s : ActiveChannels σ κ) (owner : ConnOwner σ) : ActiveChannels σ κ :=
  match owner with
  | .server _ | .client =>
    { s with conns := s.conns ++ [⟨owner, .connected, true, true, 0⟩] }
  -- `connectEstablished` is queued
  | .elsewhere =>
    queueInLoop { s with conns := s.conns ++ [⟨owner, .connecting, true, false, 0⟩] }
      (.connectEstablished s.conns.length)

/-- User code keeps a connection, or lets it go. -/
def setUsers (s : ActiveChannels σ κ) (c : Nat) (users : Nat → Nat) : ActiveChannels σ κ :=
  match s.conns[c]? with
  | some conn => s.setConn c { conn with users := users conn.users }
  | none => s

/-- What a callback or a queued function calls. -/
inductive Call (σ : Type u) (κ : Type v) where
  | listen (i : σ)
  /-- A server of this loop accepts a connection, or a client has its own. -/
  | newConnection (owner : ConnOwner σ)
  | handleClose (c : Nat)
  | connecting (j : κ)
  /-- By `handleWrite`, `handleError` or `stop` of a connector. -/
  | removeAndResetChannel (j : κ)
  /-- `TcpServer::stop`. -/
  | stop (i : σ)
  | keep (c : Nat)
  | release (c : Nat)

def call (s : ActiveChannels σ κ) : Call σ κ → ActiveChannels σ κ
  | .listen i => { s with listening := Function.update s.listening i true }
  | .newConnection .elsewhere => s
  | .newConnection owner => s.newConnection owner
  | .handleClose c => s.handleClose c
  | .connecting j => s.connecting j
  | .removeAndResetChannel j => s.removeAndResetChannel j
  | .stop i => s.stop i
  | .keep c => if s.connAlive c then s.setUsers c (· + 1) else s
  | .release c => s.setUsers c (· - 1)

/-- What other threads do. -/
inductive Other (σ : Type u) (κ : Type v) where
  /-- Their server makes a connection of this loop. -/
  | newConnection
  /-- Their loop runs the next closure of `handleCloseInLoop`. -/
  | handleCloseInLoop
  | forceClose (c : Nat)
  | stopConnector (j : κ)
  | stopServer (i : σ)
  | release (c : Nat)

def other (s : ActiveChannels σ κ) : Other σ κ → ActiveChannels σ κ
  | .newConnection => s.newConnection .elsewhere
  | .handleCloseInLoop =>
    match s.closing with
    | c :: closing => { s with closing := closing }.removeConnection c
    | [] => s
  | .forceClose c => if s.connAlive c then s.queueInLoop (.forceClose c) else s
  | .stopConnector j => s.queueInLoop (.removeChannel j)
  | .stopServer i => s.queueInLoop (.stop i)
  | .release c => s.setUsers c (· - 1)

/-- Run a queued function. -/
def run (s : ActiveChannels σ κ) : Closure σ κ → ActiveChannels σ κ
  | .connectEstablished c =>
    match s.conns[c]? with
    | some conn =>
      if conn.status = .connecting then
        s.setConn c { conn with status := .connected, registered := true }
      else { s with failed := true }
    | none => s
  | .connectDestroyed c =>
    match s.conns[c]? with
    | some conn => s.setConn c { conn with registered := false }
    | none => s
  | .forceClose c => s.forceClose c
  | .removeChannel j => s.removeAndResetChannel j
  | .channel _ _ => s
  | .stop i => s.stop i

inductive Act (σ : Type u) (κ : Type v) where
  /-- The poller returns. -/
  | poll (active : List (ChannelId σ κ))
  /-- `handleEvent` of the next channel is called, and returns. -/
  | handleEvent
  | handled
  /-- The last one has returned. -/
  | endBatch
  | takeFunc
  | funcReturns
  | endFuncs
  | call (c : Call σ κ)
  | other (o : Other σ κ)

/-- The loop takes a function out of the queue and runs it. -/
def takeFunc (s : ActiveChannels σ κ) : ActiveChannels σ κ :=
  match s.funcs with
  | f :: funcs => { s with funcs := funcs, running := some f }.run f
  | [] => s

def step (s : ActiveChannels σ κ) (a : Act σ κ) : ActiveChannels σ κ :=
  if s.failed then s
  else
    match a with
    | .poll active =>
      if s.phase = .polling ∧ active.Nodup ∧ ∀ ch ∈ active, s.registered ch = true then
        { s with phase := .handling, activeChannels := active }
      else s
    | .handleEvent =>
      match s.currentActiveChannel, s.activeChannels with
      | none, ch :: rest => { s with currentActiveChannel := some ch, activeChannels := rest }
      | _, _ => s
    | .handled => { s with currentActiveChannel := none }
    | .endBatch =>
      if s.phase = .handling ∧ s.currentActiveChannel = none ∧ s.activeChannels = [] then
        { s with phase := .functions }
      else s
    | .takeFunc => if s.phase = .functions ∧ s.running = none then s.takeFunc else s
    | .funcReturns => { s with running := none }
    | .endFuncs =>
      if s.phase = .functions ∧ s.running = none ∧ s.funcs = [] then { s with phase := .polling }
      else s
    | .call c => if s.currentActiveChannel.isSome || s.running.isSome then s.call c else s
    | .other o => s.other o

end ActiveChannels

end XiaoNet
