import XiaoNet.Net.Connector

/-!
# `Connector` in its loop

A `Connector`, the loop that runs its handlers and the threads that call it.

- `start` and `stop` may be called in any thread. In another than the loop's they first store
  `connect_` or `status_` (`starting`, `stopping`), then queue a closure (`funcs`).
- The loop polls, handles the events, and then runs what is queued. A channel that is removed
  after the poll (`polled`) and before its event has no events any more, and `handleEvent` returns;
  one whose `stop` in another thread has not run its closure yet gets its event.
- `errorCallback_` and `newConnectionCallback_` are the last thing that a handler does; what
  they call comes as the next steps, before the other callbacks of the event.
- A retry timer may fire whenever no event of the channel is being handled.

`sockOptCallback_` only sets options. The loop may end before the `Connector` does; what it had
queued is dropped then.
-/

namespace XiaoNet

/-- A closure queued in the loop. -/
inductive ConnectorFunc where
  | startInLoop
  /-- Of a `stop` that was called after that many calls of `start`. -/
  | removeAndResetChannel (starts : Nat)
  deriving DecidableEq, Repr

structure ConnectorCalls where
  conn : Connector
  /-- How many calls of `start` in other threads have not queued their closure yet. -/
  starting : Nat
  /-- The calls of `stop` in other threads that have not queued theirs, by `starts` of then. -/
  stopping : List Nat
  funcs : List ConnectorFunc
  /-- How many timers of `conn.scheduled` have fired. -/
  fired : Nat
  /-- The channel of which the loop still has to handle an event. -/
  polled : Option Nat
  /-- The callbacks of the event that it handles. -/
  active : List Channel.Callback
  /-- The last of them ended in user code. -/
  inUser : Bool
  /-- How often `start` was called. -/
  starts : Nat
  /-- A `stop` is through to the end, and `start` was not called since it was. -/
  stopped : Bool
  destroyed : Bool

namespace ConnectorCalls

def new (retry : Bool) : ConnectorCalls where
  conn := .new retry
  starting := 0
  stopping := []
  funcs := []
  fired := 0
  polled := none
  active := []
  inUser := false
  starts := 0
  stopped := false
  destroyed := false

inductive Act where
  /-- `start` in the thread of the loop; `connect(2)` leaves `errno`. -/
  | start (errno : Connector.Errno)
  | startElsewhere
  | queueStart
  /-- `stop` in the thread of the loop. -/
  | stop
  | stopElsewhere
  | queueStop (starts : Nat)
  /-- The loop runs the next closure. -/
  | runFunc (errno : Connector.Errno)
  | retryTimer (errno : Connector.Errno)
  | poll
  | event (revents : BitVec 32)
  /-- The next callback. With `stops` another thread is in `stop`, and stores `status_` after the
  callback has read it. -/
  | callback (report : SocketReport) (stops : Bool)
  | destroy

/-- The program has failed, or the object is gone. -/
def ended (s : ConnectorCalls) : Bool := s.conn.failed || s.destroyed

/-- User code may run in the thread of the loop. -/
def userRuns (s : ConnectorCalls) : Bool := s.active.isEmpty || s.inUser

/-- The loop has handled all events. -/
def handled (s : ConnectorCalls) : Bool := s.active.isEmpty && s.polled.isNone

/-- Nothing holds the object any more: no channel and no call. -/
def destroyable (s : ConnectorCalls) : Bool :=
  s.handled && s.conn.channelPtr.isNone && s.starting = 0 && s.stopping.isEmpty

/-- `connect_ = true`. -/
def storeConnect (s : ConnectorCalls) : ConnectorCalls :=
  { s with conn := { s.conn with connect := true }, starts := s.starts + 1, stopped := false }

/-- A callback of the channel. -/
def runCallback (c : Connector) (report : SocketReport) (stops : Bool) (cb : Channel.Callback) :
    Connector :=
  let c' := (Connector.callback report c [] cb).1
  -- the store of `handleWrite`, when it has a connection, comes after the one of `stop`
  if stops && !(c.status = .Connecting && c'.status = .Connected) then
    { c' with status := .Disconnected }
  else c'

/-- Run a closure. -/
def call (s : ConnectorCalls) (errno : Connector.Errno) : ConnectorFunc → ConnectorCalls
  | .startInLoop => { s with conn := s.conn.startInLoop errno }
  | .removeAndResetChannel starts =>
    { s with
      conn := s.conn.removeAndResetChannel.1
      stopped := s.stopped || starts = s.starts }

def step (s : ConnectorCalls) (a : Act) : ConnectorCalls :=
  if s.ended then s
  else
    match a with
    | .start errno =>
      if s.userRuns then
        { s.storeConnect with conn := s.storeConnect.conn.startInLoop errno }
      else s
    | .startElsewhere => { s.storeConnect with starting := s.starting + 1 }
    | .queueStart =>
      if s.starting > 0 then
        { s with starting := s.starting - 1, funcs := s.funcs ++ [.startInLoop] }
      else s
    | .stop => if s.userRuns then { s with conn := s.conn.stop, stopped := true } else s
    | .stopElsewhere =>
      { s with
        conn := { s.conn with status := .Disconnected }
        stopping := s.stopping ++ [s.starts] }
    | .queueStop starts =>
      if starts ∈ s.stopping then
        { s with
          stopping := s.stopping.erase starts
          funcs := s.funcs ++ [.removeAndResetChannel starts] }
      else s
    | .runFunc errno =>
      match s.funcs with
      | [] => s
      | f :: funcs => if s.handled then { s with funcs := funcs }.call errno f else s
    | .retryTimer errno =>
      if s.active.isEmpty && s.fired < s.conn.scheduled.length then
        { s with conn := s.conn.startInLoop errno, fired := s.fired + 1 }
      else s
    | .poll => if s.handled then { s with polled := s.conn.channelPtr } else s
    | .event revents =>
      if s.active.isEmpty && s.polled.isSome then
        { s with
          polled := none
          -- `events_` of a channel that was removed is `kNoneEvent`
          active := if s.conn.channelPtr = s.polled then Connector.calls revents else []
          inUser := false }
      else s
    | .callback report stops =>
      match s.active with
      | [] => s
      | cb :: cbs =>
        { s with
          conn := runCallback s.conn report stops cb
          stopping := if stops then s.stopping ++ [s.starts] else s.stopping
          active := cbs
          inUser := s.conn.status = .Connecting }
    | .destroy =>
      if s.destroyable then { s with conn := s.conn.destroy, destroyed := true } else s

/-- A callback that finds `status_` reset. -/
theorem runCallback_of_disconnected {c : Connector} (hs : c.status = .Disconnected)
    (report : SocketReport) (stops : Bool) (cb : Channel.Callback) :
    runCallback c report stops cb = c ∨
      runCallback c report stops cb = { c with socketHanded := true } := by
  have hsame : { c with status := .Disconnected } = c := by rw [← hs]
  unfold runCallback
  dsimp only
  obtain hcb | hcb := Connector.callback_of_disconnected hs report cb <;> rw [hcb]
  · left
    split
    · exact hsame
    · rfl
  · right
    split
    · exact congrArg (fun c : Connector => { c with socketHanded := true }) hsame
    · rfl

/-! ## What a step does to the `Connector` -/

variable {s : ConnectorCalls}

/-- A call of `start`. -/
def Act.starts : Act → Bool
  | .start _ | .startElsewhere => true
  | _ => false

/-- `startInLoop` is queued or about to be queued, or a retry timer is to run it. -/
def startPending (s : ConnectorCalls) : Bool :=
  s.starting > 0 || .startInLoop ∈ s.funcs || s.fired < s.conn.scheduled.length

theorem startPending_eq_false (s : ConnectorCalls) :
    s.startPending = false ↔
      s.starting = 0 ∧ .startInLoop ∉ s.funcs ∧ s.conn.scheduled.length ≤ s.fired := by
  simp [startPending, and_assoc]

/-- The step runs `connect`. -/
def connects (s : ConnectorCalls) : Act → Bool
  | .start _ => s.userRuns && s.conn.status = .Disconnected
  | .runFunc _ =>
    s.handled && s.funcs.head? = some .startInLoop && s.conn.status = .Disconnected &&
      s.conn.connect
  | .retryTimer _ =>
    s.active.isEmpty && s.fired < s.conn.scheduled.length && s.conn.status = .Disconnected &&
      s.conn.connect
  | _ => false

/-- The step runs `handleWrite` or `handleError`. -/
def handles (s : ConnectorCalls) : Act → Bool
  | .callback .. => s.active.head?.any fun cb => cb ≠ .read
  | _ => false

/-- What `conn` and `destroyed` are after a step. -/
inductive Effect (s : ConnectorCalls) (a : Act) : Connector → Bool → Prop where
  | same : s.Effect a s.conn s.destroyed
  | connect (hstarts : a.starts = true) :
    s.Effect a { s.conn with connect := true } s.destroyed
  | disconnect : s.Effect a { s.conn with status := .Disconnected } s.destroyed
  | stop : s.Effect a s.conn.stop s.destroyed
  | remove : s.Effect a s.conn.removeAndResetChannel.1 s.destroyed
  | start (connect : Bool) (errno : Connector.Errno)
    (hstarts : a.starts = true ∨ s.startPending = true)
    (hconnects : s.conn.status = .Disconnected → connect = true → s.connects a = true) :
    s.Effect a ({ s.conn with connect := connect }.startInLoop errno) s.destroyed
  | callback (report : SocketReport) (stops : Bool) (cb : Channel.Callback)
    (hactive : s.handled = false) (hhandles : cb ≠ .read → s.handles a = true) :
    s.Effect a (runCallback s.conn report stops cb) s.destroyed
  | destroy (ha : a = .destroy) (hdestroyable : s.destroyable = true) :
    s.Effect a s.conn.destroy true

/-- Every step is one of them. -/
theorem effect_step (s : ConnectorCalls) (a : Act) :
    s.Effect a (s.step a).conn (s.step a).destroyed := by
  -- each call of the loop thread does one thing to the connector, or nothing
  unfold step
  split
  · exact .same
  cases a with
  | start errno =>
    dsimp only
    split
    · rename_i huser
      exact .start true errno (.inl rfl) fun hs _ => by simp [connects, huser, hs]
    · exact .same
  | startElsewhere => exact .connect rfl
  | stop =>
    dsimp only
    split
    · exact .stop
    · exact .same
  | stopElsewhere => exact .disconnect
  | runFunc errno =>
    dsimp only
    split
    · exact .same
    · rename_i f funcs hfuncs
      split
      · rename_i hhandled
        cases f with
        | startInLoop =>
          have hpending : s.startPending = true := by simp [startPending, hfuncs]
          refine .start s.conn.connect errno (.inr hpending) fun hs hc => ?_
          simp [connects, hhandled, hfuncs, hs, hc]
        | removeAndResetChannel starts => exact .remove
      · exact .same
  | retryTimer errno =>
    dsimp only
    split
    · rename_i hfires
      simp only [Bool.and_eq_true, decide_eq_true_eq] at hfires
      have hpending : s.startPending = true := by simp [startPending, hfires.2]
      refine .start s.conn.connect errno (.inr hpending) fun hs hc => ?_
      simp [connects, hfires.1, hfires.2, hs, hc]
    · exact .same
  | callback report stops =>
    dsimp only
    split
    · exact .same
    · rename_i cb cbs hactive
      refine .callback report stops cb (by simp [handled, hactive]) fun hread => ?_
      simp [handles, hactive, hread]
  | destroy =>
    dsimp only
    split
    · rename_i hdestroyable
      exact .destroy rfl hdestroyable
    · exact .same
  | queueStart | queueStop | poll | event =>
    dsimp only
    split
    · exact .same
    · exact .same

theorem step_ended (h : s.ended = true) (a : Act) : s.step a = s := by
  unfold step
  rw [if_pos h]

theorem failed_of_not_ended (h : ¬ s.ended = true) : s.conn.failed = false := by
  simp only [ended, Bool.or_eq_true, not_or, Bool.not_eq_true] at h
  exact h.1

theorem destroyed_of_not_ended (h : ¬ s.ended = true) : s.destroyed = false := by
  simp only [ended, Bool.or_eq_true, not_or, Bool.not_eq_true] at h
  exact h.2

end ConnectorCalls

end XiaoNet
