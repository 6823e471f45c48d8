import XiaoNet.Lib.Runs
import XiaoNet.Net.TcpClient

/-!
# Connecting again

`startInLoop` asserts that `status_` is `Disconnected`, and `connecting` that there is no channel.
Only `stop` and the error callback reset `status_`: `handleWrite` leaves it at `Connected`, or at
`Connecting` after an error.

- `legal`: `connect` is called when there is no attempt and no connection.
- `ConnectsAgain`: then no assertion of the `Connector` fails.
- `resets`: `connect` is called when `stop` has reset what the attempts before have left, and is
  through with it.
- `Inv`: what holds in a run whose calls of `connect` are both.
- `never_fails`: a run whose calls of `connect` meet `resets`.
-/

namespace XiaoNet

open Runs

namespace Connector

variable {c : Connector}

/-- A `Connector` that does not retry, and for which no assertion has failed. -/
structure Fine (c : Connector) : Prop where
  failed : c.failed = false
  retry : c.retry = false
  scheduled : c.scheduled = []

/-- A call of `startInLoop` that the assertions allow. -/
theorem startInLoop_fine (h : c.Fine) (hs : c.status = .Disconnected) (hch : c.channelPtr = none)
    (errno : Errno) :
    (c.startInLoop errno).Fine ∧ (c.startInLoop errno).status ≠ .Connected ∧
      (errno.connectCase ≠ .connecting →
        (c.startInLoop errno).status = .Disconnected ∧
          (c.startInLoop errno).channelPtr = none) := by
  have hassert : c.assert (c.status = .Disconnected) = c := by simp [assert, hs]
  unfold startInLoop
  rw [hassert]
  dsimp only
  split
  · unfold connectTo
    split
    · -- the socket connects, and the attempt has its channel
      rename_i hcase
      refine ⟨?_, by simp [connecting, assert_eq], fun hne => absurd hcase hne⟩
      constructor
      · simp [connecting, assert, newSocket, hch, h.failed]
      · simp [connecting, assert_eq, newSocket, h.retry]
      · simp [connecting, assert_eq, newSocket, h.scheduled]
    · -- without `retry_` an error that could be retried is left at that
      rw [if_neg (by simp [h.retry])]
      exact ⟨{ h with }, by simp [newSocket, hs], fun _ => ⟨hs, hch⟩⟩
    · refine ⟨?_, by simp [newSocket, hs], fun _ => ?_⟩
      swap
      · exact ⟨by simp [newSocket, hs], by simp [newSocket, hch]⟩
      constructor
      · simp [closeSocket, newSocket, h.failed]
      · simp [closeSocket, newSocket, h.retry]
      · simp [closeSocket, newSocket, h.scheduled]
  · exact ⟨h, by simp [hs], fun _ => ⟨hs, hch⟩⟩

theorem closeSocket_fine (h : c.Fine) (fd : Option Nat) : (c.closeSocket fd).Fine := by
  cases fd with
  | none => exact h
  | some fd => exact { h with }

theorem handleError_fine (h : c.Fine) (hs : c.status = .Connecting) :
    (c.handleError []).1.Fine ∧ (c.handleError []).1.channelPtr = none ∧
      (c.handleError []).1.status = .Disconnected := by
  have hended : { c with
      socketHanded := true, status := .Disconnected, channelPtr := none }.Fine := { h with }
  unfold handleError
  rw [if_pos hs]
  dsimp only [removeAndResetChannel, errorCallback]
  rw [if_neg (by simp [h.retry])]
  exact ⟨closeSocket_fine hended c.channelPtr, by simp, by simp⟩

theorem handleWrite_fine (h : c.Fine) (hs : c.status = .Connecting) (report : SocketReport) :
    (c.handleWrite report []).1.Fine ∧ (c.handleWrite report []).1.channelPtr = none ∧
      (c.handleWrite report []).1.status =
        if report.error || report.selfConnect then .Connecting else .Connected := by
  unfold handleWrite
  rw [if_pos hs]
  dsimp only [removeAndResetChannel, errorCallback]
  split
  · rw [if_neg (by simp [h.retry])]
    have hended : { c with socketHanded := true, channelPtr := none }.Fine := { h with }
    exact ⟨closeSocket_fine hended c.channelPtr, by simp, by simp [hs]⟩
  · have hended : { c with
        socketHanded := true, status := .Connected, channelPtr := none }.Fine := { h with }
    split
    · split
      · exact ⟨{ hended with }, rfl, rfl⟩
      · exact ⟨hended, rfl, rfl⟩
    · exact ⟨closeSocket_fine hended c.channelPtr, by simp, by simp⟩

/-- The end of an attempt. -/
theorem callback_fine (h : c.Fine) (hs : c.status = .Connecting) {cb : Channel.Callback}
    (hcb : cb ≠ .read) (report : SocketReport) :
    (callback report c [] cb).1.Fine ∧ (callback report c [] cb).1.channelPtr = none ∧
      (callback report c [] cb).1.status =
        if cb = .write then
          if report.error || report.selfConnect then .Connecting else .Connected
        else .Disconnected := by
  cases cb with
  | read => exact absurd rfl hcb
  | close | error => simpa [callback, h.failed] using handleError_fine h hs
  | write => simpa [callback, h.failed] using handleWrite_fine h hs report

end Connector

namespace ConnectorCalls

variable {c : Connector}

theorem runCallback_fine (h : c.Fine) (hs : c.status = .Connecting) {cb : Channel.Callback}
    (hcb : cb ≠ .read) (report : SocketReport) (stops : Bool) :
    (runCallback c report stops cb).Fine ∧ (runCallback c report stops cb).channelPtr = none ∧
      (runCallback c report stops cb).status =
        if cb = .write then
          if report.error || report.selfConnect then
            if stops then .Disconnected else .Connecting
          else .Connected
        else .Disconnected := by
  obtain ⟨hfine, hnone, hstatus⟩ := Connector.callback_fine h hs hcb report
  unfold runCallback
  dsimp only
  split
  · -- a `stop()` during the callback has the last word on the status
    rename_i hstore
    refine ⟨{ hfine with }, hnone, ?_⟩
    simp only [hs, hstatus, Bool.and_eq_true, decide_true, Bool.true_and] at hstore
    obtain ⟨hstops, hlate⟩ := hstore
    by_cases hwrite : cb = .write
    · by_cases herror : (report.error || report.selfConnect) = true
      · simp [hwrite, herror, hstops]
      · simp [hwrite, herror] at hlate
    · simp [hwrite]
  · -- there was none, or the store of `handleWrite` came after its own
    rename_i hstore
    refine ⟨hfine, hnone, ?_⟩
    rw [hstatus]
    by_cases hwrite : cb = .write
    · by_cases herror : (report.error || report.selfConnect) = true
      · simp only [hs, hstatus] at hstore
        have hstops : stops = false := by simpa [hwrite, herror] using hstore
        simp [hwrite, herror, hstops]
      · simp [hwrite, herror]
    · simp [hwrite]

/-- A callback that is not the end of an attempt. -/
theorem runCallback_idle (h : c.Fine) (hne : c.status ≠ .Connected) {cb : Channel.Callback}
    (hidle : c.status = .Connecting → cb = .read) (report : SocketReport) (stops : Bool) :
    (runCallback c report stops cb).Fine ∧
      (runCallback c report stops cb).channelPtr = c.channelPtr ∧
      (runCallback c report stops cb).status = if stops then .Disconnected else c.status := by
  match hs : c.status with
  | .Connected => exact absurd hs hne
  | .Disconnected =>
    obtain heq | heq := runCallback_of_disconnected hs report stops cb <;> rw [heq]
    · exact ⟨h, rfl, by simp [hs]⟩
    · exact ⟨{ h with }, rfl, by simp [hs]⟩
  | .Connecting =>
    rw [hidle hs]
    cases stops with
    | false => exact ⟨h, rfl, hs⟩
    | true =>
      have hstored : runCallback c report true .read = { c with status := .Disconnected } := by
        simp [runCallback, Connector.callback, hs]
      rw [hstored]
      exact ⟨{ h with }, rfl, rfl⟩

end ConnectorCalls

namespace TcpClient

variable {s : TcpClient}

/-- No attempt is in progress, and `connection()` is null, when `connect` is called. -/
def legal (s : TcpClient) : Act → Bool
  | .connect _ | .connectElsewhere => !s.attempting && s.connection.isNone
  | _ => true

/-- If `connect` is called as it may be, no assertion of the `Connector` fails. -/
def ConnectsAgain (as : List Act) : Prop :=
  Along step (fun s a => s.legal a = true) new as →
    Always step (fun s => s.connector.conn.failed = false) new as

instance (as : List Act) : Decidable (ConnectsAgain as) :=
  inferInstanceAs (Decidable (_ → _))

/-- When `connect` is called, `stop` has been called since an attempt came to `handleWrite`, with
no closure of `connect` left to run; and a `stop` in another thread has removed its channel, or
at least has queued the closure that will do so before that of `connect` runs. -/
def resets (s : TcpClient) : Act → Bool
  | .connect _ =>
    !s.stale && (s.connector.conn.channelPtr.isNone ||
      s.connector.stopping.isEmpty && s.connector.funcs.isEmpty)
  | .connectElsewhere =>
    !s.stale && (s.connector.conn.channelPtr.isNone || s.connector.stopping.isEmpty ||
      !s.connector.funcs.isEmpty)
  | _ => true

/-- The next closure removes the channel. -/
def removesFirst (fs : List ConnectorFunc) : Prop :=
  ∃ starts fs', fs = .removeAndResetChannel starts :: fs'

structure Inv (s : TcpClient) : Prop where
  fine : s.connector.conn.Fine
  destroyed : s.connector.destroyed = false
  /-- What made the connection was the last callback of the last event. -/
  connected : s.connector.conn.status = .Connected →
    s.connector.handled = true ∧ s.connector.conn.channelPtr = none
  active : s.connector.active ≠ [] → s.connector.polled = none
  writeLast : .write ∉ s.connector.active.dropLast
  once : s.connector.starting + s.connector.funcs.count .startInLoop ≤ 1
  /-- A closure of `connect` will find `status_` reset and no channel. -/
  queued : s.startQueued = true →
    s.connector.conn.status = .Disconnected ∧ (s.attempting = true ∨ s.stale = true) ∧
      (s.connector.conn.channelPtr = none ∨ removesFirst s.connector.funcs)
  /-- `connect` may be called. -/
  ready : s.attempting = false → s.stale = false →
    s.connector.conn.status = .Disconnected ∧
      (s.connector.conn.channelPtr = none ∨ s.connector.stopping ≠ [] ∨
        s.connector.funcs ≠ [])

theorem startQueued_iff (s : TcpClient) :
    s.startQueued = true ↔ 0 < s.connector.starting ∨ .startInLoop ∈ s.connector.funcs := by
  simp [startQueued]

theorem Inv.ended (h : s.Inv) : s.connector.ended = false := by
  simp [ConnectorCalls.ended, h.fine.failed, h.destroyed]

theorem Inv.not_queued (h : s.Inv) (hattempting : s.attempting = false) (hstale : s.stale = false) :
    s.connector.starting = 0 ∧ .startInLoop ∉ s.connector.funcs := by
  have hnot : ¬ s.startQueued = true := by
    intro hq
    simpa [hattempting, hstale] using (h.queued hq).2.1
  rw [startQueued_iff] at hnot
  exact ⟨by omega, fun hmem => hnot (.inr hmem)⟩

theorem removesFirst_of_not_mem {fs : List ConnectorFunc} (h : .startInLoop ∉ fs) (hne : fs ≠ []) :
    removesFirst fs := by
  match fs with
  | [] => exact absurd rfl hne
  | .startInLoop :: fs => exact absurd List.mem_cons_self h
  | .removeAndResetChannel starts :: fs => exact ⟨starts, fs, rfl⟩

theorem removesFirst_append {fs : List ConnectorFunc} (h : removesFirst fs) (f : ConnectorFunc) :
    removesFirst (fs ++ [f]) := by
  obtain ⟨starts, fs', rfl⟩ := h
  exact ⟨starts, fs' ++ [f], rfl⟩

/-- Nothing happens to the `Connector`. -/
theorem Inv.same (h : s.Inv) {s' : TcpClient} (hconnector : s'.connector = s.connector)
    (hattempting : s'.attempting = s.attempting) (hstale : s'.stale = s.stale) : s'.Inv where
  fine := hconnector ▸ h.fine
  destroyed := hconnector ▸ h.destroyed
  connected := hconnector ▸ h.connected
  active := hconnector ▸ h.active
  writeLast := hconnector ▸ h.writeLast
  once := hconnector ▸ h.once
  queued hq := by
    have hq' : s.startQueued = true := by simpa [startQueued, hconnector] using hq
    rw [hconnector, hattempting, hstale]
    exact h.queued hq'
  ready ha hs := by
    rw [hconnector]
    exact h.ready (hattempting ▸ ha) (hstale ▸ hs)

/-- `connect` in the thread of the loop. -/
theorem Inv.connect (h : s.Inv) {errno : Connector.Errno} (hlegal : s.legal (.connect errno) = true)
    (hG : s.resets (.connect errno) = true) : (s.step (.connect errno)).Inv := by
  have hended := h.ended
  simp only [legal, Bool.and_eq_true, Bool.not_eq_true'] at hlegal
  simp only [resets, Bool.and_eq_true, Bool.not_eq_true', Bool.or_eq_true,
    Option.isNone_iff_eq_none, List.isEmpty_iff] at hG
  -- no other start is on its way, and this one finds the connector at rest
  obtain ⟨hstarting, hfuncs⟩ := h.not_queued hlegal.1 hG.1
  obtain ⟨hs, hch⟩ := h.ready hlegal.1 hG.1
  have hnone : s.connector.conn.channelPtr = none := by
    obtain hnone | ⟨hstopping, hempty⟩ := hG.2
    · exact hnone
    · simpa [hstopping, hempty] using hch
  unfold TcpClient.step
  rw [if_neg (by simp [hended])]
  dsimp only
  split
  · rename_i huser
    have hstore : s.connector.storeConnect.conn.Fine := { h.fine with }
    obtain ⟨hfine, hconnected, hover⟩ := Connector.startInLoop_fine hstore hs hnone errno
    have hstep : s.connector.step (.start errno) =
        { s.connector.storeConnect with
          conn := s.connector.storeConnect.conn.startInLoop errno } := by
      simp [ConnectorCalls.step, hended, huser]
    rw [hstep]
    exact
      { fine := hfine
        destroyed := h.destroyed
        connected := fun hc => absurd hc hconnected
        active := h.active
        writeLast := h.writeLast
        once := h.once
        queued := fun hq => by
          rw [startQueued_iff] at hq
          have hq' : 0 < s.connector.starting ∨ .startInLoop ∈ s.connector.funcs := hq
          simp [hstarting, hfuncs] at hq'
        ready := fun ha _ => by
          obtain ⟨hs', hch'⟩ := hover (by simpa using ha)
          exact ⟨hs', .inl hch'⟩ }
  · exact h

theorem Inv.connectElsewhere (h : s.Inv) (hlegal : s.legal .connectElsewhere = true)
    (hG : s.resets .connectElsewhere = true) : (s.step .connectElsewhere).Inv := by
  have hended := h.ended
  simp only [legal, Bool.and_eq_true, Bool.not_eq_true'] at hlegal
  simp only [resets, Bool.and_eq_true, Bool.not_eq_true', Bool.or_eq_true,
    Option.isNone_iff_eq_none, List.isEmpty_iff, List.isEmpty_eq_false_iff] at hG
  obtain ⟨hstarting, hfuncs⟩ := h.not_queued hlegal.1 hG.1
  obtain ⟨hs, hch⟩ := h.ready hlegal.1 hG.1
  -- what is queued comes before the closure of this `connect`
  have hclear : s.connector.conn.channelPtr = none ∨ removesFirst s.connector.funcs := by
    obtain hnone | hstopping | hne := hch
    · exact .inl hnone
    · obtain (hnone | hempty) | hne := hG.2
      · exact .inl hnone
      · exact absurd hempty hstopping
      · exact .inr (removesFirst_of_not_mem hfuncs hne)
    · exact .inr (removesFirst_of_not_mem hfuncs hne)
  unfold TcpClient.step
  rw [if_neg (by simp [hended])]
  dsimp only
  have hstep : s.connector.step .startElsewhere =
      { s.connector.storeConnect with starting := s.connector.starting + 1 } := by
    simp [ConnectorCalls.step, hended]
  rw [hstep]
  exact
    { fine := { h.fine with }
      destroyed := h.destroyed
      connected := h.connected
      active := h.active
      writeLast := h.writeLast
      once := by
        have hzero := List.count_eq_zero_of_not_mem hfuncs
        simp only [ConnectorCalls.storeConnect]
        omega
      queued := fun _ => ⟨hs, .inl rfl, hclear⟩
      ready := nofun }

theorem Inv.queueStart (h : s.Inv) : (s.step .queueStart).Inv := by
  have hended := h.ended
  unfold TcpClient.step
  rw [if_neg (by simp [hended])]
  dsimp only
  by_cases hpos : s.connector.starting > 0
  · have hstep : s.connector.step .queueStart =
        { s.connector with
          starting := s.connector.starting - 1
          funcs := s.connector.funcs ++ [.startInLoop] } := by
      simp [ConnectorCalls.step, hended, hpos]
    obtain ⟨hs, hgoes, hch⟩ := h.queued ((startQueued_iff s).mpr (.inl hpos))
    rw [hstep]
    exact
      { h with
        once := by
          have honce := h.once
          simp only [List.count_append, List.count_singleton_self]
          omega
        queued := fun _ => ⟨hs, hgoes, hch.imp id fun hr => removesFirst_append hr _⟩
        ready := fun ha hstale => by
          obtain ⟨hs', hch'⟩ := h.ready ha hstale
          exact ⟨hs', hch'.imp id (.imp id fun _ => by simp)⟩ }
  · have hstep : s.connector.step .queueStart = s.connector := by
      simp [ConnectorCalls.step, hended, hpos]
    exact h.same hstep rfl rfl

theorem Inv.queueStop (h : s.Inv) (starts : Nat) : (s.step (.queueStop starts)).Inv := by
  have hended := h.ended
  unfold TcpClient.step
  rw [if_neg (by simp [hended])]
  dsimp only
  by_cases hmem : starts ∈ s.connector.stopping
  · have hstep : s.connector.step (.queueStop starts) =
        { s.connector with
          stopping := s.connector.stopping.erase starts
          funcs := s.connector.funcs ++ [.removeAndResetChannel starts] } := by
      simp [ConnectorCalls.step, hended, hmem]
    rw [hstep]
    exact
      { h with
        once := by simpa using h.once
        queued := fun hq => by
          have hq' : s.startQueued = true := by simpa [startQueued_iff] using hq
          obtain ⟨hs, hgoes, hch⟩ := h.queued hq'
          exact ⟨hs, hgoes, hch.imp id fun hr => removesFirst_append hr _⟩
        ready := fun ha hstale => by
          obtain ⟨hs', hch'⟩ := h.ready ha hstale
          exact ⟨hs', .inr (.inr (by simp))⟩ }
  · have hstep : s.connector.step (.queueStop starts) = s.connector := by
      simp [ConnectorCalls.step, hended, hmem]
    exact h.same hstep rfl rfl

/-- `stop` in the thread of the loop. -/
theorem Inv.stop (h : s.Inv) : (s.step .stop).Inv := by
  have hended := h.ended
  unfold TcpClient.step
  rw [if_neg (by simp [hended])]
  dsimp only
  split
  · rename_i huser
    have hstep : s.connector.step .stop =
        { s.connector with conn := s.connector.conn.stop, stopped := true } := by
      simp [ConnectorCalls.step, hended, huser]
    rw [hstep]
    exact
      { h with
        fine := { h.fine with }
        connected := by simp [Connector.stop, Connector.removeAndResetChannel]
        queued := fun hq => ⟨rfl, .inr hq, .inl rfl⟩
        ready := fun _ _ => ⟨rfl, .inl rfl⟩ }
  · exact h

theorem Inv.stopElsewhere (h : s.Inv) : (s.step .stopElsewhere).Inv := by
  have hended := h.ended
  unfold TcpClient.step
  rw [if_neg (by simp [hended])]
  dsimp only
  have hstep : s.connector.step .stopElsewhere =
      { s.connector with
        conn := { s.connector.conn with status := .Disconnected }
        stopping := s.connector.stopping ++ [s.connector.starts] } := by
    simp [ConnectorCalls.step, hended]
  rw [hstep]
  exact
    { h with
      fine := { h.fine with }
      connected := by simp
      queued := fun hq => ⟨rfl, .inr hq, (h.queued hq).2.2⟩
      ready := fun _ _ => ⟨rfl, .inr (.inl (by simp))⟩ }

/-- The loop runs the closure of `connect`. -/
theorem Inv.runStart (h : s.Inv) (hhandled : s.connector.handled = true)
    {funcs : List ConnectorFunc} (hfuncs : s.connector.funcs = .startInLoop :: funcs)
    (errno : Connector.Errno) : (s.step (.runFunc errno)).Inv := by
  have hended := h.ended
  have hq : s.startQueued = true := (startQueued_iff s).mpr (.inr (by simp [hfuncs]))
  obtain ⟨hs, hgoes, hch⟩ := h.queued hq
  have hnone : s.connector.conn.channelPtr = none := by
    refine hch.resolve_right ?_
    rintro ⟨starts, fs, hfs⟩
    simp [hfuncs] at hfs
  -- no other closure of `connect` is queued
  have honce := h.once
  simp only [hfuncs, List.count_cons_self] at honce
  obtain ⟨hfine, hconnected, hover⟩ := Connector.startInLoop_fine h.fine hs hnone errno
  have hstep : s.connector.step (.runFunc errno) =
      { s.connector with conn := s.connector.conn.startInLoop errno, funcs := funcs } := by
    simp [ConnectorCalls.step, hended, hfuncs, hhandled, ConnectorCalls.call]
  unfold TcpClient.step
  rw [if_neg (by simp [hended])]
  dsimp only
  rw [hstep]
  exact
    { h with
      fine := hfine
      connected := fun hc => absurd hc hconnected
      once := by
        dsimp only
        omega
      queued := fun hq' => by
        rw [startQueued_iff] at hq'
        have hcount : funcs.count .startInLoop = 0 := by omega
        have hzero : s.connector.starting = 0 := by omega
        simp [hzero, List.count_eq_zero.mp hcount] at hq'
      ready := fun ha hstale => by
        have hfails : errno.connectCase ≠ .connecting := by
          intro hcase
          have hgoes' : s.attempting = true := hgoes.resolve_right (by simpa using hstale)
          simp [hfuncs, hhandled, hcase, hgoes'] at ha
        obtain ⟨hs', hch'⟩ := hover hfails
        exact ⟨hs', .inl hch'⟩ }

/-- The loop runs the closure of `stop`. -/
theorem Inv.runRemove (h : s.Inv) (hhandled : s.connector.handled = true) {starts : Nat}
    {funcs : List ConnectorFunc}
    (hfuncs : s.connector.funcs = .removeAndResetChannel starts :: funcs)
    (errno : Connector.Errno) : (s.step (.runFunc errno)).Inv := by
  have hended := h.ended
  have hstep : s.connector.step (.runFunc errno) =
      { s.connector with
        conn := s.connector.conn.removeAndResetChannel.1
        funcs := funcs
        stopped := s.connector.stopped || starts = s.connector.starts } := by
    simp [ConnectorCalls.step, hended, hfuncs, hhandled, ConnectorCalls.call]
  unfold TcpClient.step
  rw [if_neg (by simp [hended])]
  dsimp only
  rw [hstep]
  exact
    { h with
      fine := { h.fine with }
      connected := fun hc => ⟨(h.connected hc).1, rfl⟩
      once := by simpa [hfuncs] using h.once
      queued := fun hq => by
        have hq' : s.startQueued = true := by simpa [startQueued_iff, hfuncs] using hq
        obtain ⟨hs, hgoes, -⟩ := h.queued hq'
        exact ⟨hs, by simpa [hfuncs] using hgoes, .inl rfl⟩
      ready := fun ha hstale => by
        have ha' : s.attempting = false := by simpa [hfuncs] using ha
        exact ⟨(h.ready ha' hstale).1, .inl rfl⟩ }

theorem Inv.runFunc (h : s.Inv) (errno : Connector.Errno) : (s.step (.runFunc errno)).Inv := by
  have hended := h.ended
  by_cases hhandled : s.connector.handled = true
  · match hfuncs : s.connector.funcs with
    | [] =>
      have hsame : s.step (.runFunc errno) = s := by
        simp [TcpClient.step, ConnectorCalls.step, hended, hfuncs]
      rwa [hsame]
    | .startInLoop :: funcs => exact h.runStart hhandled hfuncs errno
    | .removeAndResetChannel starts :: funcs => exact h.runRemove hhandled hfuncs errno
  · have hstep : s.connector.step (.runFunc errno) = s.connector := by
      simp only [ConnectorCalls.step, hended, hhandled]
      cases s.connector.funcs <;> simp
    have hsame : s.step (.runFunc errno) = s := by
      simp [TcpClient.step, hstep, hended, hhandled]
    rwa [hsame]

/-- There is no timer. -/
theorem Inv.retryTimer (h : s.Inv) (errno : Connector.Errno) :
    (s.step (.retryTimer errno)).Inv := by
  have hstep : s.connector.step (.retryTimer errno) = s.connector := by
    simp [ConnectorCalls.step, h.fine.scheduled]
  unfold TcpClient.step
  rw [if_neg (by simp [h.ended])]
  exact h.same hstep rfl rfl

theorem Inv.poll (h : s.Inv) : (s.step .poll).Inv := by
  have hended := h.ended
  unfold TcpClient.step
  rw [if_neg (by simp [hended])]
  dsimp only
  by_cases hhandled : s.connector.handled = true
  · have hstep : s.connector.step .poll =
        { s.connector with polled := s.connector.conn.channelPtr } := by
      simp [ConnectorCalls.step, hended, hhandled]
    have hactive : s.connector.active = [] := by
      simp only [ConnectorCalls.handled, Bool.and_eq_true, List.isEmpty_iff] at hhandled
      exact hhandled.1
    rw [hstep]
    exact
      { h with
        connected := fun hc => by
          have hnone := (h.connected hc).2
          exact ⟨by simp [ConnectorCalls.handled, hactive, hnone], hnone⟩
        active := fun hne => absurd hactive hne }
  · have hstep : s.connector.step .poll = s.connector := by
      simp [ConnectorCalls.step, hhandled]
    exact h.same hstep rfl rfl

/-- The write callback is the last one of an event. -/
theorem calls_writeLast (revents : BitVec 32) : .write ∉ (Connector.calls revents).dropLast := by
  unfold Connector.calls Channel.handleEventSafely
  split_ifs <;> decide

theorem Inv.event (h : s.Inv) (revents : BitVec 32) : (s.step (.event revents)).Inv := by
  have hended := h.ended
  unfold TcpClient.step
  rw [if_neg (by simp [hended])]
  dsimp only
  by_cases hready : (s.connector.active.isEmpty && s.connector.polled.isSome) = true
  · have hstep : s.connector.step (.event revents) =
        { s.connector with
          polled := none
          active := if s.connector.conn.channelPtr = s.connector.polled then
            Connector.calls revents else []
          inUser := false } := by
      simp only [ConnectorCalls.step, hended, hready, Bool.false_eq_true, if_false, if_true]
    have hpolled : s.connector.polled.isSome = true := by
      simp only [Bool.and_eq_true] at hready
      exact hready.2
    rw [hstep]
    exact
      { h with
        connected := fun hc => by
          have hhandled := (h.connected hc).1
          simp only [ConnectorCalls.handled, Bool.and_eq_true, Option.isNone_iff_eq_none] at hhandled
          rw [hhandled.2] at hpolled
          cases hpolled
        active := fun _ => rfl
        writeLast := by
          -- a channel that was removed gets no callback
          dsimp only
          split
          · exact calls_writeLast revents
          · exact List.not_mem_nil }
  · have hstep : s.connector.step (.event revents) = s.connector := by
      simp [ConnectorCalls.step, hready]
    exact h.same hstep rfl rfl

/-- What a callback leaves alone. -/
theorem Inv.called (h : s.Inv) {cb : Channel.Callback} {cbs : List Channel.Callback}
    (hactive : s.connector.active = cb :: cbs) {s' : TcpClient} {conn : Connector}
    {stopping : List Nat} {inUser : Bool}
    (hs' : s'.connector = { s.connector with conn, stopping, active := cbs, inUser })
    (hfine : conn.Fine) (hconnected : conn.status = .Connected → cbs = [] ∧ conn.channelPtr = none)
    (hqueued : s.startQueued = true →
      conn.status = .Disconnected ∧ (s'.attempting = true ∨ s'.stale = true) ∧
        (conn.channelPtr = none ∨ removesFirst s.connector.funcs))
    (hready : s'.attempting = false → s'.stale = false →
      conn.status = .Disconnected ∧
        (conn.channelPtr = none ∨ stopping ≠ [] ∨ s.connector.funcs ≠ [])) : s'.Inv := by
  -- while callbacks are left no further event has been polled
  have hpolled : s.connector.polled = none := h.active (by simp [hactive])
  have hlast := h.writeLast
  rw [hactive] at hlast
  exact
    { fine := by rwa [hs']
      destroyed := by
        rw [hs']
        exact h.destroyed
      connected := fun hc => by
        rw [hs'] at hc ⊢
        obtain ⟨hcbs, hnone⟩ := hconnected hc
        exact ⟨by simp [ConnectorCalls.handled, hcbs, hpolled], hnone⟩
      active := fun _ => by
        rw [hs']
        exact hpolled
      writeLast := by
        rw [hs']
        intro hmem
        cases cbs with
        | nil => simp at hmem
        | cons cb' cbs => exact hlast (List.mem_cons_of_mem cb hmem)
      once := by
        rw [hs']
        exact h.once
      queued := fun hq => by
        have hq' : s.startQueued = true := by simpa [startQueued, hs'] using hq
        rw [hs']
        exact hqueued hq'
      ready := fun ha hstale => by
        rw [hs']
        exact hready ha hstale }

theorem Inv.callback (h : s.Inv) (report : SocketReport) (stops : Bool) :
    (s.step (.callback report stops)).Inv := by
  have hended := h.ended
  match hactive : s.connector.active with
  | [] =>
    have hsame : s.step (.callback report stops) = s := by
      simp [TcpClient.step, hactive]
    rwa [hsame]
  | cb :: cbs =>
    -- an established connection has given up its channel, so no callback is left
    have hne : s.connector.conn.status ≠ .Connected := by
      intro hc
      have hhandled := (h.connected hc).1
      simp [ConnectorCalls.handled, hactive] at hhandled
    have hstep : s.connector.step (.callback report stops) =
        { s.connector with
          conn := ConnectorCalls.runCallback s.connector.conn report stops cb
          stopping :=
            if stops then s.connector.stopping ++ [s.connector.starts] else s.connector.stopping
          active := cbs
          inUser := s.connector.conn.status = .Connecting } := by
      simp [ConnectorCalls.step, hended, hactive]
    have hrun : s.step (.callback report stops) = s.runCallback report stops cb := by
      simp [TcpClient.step, hended, hactive]
    rw [hrun]
    by_cases hends : s.connector.conn.status = .Connecting ∧ cb ≠ .read
    · -- the attempt ends
      obtain ⟨hs, hread⟩ := hends
      obtain ⟨hfine, hnone, hstatus⟩ :=
        ConnectorCalls.runCallback_fine h.fine hs hread report stops
      -- a queued start would have found the connector at rest
      have hnot : ¬ s.startQueued = true := by
        intro hq
        simpa [hs] using (h.queued hq).1
      refine h.called hactive hstep hfine (fun hc => ⟨?_, hnone⟩) (fun hq => absurd hq hnot)
        fun _ hstale => ⟨?_, .inl hnone⟩
      · -- `handleWrite` has a connection
        have hwrite : cb = .write := by
          by_contra hcb
          simp [hstatus, hcb] at hc
        have hlast := h.writeLast
        rw [hactive, hwrite] at hlast
        cases cbs with
        | nil => rfl
        | cons cb' cbs => simp at hlast
      · rw [hstatus]
        by_cases hwrite : cb = .write
        · -- it was stopped between the test of `status_` and the error
          obtain ⟨hstops, herror⟩ :
              stops = true ∧ (report.error = false → report.selfConnect = true) := by
            simpa [TcpClient.runCallback, hs, hwrite] using hstale
          simpa [hwrite, hstops] using herror
        · simp [hwrite]
    · -- the callback does nothing, or it is the read event of an attempt
      have hidle : s.connector.conn.status = .Connecting → cb = .read := by simpa using hends
      obtain ⟨hfine, hch, hstatus⟩ :=
        ConnectorCalls.runCallback_idle h.fine hne hidle report stops
      refine h.called hactive hstep hfine (fun hc => ?_) (fun hq => ?_) fun ha hstale => ?_
      · rw [hstatus] at hc
        split at hc
        · simp at hc
        · exact absurd hc hne
      · obtain ⟨hs, hgoes, hclear⟩ := h.queued hq
        refine ⟨by simp [hstatus, hs], ?_, by rwa [hch]⟩
        cases stops with
        | false => simpa [TcpClient.runCallback, hs] using hgoes
        | true => simp [TcpClient.runCallback, hs, stopCalled, hq]
      · rw [hstatus, hch]
        cases stops with
        | false =>
          have hends' : (s.connector.conn.status = .Connecting && cb ≠ .read) = false := by
            simpa using hidle
          obtain ⟨hs, hclear⟩ := h.ready
            (by simpa only [TcpClient.runCallback, hends', Bool.not_false, Bool.and_true,
              Bool.false_eq_true, if_false] using ha)
            (by simpa only [TcpClient.runCallback, hends', Bool.false_and, Bool.false_eq_true,
              if_false] using hstale)
          exact ⟨by simp [hs], hclear⟩
        | true => exact ⟨rfl, .inr (.inl (by simp))⟩

theorem Inv.step (h : s.Inv) {a : Act} (hlegal : s.legal a = true) (hG : s.resets a = true) :
    (s.step a).Inv := by
  cases a with
  | connect errno => exact h.connect hlegal hG
  | connectElsewhere => exact h.connectElsewhere hlegal hG
  | queueStart => exact h.queueStart
  | stop => exact h.stop
  | stopElsewhere => exact h.stopElsewhere
  | queueStop starts => exact h.queueStop starts
  | runFunc errno => exact h.runFunc errno
  | retryTimer errno => exact h.retryTimer errno
  | poll => exact h.poll
  | event revents => exact h.event revents
  | callback report stops => exact h.callback report stops
  | disconnect | enableRetry | removeConnection =>
    unfold TcpClient.step
    rw [if_neg (by simp [h.ended])]
    exact h.same rfl rfl rfl

theorem inv_new : new.Inv where
  fine := ⟨rfl, rfl, rfl⟩
  destroyed := rfl
  connected := by simp [new, ConnectorCalls.new, Connector.new]
  active := by simp [new, ConnectorCalls.new]
  writeLast := by simp [new, ConnectorCalls.new]
  once := by simp [new, ConnectorCalls.new]
  queued := by simp [new, ConnectorCalls.new, startQueued]
  ready _ _ := ⟨rfl, .inl rfl⟩

/-- **Connecting again is legal** in every run in which `stop` has reset what the attempts before
have left: no assertion of the `Connector` fails. -/
theorem never_fails {as : List Act} (h : Along step (fun s a => s.resets a = true) new as) :
    ConnectsAgain as := fun hlegal =>
  (always_of_along (I := Inv) (fun _ _ hs hG => hs.step hG.1 hG.2) inv_new
    (hlegal.and h)).mono fun _ hs => hs.fine.failed

/-- The second connection, with a call of `stop` after the first one is closed. -/
theorem never_fails_stopped :
    Always step (fun s => s.connector.conn.failed = false) new
      [.connect .EINPROGRESS, .poll, .event Channel.POLLOUT, .callback ⟨false, false⟩ false,
        .removeConnection, .stop, .connectElsewhere, .queueStart, .runFunc .EINPROGRESS, .poll,
        .event Channel.POLLOUT, .callback ⟨false, false⟩ false] :=
  never_fails (by decide) (by decide)

/-- `connect` after a connection was closed, and after a socket was connected to itself. -/
theorem fails_reconnect :
    ¬ ConnectsAgain
        [.connect .EINPROGRESS, .poll, .event Channel.POLLOUT, .callback ⟨false, false⟩ false,
          .removeConnection, .connect .EINPROGRESS] ∧
      ¬ ConnectsAgain
        [.connect .EINPROGRESS, .poll, .event Channel.POLLOUT, .callback ⟨false, true⟩ false,
          .connect .EINPROGRESS] := by
  decide

end TcpClient

end XiaoNet
