import XiaoNet.Lib.Runs
import XiaoNet.Net.ConnectorCalls

/-!
# The sockets of a `Connector`

A socket that `connect` makes is to be closed once, or given away once. `fd_`, `socketHanded_`
and `channelPtr_` say who has to do it.

- `ends`: how often a socket was closed or given away.
- `Owned`: every socket but `fd_` has its end, and `fd_` has it or `~Connector` will give it.
- `Lost`: a socket that is open and that nothing closes any more.
- `keepsOwner`: the step does not lose track of the socket in `fd_`.
- `linear_iff_keepsOwner`: when the `Connector` is gone, every socket has had one end exactly
  when all steps kept track.
-/

namespace XiaoNet

open Runs

namespace Connector

variable {c : Connector} {b : Nat}

def ends (c : Connector) (b : Nat) : Nat := c.closes.count b + c.handed.count b

/-- Every socket was closed once or given away once. -/
def Linear (c : Connector) : Prop := ∀ b < c.sockets.length, c.ends b = 1

instance (c : Connector) : Decidable c.Linear :=
  inferInstanceAs (Decidable (∀ b < c.sockets.length, c.ends b = 1))

/-- The socket in `fd_` was neither closed nor given away. -/
def fdOpen (c : Connector) : Bool :=
  match c.fd with
  | some b => c.ends b = 0
  | none => false

/-- `~Connector` closes `fd_`. -/
def closesFd (c : Connector) : Bool := !c.socketHanded && c.fd.isSome

/-- An attempt is under way. -/
def underWay (c : Connector) : Bool := c.status = .Connecting && c.channelPtr.isSome

structure Owned (c : Connector) : Prop where
  others : ∀ b < c.sockets.length, c.fd ≠ some b → c.ends b = 1
  later : ∀ b, c.sockets.length ≤ b → c.ends b = 0
  fd_lt : ∀ b, c.fd = some b → b < c.sockets.length
  fd : ∀ b, c.fd = some b → c.ends b = 1 ∨ c.ends b = 0 ∧ c.socketHanded = false
  channelPtr : ∀ b, c.channelPtr = some b → c.fd = some b ∧ c.ends b = 0

/-- Socket `b` stays open. -/
structure Lost (b : Nat) (c : Connector) : Prop where
  lt : b < c.sockets.length
  ends : c.ends b = 0
  fd : c.fd = some b → c.socketHanded = true
  channelPtr : c.channelPtr = some b → c.status ≠ .Connecting

/-! ## The functions of `Connector` -/

theorem ends_closeSocket (fd : Option Nat) :
    (c.closeSocket fd).ends b = c.ends b + if fd = some b then 1 else 0 := by
  cases fd with
  | none => rfl
  | some fd =>
    by_cases h : fd = b
    · simp [closeSocket, ends, h]
      omega
    · simp [closeSocket, ends, h]

theorem fdOpen_iff : c.fdOpen = true ↔ ∃ b, c.fd = some b ∧ c.ends b = 0 := by
  unfold fdOpen
  cases c.fd with
  | none => simp
  | some b => simp

/-- From `c` to `c'` the socket `fd` has an end. -/
structure Ends (c c' : Connector) (fd : Option Nat) : Prop where
  ends : ∀ b, c'.ends b = c.ends b + if fd = some b then 1 else 0
  length : c'.sockets.length = c.sockets.length
  fd : c'.fd = c.fd

theorem closeSocket_ends (c : Connector) (fd : Option Nat) : c.Ends (c.closeSocket fd) fd where
  ends _ := ends_closeSocket fd
  length := length_closeSocket fd
  fd := fd_closeSocket fd

theorem assert_ends (c : Connector) (p : Bool) : c.Ends (c.assert p) none := by
  rw [assert_eq]
  exact ⟨fun _ => rfl, rfl, rfl⟩

theorem retrySocket_ends (c : Connector) (fd : Option Nat) : c.Ends (c.retrySocket fd) fd := by
  have hassert := assert_ends c c.retry
  have hclose := closeSocket_ends (c.assert c.retry) fd
  have hends : c.Ends ((c.assert c.retry).closeSocket fd) fd :=
    { ends := fun b => by rw [hclose.ends, hassert.ends]; simp
      length := hclose.length.trans hassert.length
      fd := hclose.fd.trans hassert.fd }
  unfold retrySocket
  dsimp only
  split
  · exact ⟨hends.ends, hends.length, hends.fd⟩
  · exact ⟨hends.ends, hends.length, hends.fd⟩

/-! ## No socket is lost -/

/-- The end of a socket is the end of `fd_`. -/
theorem Owned.ended {c' : Connector} {fd : Option Nat} (h : c.Owned) (he : c.Ends c' fd)
    (hfd : ∀ b, fd = some b → c.fd = some b ∧ c.ends b = 0)
    (hflag : ∀ b, c.fd = some b → c.ends b = 0 → fd = none → c'.socketHanded = false)
    (hch : ∀ b, c'.channelPtr = some b → c.fd = some b ∧ c.ends b = 0 ∧ fd = none) :
    c'.Owned where
  others b hb hne := by
    rw [he.length] at hb
    rw [he.fd] at hne
    have hfd' : fd ≠ some b := fun hx => hne (hfd b hx).1
    rw [he.ends, h.others b hb hne, if_neg hfd']
  later b hb := by
    rw [he.length] at hb
    have hfd' : fd ≠ some b := by
      intro hx
      have hlt := h.fd_lt b (hfd b hx).1
      omega
    rw [he.ends, h.later b hb, if_neg hfd']
  fd_lt b hb := by
    rw [he.fd] at hb
    rw [he.length]
    exact h.fd_lt b hb
  fd b hb := by
    rw [he.fd] at hb
    rw [he.ends]
    -- the current socket ends in this step, or is left as it was
    by_cases hx : fd = some b
    · simp [hx, (hfd b hx).2]
    · rw [if_neg hx]
      obtain hone | ⟨hzero, -⟩ := h.fd b hb
      · exact .inl hone
      · refine .inr ⟨hzero, hflag b hb hzero ?_⟩
        match fd, hfd, hx with
        | none, _, _ => rfl
        | some b', hfd, hx =>
          have heq := (hfd b' rfl).1.symm.trans hb
          exact absurd heq hx
  channelPtr b hb := by
    obtain ⟨hb', hzero, hnone⟩ := hch b hb
    rw [he.fd, he.ends, hnone]
    exact ⟨hb', hzero⟩

theorem Owned.newSocket (h : c.Owned) (hclosed : c.fdOpen = false) :
    c.newSocket.Owned ∧ c.newSocket.channelPtr = none := by
  -- what `fd_` names has had its end, and no channel is set
  have hopen : ∀ b, c.fd = some b → c.ends b = 1 := by
    intro b hb
    obtain hone | ⟨hzero, -⟩ := h.fd b hb
    · exact hone
    · simp [fdOpen, hb, hzero] at hclosed
  have hch : c.channelPtr = none := by
    match hc : c.channelPtr with
    | none => rfl
    | some b =>
      obtain ⟨hb, hzero⟩ := h.channelPtr b hc
      simp [fdOpen, hb, hzero] at hclosed
  have hends : ∀ b, c.newSocket.ends b = c.ends b := fun _ => rfl
  have hlen : c.newSocket.sockets.length = c.sockets.length + 1 := by
    simp [Connector.newSocket]
  have hfd : c.newSocket.fd = some c.sockets.length := rfl
  refine ⟨{ others := ?_, later := ?_, fd_lt := ?_, fd := ?_, channelPtr := ?_ }, hch⟩
  · -- the socket that was in `fd_` has had its end
    intro b hb hne
    rw [hlen] at hb
    rw [hfd] at hne
    have hlt : b < c.sockets.length := by
      have hne' : c.sockets.length ≠ b := fun he => hne (congrArg some he)
      omega
    by_cases hold : c.fd = some b
    · exact hopen b hold
    · exact h.others b hlt hold
  · intro b hb
    rw [hlen] at hb
    exact h.later b (by omega)
  · intro b hb
    rw [hfd] at hb
    rw [hlen, ← Option.some.inj hb]
    omega
  · intro b hb
    rw [hfd] at hb
    have hzero := h.later b (Option.some.inj hb).le
    exact .inr ⟨hzero, rfl⟩
  · intro b hb
    have hb' : c.channelPtr = some b := hb
    simp [hch] at hb'

/-- The new socket of `connect` has its channel, or its end, or is left to `~Connector`. -/
theorem Owned.connectTo (h : c.Owned) (hclosed : c.fdOpen = false) (errno : Errno) :
    (c.connectTo errno).Owned := by
  obtain ⟨hnew, hch⟩ := h.newSocket hclosed
  have hfd : ∀ b, c.newSocket.fd = some b → c.newSocket.fd = some b ∧ c.newSocket.ends b = 0 :=
    fun b hb => ⟨hb, h.later b (Option.some.inj hb).le⟩
  unfold Connector.connectTo
  split
  · have he := assert_ends { c.newSocket with status := .Connecting } c.newSocket.channelPtr.isNone
    refine hnew.ended ⟨he.ends, he.length, he.fd⟩ nofun (fun _ _ _ _ => ?_) fun b hb => ?_
    · simp [connecting, assert_eq, Connector.newSocket]
    · obtain ⟨hb', hzero⟩ := hfd b hb
      exact ⟨hb', hzero, rfl⟩
  · split
    · refine hnew.ended (retrySocket_ends _ _) hfd nofun fun b hb => ?_
      simp [hch] at hb
    · exact hnew
  · have he := closeSocket_ends { c.newSocket with socketHanded := true } c.newSocket.fd
    refine hnew.ended ⟨he.ends, he.length, he.fd⟩ hfd nofun fun b hb => ?_
    simp [hch] at hb

theorem Owned.startInLoop (h : c.Owned) (errno : Errno)
    (hclosed : c.status = .Disconnected → c.connect = true → c.fdOpen = false) :
    (c.startInLoop errno).Owned := by
  have hassert : (c.assert (c.status = .Disconnected)).Owned := by
    rw [assert_eq]
    exact { h with }
  unfold Connector.startInLoop
  dsimp only
  split
  · rename_i hgo
    refine hassert.connectTo ?_ errno
    rw [assert_eq] at hgo ⊢
    simp only [Bool.not_or, Bool.not_not, Bool.and_eq_true, decide_eq_true_eq] at hgo
    exact hclosed hgo.1.2 hgo.2
  · exact hassert

/-- What a callback does: without an attempt under way it only sets `socketHanded_`, and
otherwise it ends the attempt and its socket. -/
structure Called (c c' : Connector) : Prop where
  ends : c.Ends c' (if c.status = .Connecting then c.channelPtr else none)
  socketHanded : c'.socketHanded = true
  channelPtr : c'.channelPtr = if c.status = .Connecting then none else c.channelPtr
  status : c.status ≠ .Connecting → c'.status = c.status

theorem called_of_connecting {c' : Connector} (hs : c.status = .Connecting)
    (he : c.Ends c' c.channelPtr) (hhanded : c'.socketHanded = true)
    (hch : c'.channelPtr = none) : c.Called c' where
  ends := by rwa [if_pos hs]
  socketHanded := hhanded
  channelPtr := by rwa [if_pos hs]
  status hne := absurd hs hne

theorem called_of_idle (hs : c.status ≠ .Connecting) (failed : Bool) :
    c.Called { c with socketHanded := true, failed := failed } where
  ends := by
    rw [if_neg hs]
    exact ⟨fun _ => rfl, rfl, rfl⟩
  socketHanded := rfl
  channelPtr := by rw [if_neg hs]
  status _ := rfl

theorem called_handleError (c : Connector) : c.Called (c.handleError []).1 := by
  by_cases hs : c.status = .Connecting
  · unfold handleError
    rw [if_pos hs]
    dsimp only [removeAndResetChannel, errorCallback]
    split
    · have he := retrySocket_ends
        { c with socketHanded := true, status := .Disconnected, channelPtr := none } c.channelPtr
      exact called_of_connecting hs ⟨he.ends, he.length, he.fd⟩ (by simp) (by simp)
    · have he := closeSocket_ends
        { c with socketHanded := true, status := .Disconnected, channelPtr := none } c.channelPtr
      exact called_of_connecting hs ⟨he.ends, he.length, he.fd⟩ (by simp) (by simp)
  · unfold handleError
    rw [if_neg hs]
    exact called_of_idle hs c.failed

theorem called_handleWrite (c : Connector) (report : SocketReport) :
    c.Called (c.handleWrite report []).1 := by
  -- without an attempt under way only the flag and the assertion are touched
  by_cases hs : c.status = .Connecting
  · unfold handleWrite
    rw [if_pos hs]
    dsimp only [removeAndResetChannel, errorCallback]
    split
    · split
      · have he := retrySocket_ends { c with socketHanded := true, channelPtr := none } c.channelPtr
        exact called_of_connecting hs ⟨he.ends, he.length, he.fd⟩ (by simp) (by simp)
      · have he := closeSocket_ends { c with socketHanded := true, channelPtr := none } c.channelPtr
        exact called_of_connecting hs ⟨he.ends, he.length, he.fd⟩ (by simp) (by simp)
    · split
      · split
        · -- the socket is given away
          rename_i fd hfd
          refine called_of_connecting hs ⟨fun b => ?_, by simp, rfl⟩ rfl rfl
          by_cases hb : fd = b
          · simp [ends, hfd, hb, Nat.add_assoc]
          · simp [ends, hfd, hb]
        · rename_i hnone
          refine called_of_connecting hs ⟨fun b => ?_, rfl, rfl⟩ rfl rfl
          simp [ends, hnone]
      · have he := closeSocket_ends
          { c with socketHanded := true, channelPtr := none, status := .Connected } c.channelPtr
        exact called_of_connecting hs ⟨he.ends, he.length, he.fd⟩ (by simp) (by simp)
  · unfold handleWrite
    rw [if_neg hs, assert_eq]
    exact called_of_idle hs _

theorem called_callback (hf : c.failed = false) {cb : Channel.Callback} (hcb : cb ≠ .read)
    (report : SocketReport) : c.Called (callback report c [] cb).1 := by
  cases cb with
  | read => exact absurd rfl hcb
  | close | error =>
    simp only [callback, hf, Bool.false_eq_true, if_false]
    exact called_handleError c
  | write =>
    simp only [callback, hf, Bool.false_eq_true, if_false]
    exact called_handleWrite c report

/-- A callback that ends the attempt, or finds `fd_` closed. -/
theorem Owned.called {c' : Connector} (h : c.Owned) (hcall : c.Called c')
    (hkeep : c.fdOpen = false ∨ c.underWay = true) : c'.Owned := by
  by_cases hs : c.status = .Connecting
  · have hends := hcall.ends
    have hch := hcall.channelPtr
    rw [if_pos hs] at hends hch
    -- the socket of the channel is the one in `fd_`
    refine h.ended hends h.channelPtr (fun b hb hzero hnone => ?_) fun b hb => ?_
    · -- open, and no attempt
      simp [fdOpen, underWay, hb, hzero, hnone] at hkeep
    · simp [hch] at hb
  · have hclosed : c.fdOpen = false := by simpa [underWay, hs] using hkeep
    have hends := hcall.ends
    have hch := hcall.channelPtr
    rw [if_neg hs] at hends hch
    refine h.ended hends nofun (fun b hb hzero _ => ?_) fun b hb => ?_
    · simp [fdOpen, hb, hzero] at hclosed
    · rw [hch] at hb
      obtain ⟨hb', hzero⟩ := h.channelPtr b hb
      simp [fdOpen, hb', hzero] at hclosed

theorem Owned.removeAndResetChannel (h : c.Owned) : c.removeAndResetChannel.1.Owned :=
  { h with channelPtr := by simp [Connector.removeAndResetChannel] }

theorem Owned.linear (h : c.Owned) (hfd : ∀ b, c.fd = some b → c.ends b = 1) : c.Linear := by
  intro b hb
  by_cases hb' : c.fd = some b
  · exact hfd b hb'
  · exact h.others b hb hb'

theorem Owned.destroy (h : c.Owned) (hkeep : c.fdOpen = true ∨ c.closesFd = false)
    (hnone : c.channelPtr = none) : c.destroy.Owned ∧ c.destroy.Linear := by
  unfold Connector.destroy
  split
  · rename_i hhanded
    refine ⟨h, h.linear fun b hb => ?_⟩
    exact (h.fd b hb).elim id fun ho => absurd (hhanded.symm.trans ho.2) (by simp)
  · rename_i hhanded
    have hopen : ∀ b, c.fd = some b → c.fd = some b ∧ c.ends b = 0 := by
      intro b hb
      simpa [fdOpen, closesFd, hb, hhanded] using hkeep
    have hends := closeSocket_ends c c.fd
    have howned : (c.closeSocket c.fd).Owned := by
      refine h.ended hends hopen (fun b hb _ hnone => ?_) fun b hb => ?_
      · simp [hnone] at hb
      · simp [hnone] at hb
    refine ⟨howned, howned.linear fun b hb => ?_⟩
    rw [fd_closeSocket] at hb
    rw [hends.ends, (hopen b hb).2, if_pos hb]

/-! ## A lost socket stays lost -/

theorem Lost.ended {c' : Connector} {fd : Option Nat} (h : c.Lost b) (he : c.Ends c' fd)
    (hfd : fd ≠ some b) (hhanded : c.fd = some b → c'.socketHanded = true)
    (hch : c'.channelPtr = some b → c'.status ≠ .Connecting) : c'.Lost b where
  lt := by
    rw [he.length]
    exact h.lt
  ends := by rw [he.ends, h.ends, if_neg hfd]
  fd hb := hhanded (he.fd ▸ hb)
  channelPtr := hch

/-- A socket that is open when `connect` makes the next one is lost. -/
theorem lost_connectTo (hlt : b < c.sockets.length) (hzero : c.ends b = 0)
    (hch : c.channelPtr = some b → c.status ≠ .Connecting) (errno : Errno) :
    (c.connectTo errno).Lost b := by
  have hfd : c.newSocket.fd ≠ some b := by
    intro hb
    have heq : c.sockets.length = b := Option.some.inj hb
    omega
  have hnew : c.newSocket.Lost b :=
    { lt := by simp [newSocket]; omega
      ends := hzero
      fd := fun hb => absurd hb hfd
      channelPtr := hch }
  unfold connectTo
  split
  · -- the channel is that of the new socket, whether the assertion fails or not
    have he := assert_ends { c.newSocket with status := .Connecting } c.newSocket.channelPtr.isNone
    refine hnew.ended ⟨he.ends, he.length, he.fd⟩ nofun (fun hb => absurd hb hfd) fun hb => ?_
    exact absurd hb hfd
  · split
    · refine hnew.ended (retrySocket_ends _ _) hfd (fun hb => absurd hb hfd) fun _ => ?_
      simp
    · exact hnew
  · have he := closeSocket_ends { c.newSocket with socketHanded := true } c.newSocket.fd
    refine hnew.ended ⟨he.ends, he.length, he.fd⟩ hfd (fun hb => absurd hb hfd) fun hb => ?_
    have hb' : c.channelPtr = some b := by simpa [newSocket] using hb
    simpa [newSocket] using hch hb'

theorem Lost.startInLoop (h : c.Lost b) (errno : Errno) : (c.startInLoop errno).Lost b := by
  have hassert : (c.assert (c.status = .Disconnected)).Lost b := by
    rw [assert_eq]
    exact { h with }
  unfold Connector.startInLoop
  dsimp only
  split
  · exact lost_connectTo hassert.lt hassert.ends hassert.channelPtr errno
  · exact hassert

theorem Lost.removeAndResetChannel (h : c.Lost b) : c.removeAndResetChannel.1.Lost b :=
  { h with channelPtr := by simp [Connector.removeAndResetChannel] }

theorem Lost.stop (h : c.Lost b) : c.stop.Lost b :=
  { h with channelPtr := by simp [Connector.stop, Connector.removeAndResetChannel] }

theorem Lost.called {c' : Connector} (h : c.Lost b) (hcall : c.Called c') : c'.Lost b := by
  by_cases hs : c.status = .Connecting
  · have hends := hcall.ends
    have hch := hcall.channelPtr
    rw [if_pos hs] at hends hch
    refine h.ended hends (fun hb => h.channelPtr hb hs) (fun _ => hcall.socketHanded) fun hb => ?_
    simp [hch] at hb
  · have hends := hcall.ends
    rw [if_neg hs] at hends
    refine h.ended hends nofun (fun _ => hcall.socketHanded) fun _ => ?_
    rwa [hcall.status hs]

/-- A callback that finds `fd_` open and no attempt under way. -/
theorem lost_called {c' : Connector} (hlt : b < c.sockets.length) (hzero : c.ends b = 0)
    (hidle : c.underWay = false) (hcall : c.Called c') : c'.Lost b := by
  have hends := hcall.ends
  have hch := hcall.channelPtr
  by_cases hs : c.status = .Connecting
  · have hnone : c.channelPtr = none := by simpa [underWay, hs] using hidle
    rw [if_pos hs] at hends hch
    exact
      { lt := hends.length ▸ hlt
        ends := by simp [hends.ends, hzero, hnone]
        fd := fun _ => hcall.socketHanded
        channelPtr := by simp [hch] }
  · rw [if_neg hs] at hends
    exact
      { lt := hends.length ▸ hlt
        ends := by simp [hends.ends, hzero]
        fd := fun _ => hcall.socketHanded
        channelPtr := fun _ => hcall.status hs ▸ hs }

/-- `~Connector` closes a socket that has its end. -/
theorem not_linear_destroy (h : c.Owned) (hclosed : c.fdOpen = false)
    (hcloses : c.closesFd = true) : ¬ c.destroy.Linear := by
  simp only [closesFd, Bool.and_eq_true, Bool.not_eq_true', Option.isSome_iff_exists] at hcloses
  obtain ⟨hhanded, b, hb⟩ := hcloses
  have hone : c.ends b = 1 := by
    obtain hone | ⟨hzero, -⟩ := h.fd b hb
    · exact hone
    · simp [fdOpen, hb, hzero] at hclosed
  intro hl
  have htwice := hl b (by simpa [Connector.destroy, hhanded] using h.fd_lt b hb)
  simp [Connector.destroy, hhanded, ends_closeSocket, hb, hone] at htwice

theorem startInLoop_eq (hs : c.status = .Disconnected) (hf : c.failed = false)
    (hc : c.connect = true) (errno : Errno) : c.startInLoop errno = c.connectTo errno := by
  simp [Connector.startInLoop, Connector.assert, hs, hf, hc]

/-- `connect` while the socket in `fd_` is open. -/
theorem lost_startInLoop (h : c.Owned) (hopen : c.fdOpen = true) (hs : c.status = .Disconnected)
    (hf : c.failed = false) (hc : c.connect = true) (errno : Errno) :
    ∃ b, (c.startInLoop errno).Lost b := by
  obtain ⟨b, hb, hzero⟩ := fdOpen_iff.mp hopen
  rw [startInLoop_eq hs hf hc]
  exact ⟨b, lost_connectTo (h.fd_lt b hb) hzero (fun _ => by simp [hs]) errno⟩

theorem Lost.destroy (h : c.Lost b) : c.destroy.Lost b := by
  unfold Connector.destroy
  split
  · exact h
  · rename_i hhanded
    have hfd : c.fd ≠ some b := fun hb => hhanded (h.fd hb)
    refine h.ended (closeSocket_ends c c.fd) hfd (fun hb => absurd hb hfd) fun hb => ?_
    simpa using h.channelPtr (by simpa using hb)

theorem Lost.not_linear (h : c.Lost b) : ¬ c.Linear := by
  intro hl
  have hone := hl b h.lt
  simp [h.ends] at hone

end Connector

namespace ConnectorCalls

open Connector (Owned Lost Linear)

variable {s : ConnectorCalls}

/-- `connect` finds the socket of `fd_` closed, a callback finds it closed or its attempt under
way, and `~Connector` does not close it a second time. -/
def keepsOwner (s : ConnectorCalls) (a : Act) : Bool :=
  s.ended ||
    match a with
    | .destroy => !s.destroyable || s.conn.fdOpen || !s.conn.closesFd
    | a => !s.conn.fdOpen || !s.connects a && (!s.handles a || s.conn.underWay)

/-- `fd_` has its owner, and everything has ended when the `Connector` is gone. -/
structure Tracked (s : ConnectorCalls) : Prop where
  owned : s.conn.Owned
  linear : s.destroyed = true → s.conn.Linear

/-- The `Connector` is gone, and some socket has not had one end. -/
def Unbalanced (s : ConnectorCalls) : Prop := s.destroyed = true ∧ ¬ s.conn.Linear

instance (s : ConnectorCalls) : Decidable s.Unbalanced :=
  inferInstanceAs (Decidable (_ ∧ _))

/-- A socket is never closed, or was closed twice. -/
def Broken (s : ConnectorCalls) : Prop := (∃ b, s.conn.Lost b) ∨ s.Unbalanced

theorem runCallback_eq (c : Connector) (report : SocketReport) (stops : Bool)
    (cb : Channel.Callback) :
    runCallback c report stops cb = (Connector.callback report c [] cb).1 ∨
      runCallback c report stops cb =
        { (Connector.callback report c [] cb).1 with status := .Disconnected } := by
  unfold runCallback
  dsimp only
  split
  · exact .inr rfl
  · exact .inl rfl

theorem Owned.runCallback {c : Connector} (h : c.Owned) (hf : c.failed = false)
    {cb : Channel.Callback} (hkeep : cb ≠ .read → c.fdOpen = false ∨ c.underWay = true)
    (report : SocketReport) (stops : Bool) : (runCallback c report stops cb).Owned := by
  have hcb : (Connector.callback report c [] cb).1.Owned := by
    by_cases hread : cb = .read
    · subst hread
      exact h
    · exact h.called (Connector.called_callback hf hread report) (hkeep hread)
  obtain heq | heq := runCallback_eq c report stops cb
  · rwa [heq]
  · rw [heq]
    exact { hcb with }

theorem fdOpen_of_connects {a : Act} (hG : s.keepsOwner a = true) (hended : s.ended = false)
    (hc : s.connects a = true) : s.conn.fdOpen = false := by
  cases a with
  | destroy => simp [connects] at hc
  | _ => simpa [keepsOwner, hended, hc] using hG

theorem keeps_of_handles {a : Act} (hG : s.keepsOwner a = true) (hended : s.ended = false)
    (hh : s.handles a = true) : s.conn.fdOpen = false ∨ s.conn.underWay = true := by
  cases a with
  | callback report stops =>
    simp only [keepsOwner, hended, hh, Bool.false_or, Bool.not_true, Bool.or_eq_true,
      Bool.not_eq_true', Bool.and_eq_true] at hG
    exact hG.imp id And.right
  | _ => simp [handles] at hh

theorem Tracked.effect (h : s.Tracked) (hover : ¬ s.ended = true) {a : Act}
    (hG : s.keepsOwner a = true) {c : Connector} {destroyed : Bool}
    (heffect : s.Effect a c destroyed) : c.Owned ∧ (destroyed = true → c.Linear) := by
  have hended : s.ended = false := Bool.eq_false_iff.mpr hover
  have ho := h.owned
  -- only `destroy` has to leave every socket with its end
  have hlives : ∀ {c : Connector}, s.destroyed = true → c.Linear := by
    simp [destroyed_of_not_ended hover]
  cases heffect with
  | same => exact ⟨ho, h.linear⟩
  | connect | disconnect => exact ⟨{ ho with }, hlives⟩
  | stop => exact ⟨{ ho.removeAndResetChannel with }, hlives⟩
  | remove => exact ⟨ho.removeAndResetChannel, hlives⟩
  | start connect errno hstarts hconnects =>
    have hstore : { s.conn with connect := connect }.Owned := { ho with }
    refine ⟨hstore.startInLoop errno fun hs hc => ?_, hlives⟩
    have hclosed : s.conn.fdOpen = false := fdOpen_of_connects hG hended (hconnects hs hc)
    exact hclosed
  | callback report stops cb hactive hhandles =>
    refine ⟨Owned.runCallback ho (failed_of_not_ended hover) (fun hread => ?_) report stops, hlives⟩
    exact keeps_of_handles hG hended (hhandles hread)
  | destroy ha hdestroyable =>
    subst ha
    have hkeep : s.conn.fdOpen = true ∨ s.conn.closesFd = false := by
      simpa [keepsOwner, hended, hdestroyable] using hG
    simp only [destroyable, Bool.and_eq_true, Option.isNone_iff_eq_none] at hdestroyable
    obtain ⟨howned, hlinear⟩ := ho.destroy hkeep hdestroyable.1.1.2
    exact ⟨howned, fun _ => hlinear⟩

theorem Tracked.step (h : s.Tracked) {a : Act} (hG : s.keepsOwner a = true) :
    (s.step a).Tracked := by
  by_cases hover : s.ended = true
  · rwa [step_ended hover]
  · obtain ⟨howned, hlinear⟩ := h.effect hover hG (effect_step s a)
    exact ⟨howned, hlinear⟩

theorem lost_runCallback {c : Connector} {b : Nat} {report : SocketReport}
    {cb : Channel.Callback} (h : (Connector.callback report c [] cb).1.Lost b) (stops : Bool) :
    (runCallback c report stops cb).Lost b := by
  obtain heq | heq := runCallback_eq c report stops cb
  · rwa [heq]
  · rw [heq]
    exact { h with channelPtr := by simp }

theorem Lost.callback {c : Connector} {b : Nat} (h : c.Lost b) (hf : c.failed = false)
    (report : SocketReport) (cb : Channel.Callback) :
    (Connector.callback report c [] cb).1.Lost b := by
  by_cases hread : cb = .read
  · subst hread
    exact h
  · exact h.called (Connector.called_callback hf hread report)

theorem Lost.effect {b : Nat} (h : s.conn.Lost b) (hf : s.conn.failed = false) {a : Act}
    {c : Connector} {destroyed : Bool} (heffect : s.Effect a c destroyed) : c.Lost b := by
  cases heffect with
  | same => exact h
  | connect => exact { h with }
  | disconnect => exact { h with channelPtr := by simp }
  | stop => exact h.stop
  | remove => exact h.removeAndResetChannel
  | start connect errno =>
    have hstore : { s.conn with connect := connect }.Lost b := { h with }
    exact hstore.startInLoop errno
  | callback report stops cb => exact lost_runCallback (Lost.callback h hf report cb) stops
  | destroy => exact h.destroy

theorem Broken.step (h : s.Broken) (a : Act) : (s.step a).Broken := by
  by_cases hover : s.ended = true
  · rwa [step_ended hover]
  · obtain ⟨b, hb⟩ | ⟨hdestroyed, -⟩ := h
    · exact .inl ⟨b, Lost.effect hb (failed_of_not_ended hover) (effect_step s a)⟩
    · simp [destroyed_of_not_ended hover] at hdestroyed

/-- A step that loses track of `fd_`. -/
theorem Tracked.broken (h : s.Tracked) {a : Act} (hG : ¬ s.keepsOwner a = true) :
    (s.step a).Broken := by
  have ho := h.owned
  have hended : s.ended = false := by
    by_contra hn
    exact hG (by simp [keepsOwner, hn])
  have hf : s.conn.failed = false := by simp_all [ended]
  -- each case reads off the guard what goes wrong
  unfold ConnectorCalls.step
  rw [if_neg (by simp [hended])]
  cases a with
  | destroy =>
    simp only [keepsOwner, hended, Bool.false_or, Bool.or_eq_true, Bool.not_eq_true', not_or,
      Bool.not_eq_true, Bool.not_eq_false] at hG
    obtain ⟨⟨hdestroy, hclosed⟩, hcloses⟩ := hG
    dsimp only
    rw [if_pos hdestroy]
    exact .inr ⟨rfl, Connector.not_linear_destroy ho hclosed hcloses⟩
  | start errno =>
    -- a new socket takes the place of an open one
    obtain ⟨hopen, huser, hs⟩ : s.conn.fdOpen = true ∧ s.userRuns = true ∧
        s.conn.status = .Disconnected := by
      simpa [keepsOwner, hended, connects, handles] using hG
    dsimp only
    rw [if_pos huser]
    have hstore : s.storeConnect.conn.Owned := { ho with }
    exact .inl (Connector.lost_startInLoop hstore hopen hs hf rfl errno)
  | runFunc errno =>
    obtain ⟨hopen, ⟨⟨hhandled, hfunc⟩, hs⟩, hc⟩ : s.conn.fdOpen = true ∧
        ((s.handled = true ∧ s.funcs.head? = some .startInLoop) ∧
          s.conn.status = .Disconnected) ∧ s.conn.connect = true := by
      simpa [keepsOwner, hended, connects, handles] using hG
    obtain ⟨funcs, hfuncs⟩ : ∃ funcs, s.funcs = .startInLoop :: funcs :=
      List.head?_eq_some_iff.mp hfunc
    dsimp only
    rw [hfuncs]
    dsimp only
    rw [if_pos hhandled]
    exact .inl (Connector.lost_startInLoop ho hopen hs hf hc errno)
  | retryTimer errno =>
    obtain ⟨hopen, ⟨⟨hactive, hfired⟩, hs⟩, hc⟩ : s.conn.fdOpen = true ∧
        ((s.active = [] ∧ s.fired < s.conn.scheduled.length) ∧
          s.conn.status = .Disconnected) ∧ s.conn.connect = true := by
      simpa [keepsOwner, hended, connects, handles] using hG
    dsimp only
    rw [if_pos (by simp [hactive, hfired])]
    exact .inl (Connector.lost_startInLoop ho hopen hs hf hc errno)
  | callback report stops =>
    -- the flag says of an open socket that it was handed over
    obtain ⟨hopen, hcb, hidle⟩ : s.conn.fdOpen = true ∧
        (s.active.head?.any fun cb => cb ≠ .read) = true ∧ s.conn.underWay = false := by
      simpa [keepsOwner, hended, connects, handles] using hG
    obtain ⟨b, hb, hzero⟩ := Connector.fdOpen_iff.mp hopen
    cases hactive : s.active with
    | nil => simp [hactive] at hcb
    | cons cb cbs =>
      have hread : cb ≠ .read := by simpa [hactive] using hcb
      have hlost := Connector.lost_called (ho.fd_lt b hb) hzero hidle
        (Connector.called_callback hf hread report)
      exact .inl ⟨b, lost_runCallback hlost stops⟩
  | _ => simp [keepsOwner, connects, handles] at hG

theorem tracked_new (retry : Bool) : (new retry).Tracked where
  owned :=
    { others := by simp [new, Connector.new]
      later := fun _ _ => rfl
      fd_lt := by simp [new, Connector.new]
      fd := by simp [new, Connector.new]
      channelPtr := by simp [new, Connector.new] }
  linear := by simp [new]

/-- **Every socket is closed once or given away once** in a run that ends with the destruction
of the `Connector`, exactly when all its steps keep track of the socket in `fd_`. -/
theorem linear_iff_keepsOwner (retry : Bool) (as : List Act)
    (hend : (run step (new retry) as).destroyed = true) :
    (run step (new retry) as).conn.Linear ↔
      Along step (fun s a => s.keepsOwner a = true) (new retry) as := by
  have h := along_or_broken (I := Tracked) (G := fun s a => s.keepsOwner a = true) (B := Broken)
    (fun _ _ hs hG => hs.step hG) (fun _ _ hs hG => hs.broken hG) (fun _ a hs => hs.step a)
    (tracked_new retry) as
  obtain ⟨halong, htracked⟩ | ⟨hnot, hbroken⟩ := h
  · exact iff_of_true (htracked.linear hend) halong
  · have hlinear : ¬ (run step (new retry) as).conn.Linear :=
      hbroken.elim (fun ⟨_, hb⟩ => hb.not_linear) And.right
    exact iff_of_false hlinear hnot

theorem linear_connected :
    (run step (new true)
      [.start .EINPROGRESS, .poll, .event Channel.POLLOUT, .callback ⟨false, false⟩ false,
        .destroy]).conn.Linear :=
  (linear_iff_keepsOwner true _ (by decide)).mpr (by decide)

/-- The first of two sockets stays open after `stop` and `start`, or after a `stop` of another thread
while its event waits; one that `connect` itself closes is closed again by `~Connector`. -/
theorem not_linear_stop :
    (run step (new true) [.start .EINPROGRESS, .stop, .start .ok, .stop, .destroy]).Unbalanced ∧
      (run step (new true)
        [.start .EINPROGRESS, .poll, .stopElsewhere, .event Channel.POLLOUT,
          .callback ⟨false, false⟩ false, .queueStop 1, .runFunc .ok, .destroy]).Unbalanced ∧
      (run step (new true) [.start .ECONNREFUSED, .destroy]).Unbalanced := by
  decide

end ConnectorCalls

end XiaoNet
