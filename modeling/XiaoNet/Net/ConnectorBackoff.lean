import Mathlib.Algebra.BigOperators.Group.Finset.Basic
import Mathlib.Algebra.Order.BigOperators.Group.Finset
import XiaoNet.Net.ConnectorCalls

/-!
# The delays of the retries

A `Connector` with a clock. `runAfter` fires a retry no sooner than its delay asks for.

- `retryDelay`: what the delays are meant to be, doubled up to a limit.
- `Pace`: what a function of `Connector` does to the delays and the sockets.
- `Backoff`: every run schedules exactly these delays, makes no socket without a call of `start`
  or a timer, and after one call of `start` has waited for the sum of the delays of all timers
  that fired.
-/

namespace XiaoNet

namespace Connector

/-- The delay of the `n`th retry, in milliseconds. -/
def retryDelay (n : Nat) : Nat := min (kInitRetryDelayMs * 2 ^ n) kMaxRetryDelayMs

theorem retryDelay_succ (n : Nat) :
    min (retryDelay n * 2) kMaxRetryDelayMs = retryDelay (n + 1) := by
  unfold retryDelay
  rw [pow_succ, ← Nat.mul_assoc]
  omega

/-- The delays so far are the first ones, and the next one is next. -/
structure Paced (c : Connector) : Prop where
  scheduled : c.scheduled = (List.range c.scheduled.length).map retryDelay
  next : c.retryInterval = retryDelay c.scheduled.length

/-- An attempt that may end in a retry. -/
def pending (c : Connector) : Nat := if c.status = .Connecting then 1 else 0

/-- From `c` to `c'` at most `n` sockets are made, and a retry takes the place of an attempt. -/
structure Pace (n : Nat) (c c' : Connector) : Prop where
  paced : c.Paced → c'.Paced
  sockets : c'.sockets.length ≤ c.sockets.length + n
  attempts : c'.scheduled.length + c'.pending + c.sockets.length
    ≤ c.scheduled.length + c.pending + c'.sockets.length
  scheduled : ∃ delays, c'.scheduled = c.scheduled ++ delays ∧ delays.length ≤ 1

variable {c c' : Connector}

/-- Nothing is scheduled. -/
theorem Pace.of_same {n : Nat} (hs : c'.scheduled = c.scheduled)
    (hr : c'.retryInterval = c.retryInterval) (hle : c'.sockets.length ≤ c.sockets.length + n)
    (hp : c'.pending + c.sockets.length ≤ c.pending + c'.sockets.length) : Pace n c c' where
  paced h := by
    refine ⟨?_, ?_⟩
    · rw [hs]
      exact h.scheduled
    · rw [hs, hr]
      exact h.next
  sockets := hle
  attempts := by
    rw [hs]
    omega
  scheduled := ⟨[], by rw [hs, List.append_nil], Nat.zero_le _⟩

theorem pending_le (c : Connector) : c.pending ≤ 1 := by
  unfold pending
  split <;> omega

theorem pending_of_ne (h : c.status ≠ .Connecting) : c.pending = 0 := if_neg h

theorem retryInterval_closeSocket (fd : Option Nat) :
    (c.closeSocket fd).retryInterval = c.retryInterval := by
  cases fd <;> rfl

/-- A retry is scheduled with the next delay. -/
theorem retrySocket_cases (c : Connector) (fd : Option Nat) :
    ((c.retrySocket fd).scheduled = c.scheduled ∧
      (c.retrySocket fd).retryInterval = c.retryInterval) ∨
    ((c.retrySocket fd).scheduled = c.scheduled ++ [c.retryInterval] ∧
      (c.retrySocket fd).retryInterval = min (c.retryInterval * 2) kMaxRetryDelayMs) := by
  unfold retrySocket
  dsimp only
  rw [assert_eq]
  split
  · right
    rw [scheduled_closeSocket, retryInterval_closeSocket]
    exact ⟨rfl, rfl⟩
  · left
    exact ⟨scheduled_closeSocket fd, retryInterval_closeSocket fd⟩

theorem length_retrySocket (fd : Option Nat) :
    (c.retrySocket fd).sockets.length = c.sockets.length := by
  unfold retrySocket
  dsimp only
  rw [assert_eq]
  split <;> exact length_closeSocket fd

/-- The retry of an attempt, from `c₀` where it was under way. -/
theorem pace_retrySocket {n : Nat} {c₀ : Connector} (fd : Option Nat)
    (hs : c.scheduled = c₀.scheduled) (hr : c.retryInterval = c₀.retryInterval)
    (hle : c.sockets.length ≤ c₀.sockets.length + n)
    (hp : 1 + c₀.sockets.length ≤ c₀.pending + c.sockets.length) :
    Pace n c₀ (c.retrySocket fd) := by
  have hlength := length_retrySocket (c := c) fd
  have hnone : (c.retrySocket fd).pending = 0 := by
    refine pending_of_ne ?_
    rw [status_retrySocket]
    decide
  rcases retrySocket_cases c fd with ⟨hsame, hint⟩ | ⟨hmore, hint⟩
  · refine .of_same (hsame.trans hs) (hint.trans hr) (by omega) (by omega)
  · rw [hs, hr] at hmore
    rw [hr] at hint
    refine ⟨fun h => ?_, by omega, ?_, ⟨_, hmore, Nat.le_refl 1⟩⟩
    · have hlen : (c.retrySocket fd).scheduled.length = c₀.scheduled.length + 1 := by
        rw [hmore, List.length_append]
        rfl
      refine ⟨?_, ?_⟩
      · rw [hlen, List.range_succ, List.map_append, ← h.scheduled, hmore, h.next]
        rfl
      · rw [hlen, hint, h.next, retryDelay_succ]
    · rw [hmore, List.length_append]
      simp only [List.length_singleton]
      omega

theorem length_newSocket (c : Connector) :
    c.newSocket.sockets.length = c.sockets.length + 1 := by
  simp [newSocket]

theorem pace_connectTo (hs : c.status = .Disconnected) (errno : Errno) :
    Pace 1 c (c.connectTo errno) := by
  have hlength := length_newSocket c
  have hzero : c.pending = 0 := pending_of_ne (by rw [hs]; decide)
  unfold connectTo
  split
  · -- under way: the attempt that is pending is the new one
    refine .of_same ?_ ?_ ?_ ?_ <;> unfold connecting <;> rw [assert_eq]
    · rfl
    · rfl
    · exact Nat.le_of_eq hlength
    · have hone := pending_le { c.newSocket with status := .Connecting }
      show pending { c.newSocket with status := .Connecting } + _ ≤ _ + c.newSocket.sockets.length
      omega
  · -- an errno to retry: a delay is booked when `retry_` is on
    split
    · exact pace_retrySocket _ rfl rfl (Nat.le_of_eq hlength) (by omega)
    · refine .of_same rfl rfl (Nat.le_of_eq hlength) ?_
      show c.pending + _ ≤ _
      omega
  · refine .of_same (scheduled_closeSocket _) (retryInterval_closeSocket _) ?_ ?_
    · rw [length_closeSocket]
      exact Nat.le_of_eq hlength
    · rw [length_closeSocket, pending_of_ne]
      · show _ ≤ _ + c.newSocket.sockets.length
        omega
      · rw [status_closeSocket]
        show c.status ≠ _
        rw [hs]
        decide

theorem pace_startInLoop (connect : Bool) (errno : Errno) :
    Pace 1 c ({ c with connect := connect }.startInLoop errno) := by
  unfold startInLoop
  rw [assert_eq]
  dsimp only
  split
  · rename_i hrun
    simp only [Bool.and_eq_true, Bool.not_eq_true', Bool.or_eq_false_iff, Bool.not_eq_false',
      decide_eq_true_eq] at hrun
    have hconnect := pace_connectTo (c := { c with
      connect := connect, failed := c.failed || !decide (c.status = .Disconnected) }) hrun.1.2 errno
    exact ⟨hconnect.paced ∘ fun h => ⟨h.scheduled, h.next⟩, hconnect.sockets, hconnect.attempts,
      hconnect.scheduled⟩
  · exact .of_same rfl rfl (Nat.le_add_right _ _) (Nat.le_refl _)

/-! ## Callbacks of the channel -/

/-- The end of an attempt that is under way. -/
theorem pace_over {c₀ : Connector} (fd : Option Nat) (hunder : c₀.status = .Connecting)
    (hs : c.scheduled = c₀.scheduled) (hr : c.retryInterval = c₀.retryInterval)
    (hlength : c.sockets.length = c₀.sockets.length) :
    Pace 0 c₀ (if c.retry then c.retrySocket fd else c.closeSocket fd) := by
  have hone : c₀.pending = 1 := if_pos hunder
  split
  · exact pace_retrySocket fd hs hr (Nat.le_of_eq hlength) (by omega)
  · have hle := pending_le (c.closeSocket fd)
    have hsame := length_closeSocket (c := c) fd
    exact .of_same ((scheduled_closeSocket fd).trans hs)
      ((retryInterval_closeSocket fd).trans hr) (by omega) (by omega)

theorem pace_handleError (c : Connector) : Pace 0 c (c.handleError []).1 := by
  unfold handleError
  dsimp only
  split
  · rename_i hunder
    exact pace_over _ hunder rfl rfl rfl
  · exact .of_same rfl rfl (Nat.le_refl _) (Nat.le_refl _)

theorem pace_handleWrite (c : Connector) (report : SocketReport) :
    Pace 0 c (c.handleWrite report []).1 := by
  unfold handleWrite
  dsimp only
  split
  · rename_i hunder
    have hone : c.pending = 1 := if_pos hunder
    split
    · -- the flag that the last branch sets again changes nothing here
      exact pace_over (c := { c with socketHanded := true, channelPtr := none }) _ hunder rfl rfl
        rfl
    · split
      · split
        · refine .of_same rfl rfl ?_ ?_
          · exact Nat.le_of_eq List.length_set
          · show _ + c.sockets.length ≤ _ + (c.sockets.set _ _).length
            rw [List.length_set, hone]
            exact Nat.add_le_add_right (pending_le _) _
        · refine .of_same rfl rfl (Nat.le_refl _) ?_
          rw [hone]
          exact Nat.add_le_add_right (pending_le _) _
      · refine .of_same (scheduled_closeSocket _) (retryInterval_closeSocket _) ?_ ?_
        · exact Nat.le_of_eq (length_closeSocket _)
        · rw [length_closeSocket, hone]
          exact Nat.add_le_add_right (pending_le _) _
  · rw [assert_eq]
    exact .of_same rfl rfl (Nat.le_refl _) (Nat.le_refl _)

theorem pace_callback (c : Connector) (report : SocketReport) (cb : Channel.Callback) :
    Pace 0 c (callback report c [] cb).1 := by
  have hsame : Pace 0 c c := .of_same rfl rfl (Nat.le_refl _) (Nat.le_refl _)
  by_cases hf : c.failed = true
  · have hnone : (callback report c [] cb).1 = c := by cases cb <;> simp [callback, hf]
    rw [hnone]
    exact hsame
  · cases cb with
    | read => exact hsame
    | close | error =>
      simp only [callback, if_neg hf]
      exact pace_handleError c
    | write =>
      simp only [callback, if_neg hf]
      exact pace_handleWrite c report

/-- `status_` is stored afterwards. -/
theorem Pace.disconnect {n : Nat} (h : Pace n c c') :
    Pace n c { c' with status := .Disconnected } := by
  have hattempts := h.attempts
  refine ⟨fun hc => ⟨(h.paced hc).scheduled, (h.paced hc).next⟩, h.sockets, ?_, h.scheduled⟩
  show c'.scheduled.length + 0 + _ ≤ _ + c'.sockets.length
  omega

end Connector

namespace ConnectorCalls

open Connector

variable {s : ConnectorCalls}

theorem pace_runCallback (c : Connector) (report : SocketReport) (stops : Bool)
    (cb : Channel.Callback) : Pace 0 c (runCallback c report stops cb) := by
  have hcall := pace_callback c report cb
  unfold runCallback
  dsimp only
  split
  · exact hcall.disconnect
  · exact hcall

/-! ## Steps -/

/-- The closures of `start` that are queued or about to be queued. -/
def owed (s : ConnectorCalls) : Nat := s.starting + s.funcs.count .startInLoop

/-- What a step does to the delays; a socket is paid for by a call of `start` or a timer. -/
structure Spends (s s' : ConnectorCalls) : Prop where
  paced : s.conn.Paced → s'.conn.Paced
  attempts : s'.conn.scheduled.length + s'.conn.pending + s.conn.sockets.length
    ≤ s.conn.scheduled.length + s.conn.pending + s'.conn.sockets.length
  scheduled : ∃ delays, s'.conn.scheduled = s.conn.scheduled ++ delays ∧ delays.length ≤ 1
  sockets : s'.conn.sockets.length + s'.owed + s.starts + s.fired
    ≤ s.conn.sockets.length + s.owed + s'.starts + s'.fired
  starts : s.starts ≤ s'.starts

theorem Spends.of_pace {s' : ConnectorCalls} {n : Nat} (h : Pace n s.conn s'.conn)
    (hpaid : n + s'.owed + s.starts + s.fired ≤ s.owed + s'.starts + s'.fired)
    (hstarts : s.starts ≤ s'.starts) : Spends s s' where
  paced := h.paced
  attempts := h.attempts
  scheduled := h.scheduled
  sockets := by
    have hsockets := h.sockets
    omega
  starts := hstarts

theorem Spends.refl (s : ConnectorCalls) : Spends s s :=
  .of_pace (n := 0) (.of_same rfl rfl (Nat.le_refl _) (Nat.le_refl _)) (by omega) (Nat.le_refl _)

/-- The step lets the next timer fire. -/
def Act.fires : Act → Bool
  | .retryTimer _ => true
  | _ => false

theorem fired_step (s : ConnectorCalls) (a : Act) :
    (s.step a).fired = s.fired ∨
      (a.fires = true ∧ (s.step a).fired = s.fired + 1 ∧
        s.fired < s.conn.scheduled.length) := by
  unfold step
  split
  · exact .inl rfl
  · cases a with
    | retryTimer errno =>
      dsimp only
      split
      · rename_i hfires
        simp only [Bool.and_eq_true, decide_eq_true_eq] at hfires
        exact .inr ⟨rfl, rfl, hfires.2⟩
      · exact .inl rfl
    | runFunc errno =>
      dsimp only
      split
      · exact .inl rfl
      · split
        · rename_i f _ _ _
          cases f <;> exact .inl rfl
        · exact .inl rfl
    | callback report stops =>
      dsimp only
      split <;> exact .inl rfl
    | startElsewhere | stopElsewhere => exact .inl rfl
    | start | queueStart | stop | queueStop | poll | event | destroy =>
      dsimp only
      split <;> exact .inl rfl

/-- A step that runs `startInLoop`, for a call of `start`, a closure or a timer. -/
theorem spends_start {t : ConnectorCalls} (connect : Bool) (errno : Connector.Errno)
    (hconn : t.conn = { s.conn with connect := connect }.startInLoop errno)
    (hpaid : 1 + t.owed + s.starts + s.fired ≤ s.owed + t.starts + t.fired)
    (hstarts : s.starts ≤ t.starts) : Spends s t := by
  refine .of_pace (n := 1) ?_ hpaid hstarts
  rw [hconn]
  exact pace_startInLoop connect errno

/-- A step that runs none. -/
theorem spends_same {t : ConnectorCalls} (hconn : Pace 0 s.conn t.conn)
    (hpaid : t.owed + s.starts + s.fired ≤ s.owed + t.starts + t.fired)
    (hstarts : s.starts ≤ t.starts) : Spends s t :=
  .of_pace hconn (by omega) hstarts

theorem pace_refl (c : Connector) : Pace 0 c c :=
  .of_same rfl rfl (Nat.le_refl _) (Nat.le_refl _)

theorem pace_disconnected (c : Connector) : Pace 0 c { c with status := .Disconnected } :=
  (pace_refl c).disconnect

theorem pace_stop (c : Connector) : Pace 0 c c.stop :=
  .of_same rfl rfl (Nat.le_refl _) (Nat.add_le_add_right (Nat.zero_le _) _)

theorem pace_destroy (c : Connector) : Pace 0 c c.destroy := by
  unfold destroy
  split
  · exact pace_refl c
  · refine .of_same (scheduled_closeSocket _) (retryInterval_closeSocket _) ?_ ?_
    · exact Nat.le_of_eq (length_closeSocket _)
    · rw [length_closeSocket]
      refine Nat.add_le_add_right (Nat.le_of_eq ?_) _
      unfold pending
      rw [status_closeSocket]

/-- **One step** pays for the socket it makes. -/
theorem spends_step (s : ConnectorCalls) (a : Act) : Spends s (s.step a) := by
  -- attempts are paid for by calls of `start`, queued starts and timers that fire
  unfold step
  split
  · exact .refl s
  cases a with
  | start errno =>
    dsimp only
    split
    · refine spends_start true errno rfl ?_ (Nat.le_succ _)
      show 1 + s.owed + s.starts + s.fired ≤ s.owed + (s.starts + 1) + s.fired
      omega
    · exact .refl s
  | startElsewhere =>
    -- the call is booked before its closure is queued
    refine spends_same (.of_same rfl rfl (Nat.le_refl _) (Nat.le_refl _)) ?_ (Nat.le_succ _)
    show s.starting + 1 + s.funcs.count .startInLoop + s.starts + s.fired
      ≤ s.owed + (s.starts + 1) + s.fired
    unfold owed
    omega
  | queueStart =>
    dsimp only
    split
    · refine spends_same (pace_refl _) ?_ (Nat.le_refl _)
      simp only [owed, List.count_append, List.count_singleton_self]
      omega
    · exact .refl s
  | stop =>
    dsimp only
    split
    · exact spends_same (pace_stop _) (Nat.le_refl _) (Nat.le_refl _)
    · exact .refl s
  | stopElsewhere => exact spends_same (pace_disconnected _) (Nat.le_refl _) (Nat.le_refl _)
  | queueStop starts =>
    dsimp only
    split
    · refine spends_same (pace_refl _) ?_ (Nat.le_refl _)
      simp [owed]
    · exact .refl s
  | runFunc errno =>
    -- a closure that starts was owed for
    dsimp only
    split
    · exact .refl s
    · rename_i f funcs hfuncs
      split
      · cases f with
        | startInLoop =>
          refine spends_start s.conn.connect errno rfl ?_ (Nat.le_refl _)
          simp only [owed, hfuncs, call, List.count_cons_self]
          omega
        | removeAndResetChannel starts =>
          refine spends_same (.of_same rfl rfl (Nat.le_refl _) (Nat.le_refl _)) ?_ (Nat.le_refl _)
          simp [owed, hfuncs, call]
      · exact .refl s
  | retryTimer errno =>
    -- a timer that fires pays for one attempt
    dsimp only
    split
    · refine spends_start s.conn.connect errno rfl ?_ (Nat.le_refl _)
      show 1 + s.owed + s.starts + s.fired ≤ s.owed + s.starts + (s.fired + 1)
      omega
    · exact .refl s
  | callback report stops =>
    dsimp only
    split
    · exact .refl s
    · exact spends_same (pace_runCallback _ report stops _) (Nat.le_refl _) (Nat.le_refl _)
  | destroy =>
    dsimp only
    split
    · exact spends_same (pace_destroy _) (Nat.le_refl _) (Nat.le_refl _)
    · exact .refl s
  | poll | event =>
    dsimp only
    split
    · exact spends_same (pace_refl _) (Nat.le_refl _) (Nat.le_refl _)
    · exact .refl s

/-! ## The clock -/

/-- A connector with the time, in milliseconds, and the times that the timers are due at. -/
structure Clocked where
  calls : ConnectorCalls
  now : Nat
  due : List Nat

namespace Clocked

def new (retry : Bool) : Clocked := ⟨.new retry, 0, []⟩

/-- A timer does not fire before it is due. -/
def blocks (s : Clocked) (now : Nat) (a : Act) : Bool :=
  a.fires && !(s.due[s.calls.fired]?).any fun time => decide (time ≤ now)

/-- After `a.1` milliseconds. -/
def step (s : Clocked) (a : Nat × Act) : Clocked :=
  let now := s.now + a.1
  if s.blocks now a.2 then { s with now := now }
  else
    let calls := s.calls.step a.2
    { calls := calls
      now := now
      due := s.due ++
        (calls.conn.scheduled.drop s.calls.conn.scheduled.length).map fun delay => now + delay }

/-- How long the first `n` retries have to wait, one after the other. -/
def waited (n : Nat) : Nat := ∑ i ∈ Finset.range n, retryDelay i

/-- The delays grow as they should, and bound the attempts. -/
structure Backoff (s : Clocked) : Prop where
  delays : s.calls.conn.scheduled
    = (List.range s.calls.conn.scheduled.length).map retryDelay
  sockets : s.calls.conn.sockets.length ≤ s.calls.starts + s.calls.fired
  waits : s.calls.starts ≤ 1 → waited s.calls.fired ≤ s.now

/-- The invariant. -/
structure Counted (s : Clocked) : Prop where
  paced : s.calls.conn.Paced
  paid : s.calls.conn.sockets.length + s.calls.owed ≤ s.calls.starts + s.calls.fired
  attempts : s.calls.conn.scheduled.length + s.calls.conn.pending
    ≤ s.calls.conn.sockets.length
  length : s.due.length = s.calls.conn.scheduled.length
  fired_le : s.calls.fired ≤ s.due.length
  fired_due : ∀ i < s.calls.fired, ∀ time, s.due[i]? = some time → time ≤ s.now
  late : s.calls.starts ≤ 1 → ∀ i time, s.due[i]? = some time → waited (i + 1) ≤ time

theorem counted_new (retry : Bool) : (new retry).Counted where
  paced := ⟨rfl, rfl⟩
  paid := Nat.le_refl 0
  attempts := Nat.le_refl 0
  length := rfl
  fired_le := Nat.le_refl 0
  fired_due := by rintro i ⟨⟩
  late := by rintro - i time ⟨⟩

variable {c : Clocked}

theorem Counted.waited_le (h : c.Counted) (hone : c.calls.starts ≤ 1) {n : Nat}
    (hn : n ≤ c.calls.fired) : waited n ≤ c.now := by
  cases n with
  | zero => exact Nat.zero_le _
  | succ n =>
    have hlt : n < c.due.length := Nat.lt_of_lt_of_le hn h.fired_le
    have hget : c.due[n]? = some c.due[n] := List.getElem?_eq_getElem hlt
    exact Nat.le_trans (h.late hone n _ hget) (h.fired_due n hn _ hget)

theorem Counted.backoff (h : c.Counted) : c.Backoff where
  delays := h.paced.scheduled
  sockets := Nat.le_trans (Nat.le_add_right _ _) h.paid
  waits hone := h.waited_le hone (Nat.le_refl _)

/-- Time passes. -/
theorem Counted.later (h : c.Counted) {now : Nat} (hle : c.now ≤ now) :
    Counted { c with now := now } :=
  ⟨h.paced, h.paid, h.attempts, h.length, h.fired_le,
    fun i hi time ht => Nat.le_trans (h.fired_due i hi time ht) hle, h.late⟩

/-- The timer that fires is due. -/
theorem fired_due_step (h : c.Counted) {a : Act} (hfree : c.blocks c.now a = false) :
    ∀ i < (c.calls.step a).fired, ∀ time, c.due[i]? = some time → time ≤ c.now := by
  intro i hi time ht
  rcases fired_step c.calls a with hsame | ⟨hfires, hmore, -⟩
  · rw [hsame] at hi
    exact h.fired_due i hi time ht
  · rw [hmore] at hi
    rcases Nat.lt_succ_iff_lt_or_eq.mp hi with hlt | rfl
    · exact h.fired_due i hlt time ht
    · simpa [blocks, hfires, ht] using hfree

theorem counted_act (h : c.Counted) {a : Act} (hfree : c.blocks c.now a = false) :
    Counted
      { calls := c.calls.step a
        now := c.now
        due := c.due ++ ((c.calls.step a).conn.scheduled.drop c.calls.conn.scheduled.length).map
          fun delay => c.now + delay } := by
  -- what the call may spend, and the timers it sets
  have hspends := spends_step c.calls a
  have hpaced := hspends.paced h.paced
  have hpaid := h.paid
  have hattempts := h.attempts
  have hsockets := hspends.sockets
  have htotal := hspends.attempts
  have hstarts := hspends.starts
  have hdue := fired_due_step h hfree
  have hlength := h.length
  have hfiredLe := h.fired_le
  obtain ⟨delays, hdelays, hone⟩ := hspends.scheduled
  have hdrop : (c.calls.step a).conn.scheduled.drop c.calls.conn.scheduled.length = delays := by
    rw [hdelays, List.drop_left]
  have hlen : (c.calls.step a).conn.scheduled.length
      = c.calls.conn.scheduled.length + delays.length := by
    rw [hdelays, List.length_append]
  -- the timers due from before come first in the list
  rw [hdrop]
  -- the old ones are where they were
  have hold : ∀ i time, i < c.due.length →
      (c.due ++ delays.map fun delay => c.now + delay)[i]? = some time → c.due[i]? = some time :=
    fun i time hi ht => by rwa [List.getElem?_append_left hi] at ht
  have hfired : (c.calls.step a).fired ≤ c.due.length := by
    rcases fired_step c.calls a with hsame | ⟨-, hmore, hlt⟩ <;> omega
  have hpaid' : (c.calls.step a).conn.sockets.length + (c.calls.step a).owed
      ≤ (c.calls.step a).starts + (c.calls.step a).fired := by omega
  have hattempts' : (c.calls.step a).conn.scheduled.length + (c.calls.step a).conn.pending
      ≤ (c.calls.step a).conn.sockets.length := by omega
  refine ⟨hpaced, hpaid', hattempts', ?_, ?_, ?_, ?_⟩
  · rw [List.length_append, List.length_map]
    dsimp only
    omega
  · rw [List.length_append]
    exact Nat.le_trans hfired (Nat.le_add_right _ _)
  · intro i hi time ht
    exact hdue i hi time (hold i time (Nat.lt_of_lt_of_le hi hfired) ht)
  · intro hfew i time ht
    have hfew' : c.calls.starts ≤ 1 := Nat.le_trans hstarts hfew
    by_cases hi : i < c.due.length
    · exact h.late hfew' i time (hold i time hi ht)
    · -- the timer is new: all timers before it have fired
      rw [List.getElem?_append_right (by omega), List.getElem?_map] at ht
      obtain ⟨delay, hdelay, rfl⟩ := Option.map_eq_some_iff.mp ht
      have hin : i - c.due.length < delays.length := (List.getElem?_eq_some_iff.mp hdelay).1
      have hi' : i = c.calls.conn.scheduled.length := by omega
      have hnext : delay = retryDelay i := by
        have hget : (c.calls.step a).conn.scheduled[i]? = some delay := by
          rw [hdelays, List.getElem?_append_right (by omega), ← hlength]
          exact hdelay
        rw [hpaced.scheduled, List.getElem?_map, List.getElem?_range (by omega)] at hget
        exact (Option.some.inj hget).symm
      have hwait : waited i ≤ c.now := by
        have hall : i ≤ (c.calls.step a).fired := by
          dsimp only at hfew
          omega
        cases i with
        | zero => exact Nat.zero_le _
        | succ n =>
          have hget : c.due[n]? = some c.due[n] := List.getElem?_eq_getElem (by omega)
          exact Nat.le_trans (h.late hfew' n _ hget) (hdue n hall _ hget)
      rw [waited, Finset.sum_range_succ, hnext]
      exact Nat.add_le_add_right hwait _

theorem counted_step (h : c.Counted) (a : Nat × Act) : (c.step a).Counted := by
  have hlater := h.later (Nat.le_add_right c.now a.1)
  unfold step
  dsimp only
  split
  · exact hlater
  · rename_i hfree
    exact counted_act hlater (Bool.eq_false_iff.mpr hfree)

/-- **Backoff.** However `start`, `stop`, the events of the sockets and the timers follow one
another, the retries are scheduled with the doubled delays, there are no more attempts than calls
of `start` and timers that fired, and after one call of `start` the timers took the sum of their
delays. -/
theorem always_backoff (retry : Bool) (as : List (Nat × Act)) :
    Runs.Always step Backoff (new retry) as :=
  (Runs.always_of_step (I := Counted) (fun _ a h => counted_step h a) (counted_new retry) as).mono
    fun _ h => h.backoff

/-- Two refused attempts; the second timer has to wait for a second. -/
example :
    let s := Runs.run step (new true) [(0, .start .ECONNREFUSED), (499, .retryTimer .ECONNREFUSED),
      (1, .retryTimer .ECONNREFUSED), (999, .retryTimer .ok), (1, .retryTimer .ok)]
    s.due = [500, 1500] ∧ s.calls.fired = 2 ∧ s.calls.conn.sockets.length = 3 := by
  decide +kernel

end Clocked

end ConnectorCalls

end XiaoNet
