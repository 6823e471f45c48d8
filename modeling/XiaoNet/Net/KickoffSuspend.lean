import Mathlib.Data.Nat.Basic
import XiaoNet.Net.ConnectionFrame

/-!
# Suspending the idle kick-off

An async stream that is opened with `disableKickoff` saves `idleTimeout_` in
`idleTimeoutBackup_` and every stream that is closed, also one opened without
`disableKickoff`, restores it. One saved value stands for any number of streams.

- `Kick`: what a step does to the kick-off. Other threads open and close streams too: their
  closures do it when the loop runs them.
- `Suspension`: a connection, the timeout that is configured and the streams that are
  open and were opened with `disableKickoff`.
- `Armed`: the timeout is armed exactly when it should be.
- `Tidy s kick`: the step does not hit a value saved for another stream, nor an entry that
  `kickoffEntry_` no longer points to. `armed_iff_tidy`: over whole runs.
-/

namespace XiaoNet

namespace Kickoff

/-- Entry `i` can still kick the connection off. -/
def liveAt (k : Kickoff) (i : Nat) : Bool :=
  (k.entries[i]?).any fun e => e.conn && !e.destroyed

/-- A live entry is in the wheel. -/
def Live (k : Kickoff) : Prop := ∃ i, i < k.entries.length ∧ k.liveAt i = true

/-- No entry is live but the one `kickoffEntry_` points to. -/
def Sole (k : Kickoff) : Prop :=
  ∀ i, i < k.entries.length → k.liveAt i = true → k.kickoffEntry = some i

instance (k : Kickoff) : Decidable k.Live :=
  inferInstanceAs (Decidable (∃ i, i < k.entries.length ∧ k.liveAt i = true))

instance (k : Kickoff) : Decidable k.Sole :=
  inferInstanceAs (Decidable (∀ i, i < k.entries.length → _ → _))

/-- No entry has expired, `kickoffEntry_` points to one of them, and a saved timeout has
a wheel. -/
structure Sound (k : Kickoff) : Prop where
  entries : ∀ e ∈ k.entries, e.destroyed = false
  points : ∀ i, k.kickoffEntry = some i → i < k.entries.length
  wheel : k.idleTimeout > 0 ∨ k.idleTimeoutBackup > 0 → k.timingWheel = true

variable {k : Kickoff}

theorem lt_of_liveAt {i : Nat} (h : k.liveAt i = true) : i < k.entries.length := by
  by_contra hge
  rw [liveAt, List.getElem?_eq_none (Nat.not_lt.mp hge)] at h
  cases h

theorem live_iff : k.Live ↔ ∃ i, k.liveAt i = true := by
  constructor
  · rintro ⟨i, -, hi⟩
    exact ⟨i, hi⟩
  · rintro ⟨i, hi⟩
    exact ⟨i, lt_of_liveAt hi, hi⟩

theorem Sound.lock_eq (h : k.Sound) : k.lock = k.kickoffEntry := by
  unfold lock
  cases hentry : k.kickoffEntry with
  | none => rfl
  | some i =>
    have hi := h.points i hentry
    have hdead := h.entries k.entries[i] (List.getElem_mem hi)
    simp [List.getElem?_eq_getElem hi, hdead]

theorem liveAt_resetEntry (i j : Nat) :
    (k.resetEntry i).liveAt j = (k.liveAt j && decide (j ≠ i)) := by
  unfold liveAt resetEntry
  rw [List.getElem?_modify]
  by_cases hij : i = j
  · subst hij
    cases k.entries[i]? <;> simp
  · have hji : j ≠ i := Ne.symm hij
    cases k.entries[j]? <;> simp [hij, hji]

theorem length_resetEntry (i : Nat) :
    (k.resetEntry i).entries.length = k.entries.length := by
  rw [resetEntry, List.length_modify]

theorem liveAt_newEntry (delay : Nat) : (k.newEntry delay).liveAt k.entries.length = true := by
  simp [liveAt, newEntry]

theorem Sound.newEntry (h : k.Sound) (delay : Nat) :
    (∀ e ∈ (k.newEntry delay).entries, e.destroyed = false) ∧
      ∀ i, (k.newEntry delay).kickoffEntry = some i →
        i < (k.newEntry delay).entries.length := by
  constructor
  · intro e he
    rcases List.mem_append.mp he with hold | hnew
    · exact h.entries e hold
    · rw [List.mem_singleton.mp hnew]
  · intro i hi
    cases hi
    simp [Kickoff.newEntry]

theorem Sound.resetEntry (h : k.Sound) (i : Nat) :
    ∀ e ∈ (k.resetEntry i).entries, e.destroyed = false := by
  intro e he
  obtain ⟨j, hj⟩ := List.mem_iff_getElem?.mp he
  rw [Kickoff.resetEntry, List.getElem?_modify] at hj
  cases hold : k.entries[j]? with
  | none =>
    rw [hold] at hj
    cases hj
  | some e' =>
    have hdead := h.entries e' (List.mem_of_getElem? hold)
    rw [hold] at hj
    by_cases hij : i = j
    · simp only [hij, if_true, Option.map_eq_map, Option.map_some, Option.some.injEq] at hj
      rw [← hj]
      exact hdead
    · simp only [hij, if_false, Option.map_eq_map, Option.map_some, Option.some.injEq] at hj
      rw [← hj]
      exact hdead

/-- The entry `kickoffEntry_` points to is reset. -/
def released (k : Kickoff) : Kickoff :=
  match k.kickoffEntry with
  | some i => k.resetEntry i
  | none => k

theorem released_some {i : Nat} (h : k.kickoffEntry = some i) : k.released = k.resetEntry i := by
  rw [released, h]

theorem released_none (h : k.kickoffEntry = none) : k.released = k := by
  rw [released, h]

theorem Sound.released (h : k.Sound) : ∀ e ∈ k.released.entries, e.destroyed = false := by
  cases hentry : k.kickoffEntry with
  | none =>
    rw [released_none hentry]
    exact h.entries
  | some i =>
    rw [released_some hentry]
    exact h.resetEntry i

theorem length_released : k.released.entries.length = k.entries.length := by
  cases hentry : k.kickoffEntry with
  | none => rw [released_none hentry]
  | some i => rw [released_some hentry, length_resetEntry]

/-- After the reset the entries are dead exactly when no other was live. -/
theorem live_released_iff : k.released.Live ↔ ¬ k.Sole := by
  rw [live_iff]
  unfold Sole
  cases hentry : k.kickoffEntry with
  | none =>
    rw [released_none hentry]
    constructor
    · rintro ⟨i, hi⟩ hsole
      exact nomatch hsole i (lt_of_liveAt hi) hi
    · intro hnot
      by_contra hdead
      exact hnot fun i _ hi => absurd ⟨i, hi⟩ hdead
  | some j =>
    rw [released_some hentry]
    constructor
    · rintro ⟨i, hi⟩ hsole
      rw [liveAt_resetEntry, Bool.and_eq_true, decide_eq_true_iff] at hi
      exact hi.2 (Option.some.inj (hsole i (lt_of_liveAt hi.1) hi.1)).symm
    · intro hnot
      by_contra hdead
      refine hnot fun i _ hi => ?_
      by_contra hne
      refine hdead ⟨i, ?_⟩
      rw [liveAt_resetEntry, hi, Bool.true_and, decide_eq_true_iff]
      exact fun hij => hne (congrArg some hij.symm)

theorem Sound.keepAlive_eq (h : k.Sound) :
    k.keepAlive = { k.released with idleTimeout := 0 } := by
  have hlock : ({ k with idleTimeout := 0 } : Kickoff).lock = k.kickoffEntry := h.lock_eq
  unfold keepAlive
  dsimp only
  rw [hlock]
  split
  · rename_i i hi
    rw [released_some hi]
    rfl
  · rename_i hnone
    rw [released_none hnone]

theorem Sound.disableKickoff_eq (h : k.Sound) :
    k.disableKickoff = { k.released with
      kickoffEntry := none
      idleTimeoutBackup := k.idleTimeout
      idleTimeout := 0 } := by
  unfold disableKickoff
  rw [h.lock_eq]
  split
  · rename_i i hi
    rw [released_some hi]
    rfl
  · rename_i hnone
    rw [released_none hnone]
    dsimp only
    rw [hnone]

/-! ## Each function -/

theorem Sound.keepAlive (h : k.Sound) : k.keepAlive.Sound := by
  rw [h.keepAlive_eq]
  refine ⟨h.released, fun i hi => ?_, fun hpos => ?_⟩
  · show i < k.released.entries.length
    rw [length_released]
    refine h.points i ?_
    rw [← hi]
    show k.kickoffEntry = k.released.kickoffEntry
    unfold Kickoff.released
    split <;> rfl
  · have hwheel : k.released.timingWheel = k.timingWheel := by
      unfold Kickoff.released
      split <;> rfl
    have hbackup : k.released.idleTimeoutBackup = k.idleTimeoutBackup := by
      unfold Kickoff.released
      split <;> rfl
    show k.released.timingWheel = true
    rw [hwheel]
    refine h.wheel (.inr ?_)
    rw [← hbackup]
    exact hpos.resolve_left (Nat.lt_irrefl 0)

theorem Sound.disableKickoff (h : k.Sound) : k.disableKickoff.Sound := by
  rw [h.disableKickoff_eq]
  refine ⟨h.released, fun i hi => (nomatch hi), fun hpos => ?_⟩
  have hwheel : k.released.timingWheel = k.timingWheel := by
    unfold Kickoff.released
    split <;> rfl
  show k.released.timingWheel = true
  rw [hwheel]
  exact h.wheel (.inl (hpos.resolve_left (Nat.lt_irrefl 0)))

theorem Sound.enableKickingOff (h : k.Sound) (timeout : Nat) :
    (k.enableKickingOff timeout).Sound :=
  ⟨(h.newEntry timeout).1, (h.newEntry timeout).2, fun _ => rfl⟩

theorem live_enableKickingOff (timeout : Nat) : (k.enableKickingOff timeout).Live :=
  live_iff.mpr ⟨k.entries.length, liveAt_newEntry timeout⟩

theorem Sound.restoreKickoff_eq (h : k.Sound) :
    k.restoreKickoff =
      if k.idleTimeoutBackup > 0 then
        { k.newEntry k.idleTimeoutBackup with
          idleTimeout := k.idleTimeoutBackup
          idleTimeoutBackup := 0 }
      else k := by
  unfold restoreKickoff
  split
  · rename_i hpos
    rw [if_pos (h.wheel (.inr hpos))]
  · rfl

theorem Sound.restoreKickoff (h : k.Sound) : k.restoreKickoff.Sound := by
  rw [h.restoreKickoff_eq]
  split
  · rename_i hpos
    exact ⟨(h.newEntry k.idleTimeoutBackup).1, (h.newEntry k.idleTimeoutBackup).2,
      fun _ => h.wheel (.inr hpos)⟩
  · exact h

end Kickoff

namespace TcpConnectionImpl

/-- What changes the kick-off of a connection, without reads, writes and expiry. -/
def Op.kicks : Op → Bool
  | .enableKickingOff timeout => 0 < timeout
  | .keepAlive | .sendAsyncStream _ _ | .asyncClose _ _ | .runFunc => true
  | _ => false

/-- What a step does to the kick-off. A stream is opened, and closed, when the code for it runs in
the loop thread. -/
inductive Kick where
  | enable (timeout : Nat)
  | keepAlive
  | opens (id : NodeId) (disableKickoff : Bool)
  | closes (id : NodeId)
  | nothing
  deriving DecidableEq, Repr

/-- What a queued closure does. -/
def Func.kick : Func → Kick
  | .sendAsyncStream id disableKickoff => .opens id disableKickoff
  | .sendAsyncData id none => .closes id
  | _ => .nothing

def kick (c : TcpConnectionImpl) : Op → Kick
  | .enableKickingOff timeout => .enable timeout
  | .keepAlive => .keepAlive
  | .sendAsyncStream true disableKickoff => .opens c.nextNode disableKickoff
  | .asyncClose true id => if id ∈ c.streams then .closes id else .nothing
  | .runFunc =>
    match c.funcs with
    | [] => .nothing
    | f :: _ => Func.kick f
  | _ => .nothing

/-- The members after it. -/
def Kick.apply (k : Kickoff) : Kick → Kickoff
  | .enable timeout => k.enableKickingOff timeout
  | .keepAlive => k.keepAlive
  | .opens _ true => k.disableKickoff
  | .closes _ => k.restoreKickoff
  | .opens _ false | .nothing => k

theorem Kick.sound_apply {k : Kickoff} (h : k.Sound) (kick : Kick) : (kick.apply k).Sound := by
  cases kick with
  | enable timeout => exact h.enableKickingOff timeout
  | keepAlive => exact h.keepAlive
  | opens id disableKickoff =>
    cases disableKickoff with
    | true => exact h.disableKickoff
    | false => exact h
  | closes id => exact h.restoreKickoff
  | nothing => exact h

/-! ## What the operations do -/

/-- The connection goes on, and its closures open and close streams. Nothing was sent on these. -/
structure Steady (c : TcpConnectionImpl) : Prop where
  running : c.failed = false
  connected : c.status = .connected
  funcs : ∀ f ∈ c.funcs, Func.kick f ≠ .nothing
  empty : ∀ id, c.remainingBytes id = 0

variable {c c' : TcpConnectionImpl}

/-- The nodes and the closures stay, and the connection goes on. -/
theorem Steady.of_kept (h : c.Steady) (hk : Kept c c') (hnodes : ∀ id, c'.remainingBytes id = 0) :
    c'.Steady where
  running := hk.failed_eq.trans h.running
  connected := hk.status_eq.trans h.connected
  funcs := by
    rw [hk.funcs_eq]
    exact h.funcs
  empty := hnodes

theorem Steady.queue (h : c.Steady) {f : Func} (hf : Func.kick f ≠ .nothing) :
    (c.queue f).Steady where
  running := h.running
  connected := h.connected
  funcs := by
    intro g hg
    rcases List.mem_append.mp hg with hold | hnew
    · exact h.funcs g hold
    · rw [List.mem_singleton.mp hnew]
      exact hf
  empty := h.empty

/-- A node is made, and nothing is in it. -/
theorem Steady.newStream (h : c.Steady) : c.newStream.Steady := by
  refine ⟨h.running, h.connected, h.funcs, fun id => ?_⟩
  show ((c.newNode (.data .newAsyncStreamBufferNode)).nodes id).remainingBytes = 0
  by_cases hid : id = c.nextNode
  · rw [hid, nodes_newNode_self]
    rfl
  · show (Function.update c.nodes c.nextNode _ id).remainingBytes = 0
    rw [Function.update_of_ne hid]
    exact h.empty id

theorem remainingBytes_done {node : BufferNode} (h : node.remainingBytes = 0) :
    node.done.remainingBytes = 0 := by
  cases node with
  | file f => rfl
  | data d =>
    cases d with
    | mem isDone buffer => rfl
    | stream isDone callback calls buffer => rfl
    | async isDone msgBufferPtr => exact h

/-- The close of a stream, in the loop thread. -/
theorem Steady.close (h : c.Steady) (rs : List SysRet) (id : NodeId) :
    (c.sendAsyncDataInLoop rs id none).Steady := by
  refine h.of_kept (kept_sendAsyncDataInLoop rs id none) fun j => ?_
  have hnodes : (c.sendAsyncDataInLoop rs id none).nodes
      = Function.update c.nodes id (c.nodes id).done := by
    rw [sendAsyncData_close, closeNode]
    split <;> rfl
  unfold remainingBytes
  rw [hnodes]
  by_cases hj : j = id
  · rw [hj, Function.update_self]
    exact remainingBytes_done (h.empty id)
  · rw [Function.update_of_ne hj]
    exact h.empty j

/-- The closure that opens a stream finds nothing in its node and puts it at the end. -/
theorem sendAsyncStreamQueued_empty {id : NodeId} (hempty : c.remainingBytes id = 0)
    (rs : List SysRet) (disableKickoff : Bool) :
    c.sendAsyncStreamQueued rs id disableKickoff = c.sendAsyncStreamInLoop id disableKickoff := by
  have hnot : ∀ c' : TcpConnectionImpl, c'.remainingBytes id = 0 →
      ¬ (c'.writeBufferList = [] ∧ c'.remainingBytes id > 0) := by
    intro c' hzero hcond
    rw [hzero] at hcond
    exact absurd hcond.2 (lt_irrefl 0)
  rw [sendAsyncStreamQueued_eq]
  cases disableKickoff with
  | true => exact if_neg (hnot c.disableKickoff hempty)
  | false => exact if_neg (hnot c hempty)

theorem Steady.open (h : c.Steady) (id : NodeId) (disableKickoff : Bool) :
    (c.sendAsyncStreamInLoop id disableKickoff).Steady ∧
      (c.sendAsyncStreamInLoop id disableKickoff).kickoff
        = (Kick.opens id disableKickoff).apply c.kickoff := by
  cases disableKickoff with
  | true => exact ⟨⟨h.running, h.connected, h.funcs, h.empty⟩, rfl⟩
  | false => exact ⟨⟨h.running, h.connected, h.funcs, h.empty⟩, rfl⟩

theorem Steady.asyncClose (h : c.Steady) (rs : List SysRet) (inLoop : Bool) (id : NodeId) :
    (c.step (.asyncClose inLoop id, rs)).Steady ∧
      (c.step (.asyncClose inLoop id, rs)).kickoff
        = (c.kick (.asyncClose inLoop id)).apply c.kickoff := by
  rw [step_asyncClose rs inLoop h.running]
  by_cases hid : id ∈ c.streams
  · rw [if_pos hid, streamCallback, if_neg (not_not_intro h.connected)]
    cases inLoop with
    | true =>
      -- the stream is forgotten at once
      have hclose := h.close rs id
      refine ⟨⟨hclose.running, hclose.connected, hclose.funcs, hclose.empty⟩, ?_⟩
      show (c.sendAsyncDataInLoop rs id none).kickoff = Kick.apply c.kickoff (if id ∈ c.streams then
        .closes id else .nothing)
      rw [sendAsyncData_close, if_pos hid]
      rfl
    | false =>
      -- its closure is queued, and nothing happens to the kick-off yet
      have hqueue := h.queue (f := .sendAsyncData id none) nofun
      exact ⟨⟨hqueue.running, hqueue.connected, hqueue.funcs, hqueue.empty⟩, rfl⟩
  · rw [if_neg hid]
    refine ⟨h, ?_⟩
    cases inLoop with
    | true =>
      show c.kickoff = Kick.apply c.kickoff (if id ∈ c.streams then .closes id else .nothing)
      rw [if_neg hid]
      rfl
    | false => rfl

/-- The loop runs the next closure. -/
theorem Steady.runFunc (h : c.Steady) (rs : List SysRet) :
    (c.step (.runFunc, rs)).Steady ∧
      (c.step (.runFunc, rs)).kickoff = (c.kick .runFunc).apply c.kickoff := by
  cases hfuncs : c.funcs with
  | nil =>
    rw [step_runFunc_nil rs h.running hfuncs, kick, hfuncs]
    exact ⟨h, rfl⟩
  | cons f fs =>
    have hrest : ({ c with funcs := fs }).Steady :=
      ⟨h.running, h.connected,
        fun g hg => h.funcs g (by rw [hfuncs]; exact List.mem_cons_of_mem f hg), h.empty⟩
    have hkick := h.funcs f (by rw [hfuncs]; exact List.mem_cons_self)
    rw [step_runFunc_cons rs h.running hfuncs, kick, hfuncs]
    -- only openings and closes wait in the queue of a steady connection
    cases f with
    | sendAsyncStream id disableKickoff =>
      have hopen := hrest.open id disableKickoff
      show (({ c with funcs := fs }).sendAsyncStreamQueued rs id disableKickoff).Steady ∧
        (({ c with funcs := fs }).sendAsyncStreamQueued rs id disableKickoff).kickoff = _
      rw [sendAsyncStreamQueued_empty (hrest.empty id)]
      exact hopen
    | sendAsyncData id data =>
      cases data with
      | none =>
        refine ⟨hrest.close rs id, ?_⟩
        show (({ c with funcs := fs }).sendAsyncDataInLoop rs id none).kickoff = _
        rw [sendAsyncData_close]
        rfl
      | some data => exact absurd rfl hkick
    | _ => exact absurd rfl hkick

/-- **Each operation** does to the kick-off what `kick` says of it. -/
theorem Steady.step (h : c.Steady) {op : Op} (hop : op.kicks = true) (rs : List SysRet) :
    (c.step (op, rs)).Steady ∧ (c.step (op, rs)).kickoff = (c.kick op).apply c.kickoff := by
  cases op with
  | enableKickingOff timeout =>
    rw [step_enableKickingOff rs h.running, if_pos (of_decide_eq_true hop)]
    exact ⟨⟨h.running, h.connected, h.funcs, h.empty⟩, rfl⟩
  | keepAlive =>
    rw [step_keepAlive rs h.running]
    exact ⟨⟨h.running, h.connected, h.funcs, h.empty⟩, rfl⟩
  | sendAsyncStream inLoop disableKickoff =>
    rw [step_sendAsyncStream rs inLoop h.running]
    cases inLoop with
    | true => exact h.newStream.open c.nextNode disableKickoff
    | false => exact ⟨h.newStream.queue nofun, rfl⟩
  | asyncClose inLoop id => exact h.asyncClose rs inLoop id
  | runFunc => exact h.runFunc rs
  | _ => cases hop

/-! ## Streams that suspend -/

/-- A connection, the timeout configured since the last `keepAlive`, the streams that are open and
were opened with `disableKickoff`, and those that were closed. -/
structure Suspension where
  conn : TcpConnectionImpl
  configured : Option Nat
  suspended : List NodeId
  closed : List NodeId

namespace Suspension

def start (highWaterMark : Option Nat) : Suspension :=
  ⟨established highWaterMark .new, none, [], []⟩

/-- After a step that does `kick` and leaves `conn`. The closure that opens a stream may come after
its close, when the latter is a call in the loop thread: then the stream is not open. -/
def after (s : Suspension) (conn : TcpConnectionImpl) : Kick → Suspension
  | .enable timeout => { s with conn := conn, configured := some timeout }
  | .keepAlive => { s with conn := conn, configured := none }
  | .opens id true =>
    { s with
      conn := conn
      suspended := if id ∈ s.closed then s.suspended else s.suspended ++ [id] }
  | .closes id =>
    { s with
      conn := conn
      suspended := s.suspended.filter (· ≠ id)
      closed := s.closed ++ [id] }
  | .opens _ false | .nothing => { s with conn := conn }

def step (s : Suspension) (a : Op × List SysRet) : Suspension :=
  s.after (s.conn.step a) (s.conn.kick a.1)

/-- The timeout that should be armed. -/
def due (s : Suspension) : Option Nat := if s.suspended = [] then s.configured else none

/-- The kick-off is armed when it should be and with the timeout configured, else it is
not. -/
def Armed (s : Suspension) : Prop :=
  match s.due with
  | some timeout => s.conn.kickoff.idleTimeout = timeout ∧ s.conn.kickoff.Live
  | none => s.conn.kickoff.idleTimeout = 0 ∧ ¬ s.conn.kickoff.Live

/-- What the step needs of the state to keep the kick-off armed as it should be. -/
def Tidy (s : Suspension) : Kick → Prop
  | .enable _ => s.suspended = []
  | .keepAlive => s.conn.kickoff.Sole
  | .opens id true => (id ∈ s.closed → s.due = none) ∧ s.conn.kickoff.Sole
  | .closes id =>
    if s.conn.kickoff.idleTimeoutBackup > 0 then
      s.configured = some s.conn.kickoff.idleTimeoutBackup ∧ s.suspended.filter (· ≠ id) = []
    else s.configured.isSome = true → s.suspended.filter (· ≠ id) = [] → s.suspended = []
  | .opens _ false | .nothing => True

instance (s : Suspension) : Decidable s.Armed := by
  unfold Armed
  split <;> infer_instance

instance (s : Suspension) : (kick : Kick) → Decidable (s.Tidy kick)
  | .enable _ => inferInstanceAs (Decidable (_ = _))
  | .keepAlive => inferInstanceAs (Decidable (Kickoff.Sole _))
  | .opens _ true => inferInstanceAs (Decidable (_ ∧ _))
  | .closes _ => by
    unfold Tidy
    infer_instance
  | .opens _ false | .nothing => inferInstanceAs (Decidable True)

/-- What holds besides. -/
structure Good (s : Suspension) : Prop where
  steady : s.conn.Steady
  sound : s.conn.kickoff.Sound
  positive : ∀ timeout, s.configured = some timeout → 0 < timeout

variable {s : Suspension}

theorem armed_of_due {timeout : Nat} (h : s.due = some timeout) :
    s.Armed ↔ s.conn.kickoff.idleTimeout = timeout ∧ s.conn.kickoff.Live := by
  rw [Armed, h]

theorem armed_of_not_due (h : s.due = none) :
    s.Armed ↔ s.conn.kickoff.idleTimeout = 0 ∧ ¬ s.conn.kickoff.Live := by
  rw [Armed, h]

theorem due_of_suspended (h : s.suspended ≠ []) : s.due = none := if_neg h

theorem due_of_not_suspended (h : s.suspended = []) : s.due = s.configured := if_pos h

theorem not_suspended_of_due {timeout : Nat} (h : s.due = some timeout) : s.suspended = [] := by
  by_contra hne
  rw [due_of_suspended hne] at h
  cases h

theorem Good.due_pos (h : s.Good) {timeout : Nat} (hdue : s.due = some timeout) : 0 < timeout := by
  refine h.positive timeout ?_
  rw [← due_of_not_suspended (not_suspended_of_due hdue)]
  exact hdue

/-! ## The kick-off after each of them -/

/-- The kick-off is disarmed exactly when no entry was left alive. -/
theorem disarmed_iff {k : Kickoff} {idleTimeout : Nat} (hzero : idleTimeout = 0)
    (hlive : k.Live ↔ ¬ s.conn.kickoff.Sole) :
    (idleTimeout = 0 ∧ ¬ k.Live) ↔ s.conn.kickoff.Sole := by
  rw [hlive, not_not]
  exact and_iff_right hzero

variable {conn : TcpConnectionImpl}

theorem armed_enable_iff {timeout : Nat} (hpos : 0 < timeout)
    (hconn : conn.kickoff = s.conn.kickoff.enableKickingOff timeout) :
    (s.after conn (.enable timeout)).Armed ↔ s.Tidy (.enable timeout) := by
  dsimp only [Tidy]
  by_cases hsus : s.suspended = []
  · have hdue : (s.after conn (.enable timeout)).due = some timeout := due_of_not_suspended hsus
    rw [armed_of_due hdue]
    show conn.kickoff.idleTimeout = timeout ∧ conn.kickoff.Live ↔ _
    rw [hconn]
    exact iff_of_true ⟨rfl, Kickoff.live_enableKickingOff timeout⟩ hsus
  · have hdue : (s.after conn (.enable timeout)).due = none := due_of_suspended hsus
    rw [armed_of_not_due hdue]
    show conn.kickoff.idleTimeout = 0 ∧ ¬ conn.kickoff.Live ↔ _
    rw [hconn]
    exact iff_of_false (fun hoff => Nat.ne_of_gt hpos hoff.1) hsus

theorem armed_keepAlive_iff (h : s.Good) (hconn : conn.kickoff = s.conn.kickoff.keepAlive) :
    (s.after conn .keepAlive).Armed ↔ s.Tidy .keepAlive := by
  have hdue : (s.after conn .keepAlive).due = none := by
    unfold due
    split <;> rfl
  rw [armed_of_not_due hdue]
  show conn.kickoff.idleTimeout = 0 ∧ ¬ conn.kickoff.Live ↔ _
  rw [hconn, h.sound.keepAlive_eq]
  exact disarmed_iff rfl Kickoff.live_released_iff

/-- A stream that was closed before it is opened leaves the timeout due, but disarmed. -/
theorem armed_opens_iff (h : s.Good) {id : NodeId}
    (hconn : conn.kickoff = s.conn.kickoff.disableKickoff) :
    (s.after conn (.opens id true)).Armed ↔ s.Tidy (.opens id true) := by
  -- whatever the stream is, the opening disarms the kick-off when its entry is the only one
  have hoff : conn.kickoff.idleTimeout = 0 ∧ ¬ conn.kickoff.Live ↔ s.conn.kickoff.Sole := by
    rw [hconn, h.sound.disableKickoff_eq]
    exact disarmed_iff rfl Kickoff.live_released_iff
  dsimp only [Tidy]
  -- a stream that is closed already suspends nothing, so a timeout that is due stays due
  by_cases hclosed : id ∈ s.closed
  · have hsus : (s.after conn (.opens id true)).suspended = s.suspended := if_pos hclosed
    have hdue : (s.after conn (.opens id true)).due = s.due := by
      unfold due
      rw [hsus]
      rfl
    cases hdue' : s.due with
    | none =>
      rw [armed_of_not_due (hdue.trans hdue')]
      exact hoff.trans (and_iff_right fun _ => rfl).symm
    | some timeout =>
      have hpos := h.due_pos hdue'
      rw [armed_of_due (hdue.trans hdue')]
      refine iff_of_false (fun hon => ?_) fun htidy => nomatch htidy.1 hclosed
      have hzero : conn.kickoff.idleTimeout = 0 := by
        rw [hconn, h.sound.disableKickoff_eq]
      have hon' : conn.kickoff.idleTimeout = timeout := hon.1
      omega
  · have hsus : (s.after conn (.opens id true)).suspended = s.suspended ++ [id] := if_neg hclosed
    have hdue : (s.after conn (.opens id true)).due = none :=
      due_of_suspended (by rw [hsus]; simp)
    rw [armed_of_not_due hdue]
    exact hoff.trans (and_iff_right fun hin => absurd hin hclosed).symm

/-- A close that finds a saved timeout makes an entry for it. -/
theorem armed_closes_saved_iff (h : s.Good) {id : NodeId}
    (hbackup : s.conn.kickoff.idleTimeoutBackup > 0)
    (hconn : conn.kickoff = s.conn.kickoff.restoreKickoff) :
    (s.after conn (.closes id)).Armed ↔
      s.configured = some s.conn.kickoff.idleTimeoutBackup ∧ s.suspended.filter (· ≠ id) = [] := by
  have hconn' := hconn
  rw [h.sound.restoreKickoff_eq, if_pos hbackup] at hconn'
  -- the saved timeout is armed, whatever is due
  have hlive : conn.kickoff.Live := by
    rw [hconn']
    exact Kickoff.live_iff.mpr ⟨_, Kickoff.liveAt_newEntry s.conn.kickoff.idleTimeoutBackup⟩
  have hidle : conn.kickoff.idleTimeout = s.conn.kickoff.idleTimeoutBackup := by rw [hconn']
  cases hdue : (s.after conn (.closes id)).due with
  | none =>
    rw [armed_of_not_due hdue]
    refine iff_of_false (fun hoff => hoff.2 hlive) fun hok => ?_
    have hsome : (s.after conn (.closes id)).due = s.configured := due_of_not_suspended hok.2
    rw [hsome, hok.1] at hdue
    cases hdue
  | some timeout =>
    have hnil : s.suspended.filter (· ≠ id) = [] := not_suspended_of_due hdue
    have hsome : (s.after conn (.closes id)).due = s.configured := due_of_not_suspended hnil
    rw [armed_of_due hdue]
    rw [hsome] at hdue
    rw [hdue]
    constructor
    · intro hon
      exact ⟨by rw [← hidle]; exact congrArg some hon.1.symm, hnil⟩
    · intro hok
      exact ⟨hidle.trans (Option.some.inj hok.1).symm, hlive⟩

/-- A close that finds none leaves the kick-off as it is. -/
theorem armed_closes_iff (h : s.Good) (ha : s.Armed) {id : NodeId}
    (hconn : conn.kickoff = s.conn.kickoff) :
    (s.after conn (.closes id)).Armed ↔
      (s.configured.isSome = true → s.suspended.filter (· ≠ id) = [] → s.suspended = []) := by
  by_cases hsus : s.suspended = []
  · -- the timeout that was due is due
    have hnil : s.suspended.filter (· ≠ id) = [] := by
      rw [hsus]
      rfl
    have hdue : (s.after conn (.closes id)).due = s.due :=
      (due_of_not_suspended hnil).trans (due_of_not_suspended hsus).symm
    refine iff_of_true ?_ fun _ _ => hsus
    unfold Armed at ha ⊢
    rw [hdue]
    show match s.due with
      | some timeout => conn.kickoff.idleTimeout = timeout ∧ conn.kickoff.Live
      | none => conn.kickoff.idleTimeout = 0 ∧ ¬ conn.kickoff.Live
    rw [hconn]
    exact ha
  · have hoff := (armed_of_not_due (due_of_suspended hsus)).mp ha
    cases hdue : (s.after conn (.closes id)).due with
    | none =>
      rw [armed_of_not_due hdue]
      have hoff' : conn.kickoff.idleTimeout = 0 ∧ ¬ conn.kickoff.Live := hconn ▸ hoff
      refine iff_of_true hoff' fun hsome hnil => ?_
      have hdue' : (s.after conn (.closes id)).due = s.configured := due_of_not_suspended hnil
      rw [← hdue', hdue] at hsome
      cases hsome
    | some timeout =>
      -- the last suspending stream is closed, and the configured timeout was not saved
      have hnil : s.suspended.filter (· ≠ id) = [] := not_suspended_of_due hdue
      have hdue' : (s.after conn (.closes id)).due = s.configured := due_of_not_suspended hnil
      rw [hdue'] at hdue
      have hpos := h.positive timeout hdue
      rw [armed_of_due (hdue'.trans hdue)]
      refine iff_of_false (fun hon => ?_) fun hok => hsus (hok (by rw [hdue]; rfl) hnil)
      have hidle : conn.kickoff.idleTimeout = timeout := hon.1
      rw [hconn, hoff.1] at hidle
      omega

/-- Nothing changes. -/
theorem armed_of_kickoff {s' : Suspension} (ha : s.Armed)
    (hconn : s'.conn.kickoff = s.conn.kickoff) (hdue : s'.due = s.due) : s'.Armed := by
  unfold Armed at ha ⊢
  rw [hdue, hconn]
  exact ha

/-- **One step** keeps the kick-off armed as it should be exactly when it is tidy. -/
theorem armed_after_iff (h : s.Good) (ha : s.Armed) {kick : Kick}
    (hpos : ∀ timeout, kick = .enable timeout → 0 < timeout)
    (hconn : conn.kickoff = kick.apply s.conn.kickoff) :
    (s.after conn kick).Armed ↔ s.Tidy kick := by
  cases kick with
  | enable timeout => exact armed_enable_iff (hpos timeout rfl) hconn
  | keepAlive => exact armed_keepAlive_iff h hconn
  | opens id disableKickoff =>
    cases disableKickoff with
    | true => exact armed_opens_iff h hconn
    | false => exact iff_of_true (armed_of_kickoff ha hconn rfl) trivial
  | closes id =>
    dsimp only [Tidy]
    split
    case isTrue hbackup => exact armed_closes_saved_iff h hbackup hconn
    case isFalse hbackup =>
      refine armed_closes_iff h ha (hconn.trans ?_)
      exact h.sound.restoreKickoff_eq.trans (if_neg hbackup)
  | nothing => exact iff_of_true (armed_of_kickoff ha hconn rfl) trivial

/-! ## Runs -/

/-- What a step that is asked for can configure. -/
theorem pos_of_kicks {op : Op} (hop : op.kicks = true) (c : TcpConnectionImpl) {timeout : Nat}
    (hkick : c.kick op = .enable timeout) : 0 < timeout := by
  cases op with
  | enableKickingOff timeout' =>
    cases hkick
    exact of_decide_eq_true hop
  | sendAsyncStream inLoop disableKickoff => cases inLoop <;> cases hkick
  | asyncClose inLoop id =>
    cases inLoop with
    | true =>
      simp only [kick] at hkick
      split at hkick <;> cases hkick
    | false => cases hkick
  | runFunc =>
    simp only [kick] at hkick
    split at hkick
    · cases hkick
    · rename_i f fs hfuncs
      cases f with
      | sendAsyncData id data => cases data <;> cases hkick
      | _ => cases hkick
  | _ => cases hkick

theorem good_step (h : s.Good) {op : Op} (hop : op.kicks = true) (rs : List SysRet) :
    (s.step (op, rs)).Good := by
  obtain ⟨hsteady, hkick⟩ := h.steady.step hop rs
  have hconn : (s.step (op, rs)).conn = s.conn.step (op, rs) := by
    unfold step after
    split <;> rfl
  refine ⟨hconn ▸ hsteady, ?_, fun timeout htimeout => ?_⟩
  · rw [hconn, hkick]
    exact Kick.sound_apply h.sound _
  · have hpos : ∀ t, s.conn.kick op = .enable t → 0 < t := fun _ => pos_of_kicks hop s.conn
    unfold step at htimeout
    generalize s.conn.kick op = kick at htimeout hpos
    cases kick with
    | enable t =>
      obtain rfl : t = timeout := Option.some.inj htimeout
      exact hpos t rfl
    | keepAlive => cases htimeout
    | opens id disableKickoff =>
      cases disableKickoff with
      | true => exact h.positive timeout htimeout
      | false => exact h.positive timeout htimeout
    | closes id => exact h.positive timeout htimeout
    | nothing => exact h.positive timeout htimeout

theorem armed_step_iff (h : s.Good) (ha : s.Armed) {op : Op} (hop : op.kicks = true)
    (rs : List SysRet) : (s.step (op, rs)).Armed ↔ s.Tidy (s.conn.kick op) :=
  armed_after_iff h ha (fun _ => pos_of_kicks hop s.conn) (h.steady.step hop rs).2

theorem good_start (highWaterMark : Option Nat) :
    (start highWaterMark).Good ∧ (start highWaterMark).Armed := by
  refine ⟨⟨⟨rfl, rfl, fun f hf => (nomatch hf), fun _ => rfl⟩,
    ⟨fun e he => (nomatch he), fun i hi => (nomatch hi), fun h => ?_⟩, fun t ht => nomatch ht⟩,
    rfl, ?_⟩
  · rcases h with h | h <;> exact absurd h (Nat.lt_irrefl 0)
  · rintro ⟨i, hi, -⟩
    exact Nat.not_lt_zero i hi

/-- **Suspension, exactly.** Along a run of `enableKickingOff`, `keepAlive` and streams that are
opened and closed, in the loop thread and in others whose closures the loop runs, the kick-off is
armed as it should be in every state exactly when every step is tidy. -/
theorem armed_iff_tidy (highWaterMark : Option Nat) (as : List (Op × List SysRet))
    (hops : ∀ a ∈ as, a.1.kicks = true) :
    Runs.Always step Armed (start highWaterMark) as ↔
      Runs.Along step (fun s a => s.Tidy (s.conn.kick a.1)) (start highWaterMark) as := by
  refine Runs.always_iff_along (I := fun s : Suspension => s.Good ∧ s.Armed)
    (H := fun _ a => a.1.kicks = true) (fun _ h => h.2) ?_ ?_ (good_start highWaterMark)
    (Runs.along_of_mem hops _)
  · rintro s ⟨op, rs⟩ ⟨h, ha⟩ hop htidy
    exact ⟨good_step h hop rs, (armed_step_iff h ha hop rs).mpr htidy⟩
  · rintro s ⟨op, rs⟩ ⟨h, ha⟩ hop htidy harmed
    exact htidy ((armed_step_iff h ha hop rs).mp harmed)

/-- One stream at a time, the second of another thread: suspended while it is open, armed again when
it is closed. -/
theorem armed_iff_tidy_stream :
    Runs.Always step Armed (start none)
      [(.enableKickingOff 5, []), (.sendAsyncStream true true, []), (.asyncClose true 0, []),
        (.sendAsyncStream false true, []), (.runFunc, []), (.asyncClose false 1, []),
        (.runFunc, []), (.sendAsyncStream true false, []), (.keepAlive, []),
        (.asyncClose true 2, [])] :=
  (armed_iff_tidy none _ (by decide)).mpr (by decide +kernel)

/-- Two streams suspend the kick-off: the second saves 0, and closing both does not arm it again. A
stream of another thread that is closed before its opening has run disarms it for good. -/
theorem not_armed_two_streams :
    ¬ Runs.Always step Armed (start none)
        [(.enableKickingOff 5, []), (.sendAsyncStream true true, []),
          (.sendAsyncStream true true, []), (.asyncClose true 0, []), (.asyncClose true 1, [])] ∧
      ¬ Runs.Always step Armed (start none)
        [(.enableKickingOff 5, []), (.sendAsyncStream false true, []), (.asyncClose true 0, []),
          (.runFunc, [])] := by
  decide +kernel

end Suspension

end TcpConnectionImpl

end XiaoNet
