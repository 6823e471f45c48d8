import XiaoNet.Net.ConnectionFrame

/-!
# Shutdown

`shutdown` leaves a connection with bytes to send as it is: the statement that should
remember the request has no effect. `writeCallback` then never shuts down.

- `Shuts c op`: the step runs the closure of `shutdown` on a connected connection.
- `Prompt c op`: when it does, nothing waits and the write event is off.
- `Asked`: a connection and what has been asked of it; `shutdown_kept` is about runs whose
  shutdowns are all prompt, `closeWrite_after_bytes` about all.
-/

namespace XiaoNet

namespace TcpConnectionImpl

/-- Sends, streams, the write event and `shutdown`. -/
def Op.graceful : Op → Bool
  | .send _ _ | .sendFile _ _ | .sendStream _ _ | .sendAsyncStream _ _ | .asyncSend _ _ _
  | .asyncClose _ _ | .runFunc | .writeCallback | .shutdown _ => true
  | _ => false

/-- The step runs the closure of `shutdown`. -/
def RunsShutdown (c : TcpConnectionImpl) : Op → Prop
  | .shutdown inLoop => inLoop = true
  | .runFunc => c.funcs.head? = some .shutdown
  | _ => False

/-- The step runs the closure of `shutdown` on a connected connection. -/
def Shuts (c : TcpConnectionImpl) (op : Op) : Prop :=
  c.failed = false ∧ c.status = .connected ∧ c.RunsShutdown op

/-- A shutdown finds nothing that waits and the write event off. -/
def Prompt (c : TcpConnectionImpl) (op : Op) : Prop :=
  c.Shuts op → c.writeBufferList = [] ∧ c.ioChannel.isWriting = false

/-- The step is a write event that leaves nothing to send. -/
def Empties (c : TcpConnectionImpl) (rs : List SysRet) : Op → Prop
  | .writeCallback => (c.step (.writeCallback, rs)).writeBufferList = []
  | _ => False

instance (c : TcpConnectionImpl) : (op : Op) → Decidable (c.RunsShutdown op)
  | .shutdown _ => inferInstanceAs (Decidable (_ = _))
  | .runFunc => inferInstanceAs (Decidable (_ = _))
  | .send _ _ | .sendFile _ _ | .sendStream _ _ | .sendAsyncStream _ _ | .asyncSend _ _ _
  | .asyncClose _ _ | .forceClose _ | .queueDestroyed | .readCallback _ _
  | .writeCallback | .closeCallback | .keepAlive | .enableKickingOff _ | .destroyEntry _ =>
    inferInstanceAs (Decidable False)

instance (c : TcpConnectionImpl) (op : Op) : Decidable (c.Shuts op) :=
  inferInstanceAs (Decidable (_ ∧ _))

instance (c : TcpConnectionImpl) (op : Op) : Decidable (c.Prompt op) :=
  inferInstanceAs (Decidable (_ → _))

instance (c : TcpConnectionImpl) (rs : List SysRet) : (op : Op) → Decidable (c.Empties rs op)
  | .writeCallback => inferInstanceAs (Decidable (_ = _))
  | .send _ _ | .sendFile _ _ | .sendStream _ _ | .sendAsyncStream _ _ | .asyncSend _ _ _
  | .asyncClose _ _ | .forceClose _ | .queueDestroyed | .readCallback _ _
  | .runFunc | .shutdown _ | .closeCallback | .keepAlive | .enableKickingOff _
  | .destroyEntry _ => inferInstanceAs (Decidable False)

/-! ## One step -/

variable {c : TcpConnectionImpl}

/-- What the closure of `shutdown` does to a connected connection. -/
theorem shutdownInLoop_connected (h : c.status = .connected) :
    (c.writeBufferList ≠ [] ∧ c.shutdownInLoop = c) ∨
    (c.writeBufferList = [] ∧ c.shutdownInLoop.status = .disconnecting ∧
      c.shutdownInLoop.writeBufferList = [] ∧
      (c.ioChannel.isWriting = false → c.shutdownInLoop.socket.writeClosed = true)) := by
  by_cases hl : c.writeBufferList = []
  · refine .inr ⟨hl, ?_⟩
    cases hw : c.ioChannel.isWriting with
    | true =>
      have heq : c.shutdownInLoop = { c with status := .disconnecting } := by
        simp [shutdownInLoop, h, hl, hw]
      rw [heq]
      exact ⟨rfl, hl, fun hoff => nomatch hoff⟩
    | false =>
      have heq : c.shutdownInLoop =
          { c with status := .disconnecting, socket := c.socket.closeWrite } := by
        simp [shutdownInLoop, h, hl, hw]
      rw [heq]
      exact ⟨rfl, hl, fun _ => rfl⟩
  · exact .inl ⟨hl, by simp [shutdownInLoop, hl]⟩

/-- The status and the write side. -/
def closingState (c : TcpConnectionImpl) : ConnStatus × Bool := (c.status, c.socket.writeClosed)

theorem Kept.closingState_eq {c' : TcpConnectionImpl} (h : Kept c c') :
    c'.closingState = c.closingState := by
  rw [closingState, h.status_eq, h.writeClosed_eq]
  rfl

/-- A connection none of whose closures closes it by force. -/
structure Orderly (c : TcpConnectionImpl) : Prop where
  wired : c.Wired
  funcs_orderly : ∀ f ∈ c.funcs, f ≠ .forceClose ∧ f ≠ .connectDestroyed

theorem Orderly.of_kept {c' : TcpConnectionImpl} (h : c.Orderly) (hk : Kept c c') :
    c'.Orderly where
  wired := h.wired.of_kept hk
  funcs_orderly f hf := h.funcs_orderly f (by rw [← hk.funcs_eq]; exact hf)

theorem Orderly.queue (h : c.Orderly) {f : Func} (hf : f ≠ .forceClose ∧ f ≠ .connectDestroyed)
    (hwired : (c.queue f).Wired) : (c.queue f).Orderly where
  wired := hwired
  funcs_orderly g hg := by
    rcases List.mem_append.mp hg with hold | hnew
    · exact h.funcs_orderly g hold
    · rw [List.mem_singleton.mp hnew]
      exact hf

theorem Orderly.newNode (h : c.Orderly) (node : BufferNode) : (c.newNode node).Orderly :=
  h.of_kept (kept_newNode node)

theorem Orderly.newStream (h : c.Orderly) : c.newStream.Orderly :=
  ⟨wired_newStream h.wired, h.funcs_orderly⟩

theorem orderly_shutdownInLoop (h : c.Orderly) : c.shutdownInLoop.Orderly := by
  refine ⟨wired_shutdownInLoop h.wired, fun f hf => h.funcs_orderly f ?_⟩
  unfold shutdownInLoop at hf
  split at hf
  · split at hf
    · exact hf
    · dsimp only at hf
      split at hf <;> exact hf
  · exact hf

/-- A step that keeps the order, and the status and the write side when it runs no
shutdown. -/
structure Calm (c : TcpConnectionImpl) (op : Op) (c' : TcpConnectionImpl) : Prop where
  orderly : c'.Orderly
  same : ¬ c.Shuts op → c'.closingState = c.closingState

theorem Kept.calm {c' : TcpConnectionImpl} (h : Kept c c') (ho : c.Orderly) (op : Op) :
    c.Calm op c' :=
  ⟨ho.of_kept h, fun _ => h.closingState_eq⟩

theorem calm_streamCallback (h : c.Orderly) (rs : List SysRet) (inLoop : Bool) {id : NodeId}
    (hid : id ∈ c.streams) (data : Option (List Byte)) (op : Op) :
    c.Calm op (c.streamCallback rs inLoop id data) := by
  have hwired := wired_streamCallback h.wired rs inLoop hid data
  unfold streamCallback at hwired ⊢
  by_cases hs : c.status ≠ .connected
  · rw [if_pos hs]
    exact ⟨h, fun _ => rfl⟩
  · rw [if_neg hs] at hwired ⊢
    cases inLoop with
    | true => exact (kept_sendAsyncDataInLoop rs id data).calm h op
    | false => exact ⟨h.queue (by simp) hwired, fun _ => rfl⟩

/-- **One step** without force. -/
theorem calm_step (h : c.Orderly) {op : Op} (hop : op.graceful = true) (rs : List SysRet) :
    c.Calm op (c.step (op, rs)) := by
  have hwired := wired_step h.wired op rs
  cases hf : c.failed with
  | true =>
    rw [step_failed rs hf]
    exact ⟨h, fun _ => rfl⟩
  | false =>
    cases op with
    | send inLoop msg =>
      rw [step_send rs inLoop hf] at hwired ⊢
      cases inLoop with
      | true => exact (kept_sendInLoop rs msg).calm h _
      | false => exact ⟨h.queue (by simp) hwired, fun _ => rfl⟩
    | sendFile inLoop file =>
      rw [step_sendFile rs inLoop hf]
      split
      · exact ⟨h, fun _ => rfl⟩
      · split
        · cases inLoop with
          | true =>
            have hsend := kept_sendFileInLoop (c := c.newNode (.file file)) rs (Nat.lt_succ_self _)
            exact ((kept_newNode _).trans hsend).calm h _
          | false =>
            exact ⟨(h.newNode _).queue (by simp) (wired_newNode_queue h.wired _ rfl),
              fun _ => rfl⟩
        · exact ⟨⟨wired_assert h.wired false, h.funcs_orderly⟩, fun _ => rfl⟩
    | sendStream inLoop callback =>
      rw [step_sendStream rs inLoop hf]
      cases inLoop with
      | true =>
        have hsend := kept_sendStreamInLoop
          (c := c.newNode (.data (.newStreamBufferNode callback))) rs (Nat.lt_succ_self _)
        exact ((kept_newNode _).trans hsend).calm h _
      | false =>
        exact ⟨(h.newNode _).queue (by simp) (wired_newNode_queue h.wired _ rfl), fun _ => rfl⟩
    | sendAsyncStream inLoop disableKickoff =>
      rw [step_sendAsyncStream rs inLoop hf] at hwired ⊢
      cases inLoop with
      | true =>
        have hsend := kept_sendAsyncStreamInLoop (c := c.newStream) disableKickoff
          (Nat.lt_succ_self _)
        exact ⟨h.newStream.of_kept hsend, fun _ => hsend.closingState_eq⟩
      | false => exact ⟨h.newStream.queue (by simp) hwired, fun _ => rfl⟩
    | asyncSend inLoop id data =>
      rw [step_asyncSend rs inLoop hf]
      split
      · rename_i hid
        exact calm_streamCallback h rs inLoop hid (some data) _
      · exact ⟨h, fun _ => rfl⟩
    | asyncClose inLoop id =>
      rw [step_asyncClose rs inLoop hf] at hwired ⊢
      split at hwired
      · rename_i hid
        have hcall := calm_streamCallback h rs inLoop hid none (.asyncClose inLoop id)
        rw [if_pos hid]
        exact ⟨⟨hwired, hcall.orderly.funcs_orderly⟩, hcall.same⟩
      · rename_i hid
        rw [if_neg hid]
        exact ⟨h, fun _ => rfl⟩
    | shutdown inLoop =>
      rw [step_shutdown rs inLoop hf] at hwired ⊢
      cases inLoop with
      | true =>
        refine ⟨orderly_shutdownInLoop h, fun hnot => ?_⟩
        have hs : c.status ≠ .connected := fun hs => hnot ⟨hf, hs, rfl⟩
        rw [if_pos rfl, shutdownInLoop, if_neg hs]
      | false => exact ⟨h.queue (by simp) hwired, fun _ => rfl⟩
    | runFunc =>
      cases hfs : c.funcs with
      | nil =>
        rw [step_runFunc_nil rs hf hfs]
        exact ⟨h, fun _ => rfl⟩
      | cons f fs =>
        rw [step_runFunc_cons rs hf hfs]
        have hmem : f ∈ c.funcs := by
          rw [hfs]
          exact List.mem_cons_self
        have hrest : ({ c with funcs := fs }).Orderly := by
          refine ⟨h.wired.tail_funcs hfs, fun g hg => h.funcs_orderly g ?_⟩
          rw [hfs]
          exact List.mem_cons_of_mem f hg
        -- every closure but that of `shutdown` keeps the status and the write side
        by_cases hshut : f = .shutdown
        · subst hshut
          refine ⟨orderly_shutdownInLoop hrest, fun hnot => ?_⟩
          have hs : c.status ≠ .connected := fun hs => hnot ⟨hf, hs, by
            show c.funcs.head? = _
            rw [hfs]
            rfl⟩
          show ({ c with funcs := fs }).shutdownInLoop.closingState = c.closingState
          rw [shutdownInLoop, if_neg (by exact hs)]
          rfl
        · have hcall := kept_call (c := { c with funcs := fs }) rs f
            (fun id kind hnode => (h.wired.funcs f hmem id kind hnode).1)
            ⟨hshut, h.funcs_orderly f hmem⟩
          exact ⟨hrest.of_kept hcall, fun _ => hcall.closingState_eq⟩
    | writeCallback =>
      rw [step_writeCallback rs hf]
      exact (kept_writeCallback rs h.wired.stays_open).calm h _
    | _ => cases hop

/-- A step that runs a shutdown. -/
theorem shuts_step {op : Op} (h : c.Shuts op) (rs : List SysRet) :
    (c.writeBufferList ≠ [] ∧ (c.step (op, rs)).closingState = c.closingState) ∨
    (c.writeBufferList = [] ∧ (c.step (op, rs)).status = .disconnecting ∧
      (c.step (op, rs)).writeBufferList = [] ∧
      (c.ioChannel.isWriting = false → (c.step (op, rs)).socket.writeClosed = true)) := by
  obtain ⟨hf, hs, hrun⟩ := h
  -- only these two operations shut down: the call itself and its queued closure
  cases op with
  | shutdown inLoop =>
    rw [step_shutdown rs inLoop hf]
    have hloop : inLoop = true := hrun
    rw [if_pos hloop]
    rcases shutdownInLoop_connected hs with ⟨hl, heq⟩ | hdone
    · exact .inl ⟨hl, by rw [heq]⟩
    · exact .inr hdone
  | runFunc =>
    obtain ⟨fs, hfs⟩ := List.head?_eq_some_iff.mp hrun
    rw [step_runFunc_cons rs hf hfs]
    have hs' : ({ c with funcs := fs }).status = .connected := hs
    rcases shutdownInLoop_connected hs' with ⟨hl, heq⟩ | hdone
    · refine .inl ⟨hl, ?_⟩
      show ({ c with funcs := fs }).shutdownInLoop.closingState = c.closingState
      rw [heq]
      rfl
    · exact .inr hdone
  | _ => exact nomatch hrun

/-! ## Runs -/

/-- A connection, whether a shutdown has run on it while it was connected, and whether a
write event has emptied its list since. -/
structure Asked where
  conn : TcpConnectionImpl
  asked : Bool
  emptied : Bool

def Asked.step (s : Asked) (a : Op × List SysRet) : Asked where
  conn := s.conn.step a
  asked := s.asked || s.conn.Shuts a.1
  emptied := s.emptied || (s.asked && s.conn.Empties a.2 a.1)

def Asked.start (highWaterMark : Option Nat) (kickoff : Kickoff) : Asked :=
  ⟨established highWaterMark kickoff, false, false⟩

/-- After the shutdown, with nothing left to send, the write side is closed. -/
def Asked.NotForgotten (s : Asked) : Prop :=
  s.emptied = true → s.conn.status = .disconnecting ∧ s.conn.socket.writeClosed = true

instance (s : Asked) : Decidable s.NotForgotten := inferInstanceAs (Decidable (_ → _))

/-- What prompt shutdowns keep. -/
structure Asked.Heard (s : Asked) : Prop where
  orderly : s.conn.Orderly
  closed : s.asked = true → s.conn.closingState = (.disconnecting, true)
  asked_of_emptied : s.emptied = true → s.asked = true

theorem Asked.Heard.step {s : Asked} (h : s.Heard) {op : Op} (hop : op.graceful = true)
    (rs : List SysRet) (hprompt : s.conn.Prompt op) : (s.step (op, rs)).Heard := by
  have hcalm := calm_step h.orderly hop rs
  refine ⟨hcalm.orderly, fun hasked => ?_, fun hemptied => ?_⟩
  · show (s.conn.step (op, rs)).closingState = _
    by_cases hshuts : s.conn.Shuts op
    · obtain ⟨hl, hw⟩ := hprompt hshuts
      rcases shuts_step hshuts rs with ⟨hne, -⟩ | ⟨-, hs, -, hclosed⟩
      · exact absurd hl hne
      · rw [closingState, hs, hclosed hw]
    · rw [hcalm.same hshuts]
      refine h.closed ?_
      have hor : (s.asked || decide (s.conn.Shuts op)) = true := hasked
      rw [decide_eq_false hshuts, Bool.or_false] at hor
      exact hor
  · show (s.asked || _) = true
    have hor : (s.emptied || (s.asked && decide (s.conn.Empties rs op))) = true := hemptied
    rcases Bool.or_eq_true_iff.mp hor with hold | hnew
    · rw [h.asked_of_emptied hold]
      rfl
    · rw [(Bool.and_eq_true_iff.mp hnew).1]
      rfl

theorem Asked.Heard.notForgotten {s : Asked} (h : s.Heard) : s.NotForgotten := by
  intro hemptied
  have hclosed := h.closed (h.asked_of_emptied hemptied)
  exact ⟨congrArg Prod.fst hclosed, congrArg Prod.snd hclosed⟩

/-- The write side is not closed over bytes that wait. -/
def ClosesLate (c : TcpConnectionImpl) (a : Op × List SysRet) : Prop :=
  c.socket.writeClosed = false → (c.step a).socket.writeClosed = true →
    (c.step a).writeBufferList = []

theorem closesLate_step (h : c.Orderly) {op : Op} (hop : op.graceful = true)
    (rs : List SysRet) : c.ClosesLate (op, rs) := by
  intro hopen hclosed
  have hchange : (c.step (op, rs)).closingState ≠ c.closingState := by
    intro heq
    have hsame := congrArg Prod.snd heq
    have hfalse : (c.step (op, rs)).socket.writeClosed = false := hsame.trans hopen
    rw [hclosed] at hfalse
    cases hfalse
  by_cases hshuts : c.Shuts op
  · rcases shuts_step hshuts rs with ⟨-, heq⟩ | ⟨-, -, hl, -⟩
    · exact absurd heq hchange
    · exact hl
  · exact absurd ((calm_step h hop rs).same hshuts) hchange

theorem orderly_established (highWaterMark : Option Nat) (kickoff : Kickoff) :
    (established highWaterMark kickoff).Orderly :=
  ⟨wired_established highWaterMark kickoff, fun _ hf => nomatch hf⟩

/-- **Graceful shutdown.** In a run of sends, streams, write events and shutdowns whose
shutdowns find nothing that waits and the write event off, no shutdown is forgotten; and
in no run is the write side closed over bytes that wait. -/
theorem shutdown_heard (highWaterMark : Option Nat) (kickoff : Kickoff)
    (as : List (Op × List SysRet)) (hops : ∀ a ∈ as, a.1.graceful = true) :
    (Runs.Along Asked.step (fun s a => s.conn.Prompt a.1) (.start highWaterMark kickoff) as →
      Runs.Always Asked.step Asked.NotForgotten (.start highWaterMark kickoff) as) ∧
    Runs.Along step ClosesLate (established highWaterMark kickoff) as := by
  constructor
  · intro hprompt
    have hall : Runs.Along Asked.step (fun s a => s.conn.Prompt a.1 ∧ a.1.graceful = true)
        (.start highWaterMark kickoff) as := hprompt.and (Runs.along_of_mem hops _)
    have hstart : (Asked.start highWaterMark kickoff).Heard :=
      ⟨orderly_established highWaterMark kickoff, fun h => (nomatch h), fun h => (nomatch h)⟩
    have hheard := Runs.always_of_along (I := Asked.Heard)
      (fun s a h hg => h.step hg.2 a.2 hg.1) hstart hall
    exact hheard.mono fun _ h => h.notForgotten
  · exact Runs.along_of_invariant (I := Orderly) (H := fun _ a => a.1.graceful = true)
      (fun _ a h hop => (calm_step h hop a.2).orderly)
      (fun _ a h hop => closesLate_step h hop a.2)
      (orderly_established highWaterMark kickoff) (Runs.along_of_mem hops _)

/-- A payload, the shutdown, and a write event after it. -/
theorem shutdown_heard_send :
    Runs.Always Asked.step Asked.NotForgotten (.start none .new)
      [(.send true [1, 2], [⟨some 2, .success, 0⟩]), (.shutdown true, []), (.writeCallback, [])] ∧
    Runs.Along step ClosesLate (established none .new)
      [(.send true [1, 2], [⟨some 2, .success, 0⟩]), (.shutdown true, []),
        (.writeCallback, [])] := by
  obtain ⟨hheard, hlate⟩ := shutdown_heard none .new
    [(.send true [1, 2], [⟨some 2, .success, 0⟩]), (.shutdown true, []), (.writeCallback, [])]
    (by decide)
  exact ⟨hheard (by decide +kernel), hlate⟩

/-- A file of which a part is taken, the shutdown, and the write event that sends the
rest: the connection stays open. -/
theorem shutdown_forgotten :
    ¬ Runs.Always Asked.step Asked.NotForgotten (.start none .new)
      [(.sendFile true ⟨false, some [1, 2, 3], 3⟩, [⟨some 1, .success, 0⟩]), (.shutdown true, []),
        (.writeCallback, [⟨some 2, .success, 0⟩])] := by
  decide +kernel

end TcpConnectionImpl

end XiaoNet
