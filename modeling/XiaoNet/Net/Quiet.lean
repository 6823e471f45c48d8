import XiaoNet.Net.ConnectionFrame

/-!
# A disconnected connection

`handleClose` disables every event, and `connectDestroyed` asserts that none is
registered when the channel is removed. `sendInLoop` looks at the status before it
writes; the closures of `sendFile`, `sendStream` and of the async streams do not.

- `StaysQuiet c op rs`: the step neither registers an event on a disconnected
  connection nor calls the kernel for it.
- `Closed c op`: the step is none of those that do. `quiet_iff_closed`: for every run,
  all steps stay quiet exactly when all are.
-/

namespace XiaoNet

namespace TcpConnectionImpl

/-- The step runs `connectDestroyed`. -/
def Removes (c : TcpConnectionImpl) : Op → Prop
  | .runFunc => c.funcs.head? = some .connectDestroyed
  | _ => False

/-- No event is registered once the connection is disconnected, no call is made for it,
and the channel is removed without events. -/
def StaysQuiet (c : TcpConnectionImpl) (rs : List SysRet) (op : Op) : Prop :=
  ((c.step (op, rs)).status = .disconnected →
    (c.step (op, rs)).ioChannel.events = Channel.kNoneEvent) ∧
  (c.status = .disconnected → (c.step (op, rs)).socket.calls = c.socket.calls) ∧
  (c.Removes op → (c.step (op, rs)).ioChannel.events = Channel.kNoneEvent)

/-- The closure finds nothing to send, or is not the first in the list. -/
def FuncClosed (c : TcpConnectionImpl) : Func → Prop
  | .sendFile id | .sendStream id => c.writeBufferList = [] → (c.nodes id).idle = true
  | .sendAsyncStream id _ =>
    c.writeBufferList = [] → c.remainingBytes id > 0 → (c.nodes id).idle = true
  | .sendAsyncData id (some data) =>
    ¬ (data ≠ [] ∧ c.writeBufferList.head? = some id ∧ c.remainingBytes id = 0)
  | .sendAsyncData id none => c.writeBufferList.head? ≠ some id
  | .sendInLoop _ | .shutdown | .forceClose | .connectDestroyed => True

/-- On a disconnected connection the step finds nothing to send. -/
def Closed (c : TcpConnectionImpl) (op : Op) : Prop :=
  c.status = .disconnected → c.failed = false →
    match op with
    | .sendFile true file =>
      file.sendFd.isSome = true → file.remainingBytes > 0 → c.writeBufferList ≠ []
    | .sendStream true callback =>
      c.writeBufferList = [] → (BufferNode.data (.newStreamBufferNode callback)).idle = true
    | .runFunc =>
      match c.funcs with
      | [] => True
      | f :: _ => c.FuncClosed f
    | _ => True

variable {c : TcpConnectionImpl}

instance : (op : Op) → Decidable (c.Removes op)
  | .runFunc => inferInstanceAs (Decidable (_ = _))
  | .send _ _ | .sendFile _ _ | .sendStream _ _ | .sendAsyncStream _ _ | .asyncSend _ _ _
  | .asyncClose _ _ | .shutdown _ | .forceClose _ | .queueDestroyed | .readCallback _ _
  | .writeCallback | .closeCallback | .keepAlive | .enableKickingOff _ | .destroyEntry _ =>
    inferInstanceAs (Decidable False)

instance (rs : List SysRet) (op : Op) : Decidable (c.StaysQuiet rs op) :=
  inferInstanceAs (Decidable (_ ∧ _))

/-! ## Functions that send, without events registered -/

/-- No event is registered and no call has been made. -/
def Silent (c c' : TcpConnectionImpl) : Prop :=
  c'.ioChannel.events = Channel.kNoneEvent ∧ c'.socket.calls = c.socket.calls

section Silent

variable (hnone : c.ioChannel.events = Channel.kNoneEvent) (rs : List SysRet) (id : NodeId)

include hnone

theorem silent_sendOrPush_iff : c.Silent (c.sendOrPush rs id) ↔ (c.nodes id).idle = true := by
  have hio : (c.sendOrPush rs id).ioChannel = (c.sendNodeInLoop rs id).1.ioChannel := by
    unfold sendOrPush
    split <;> rfl
  have hsocket : (c.sendOrPush rs id).socket = (c.sendNodeInLoop rs id).1.socket := by
    unfold sendOrPush
    split <;> rfl
  unfold Silent
  rw [hio, hsocket]
  cases hidle : (c.nodes id).idle with
  | true =>
    obtain ⟨hch, hsame⟩ := c.sendNode_idle rs hidle
    rw [hch, hsame]
    exact iff_of_true ⟨hnone, rfl⟩ rfl
  | false =>
    have hcalls := c.sendNode_calls rs hidle
    constructor
    · intro h
      exact absurd h.2 (Nat.ne_of_gt hcalls)
    · intro h
      cases h

theorem silent_sendFileInLoop_iff :
    c.Silent (c.sendFileInLoop rs id) ↔ (c.writeBufferList = [] → (c.nodes id).idle = true) := by
  rw [sendFileInLoop_eq]
  split
  · rename_i hl
    exact (silent_sendOrPush_iff hnone rs id).trans (imp_iff_right hl).symm
  · rename_i hl
    exact ⟨fun _ h => absurd h hl, fun _ => ⟨hnone, rfl⟩⟩

theorem silent_sendStreamInLoop_iff :
    c.Silent (c.sendStreamInLoop rs id) ↔
      (c.writeBufferList = [] → (c.nodes id).idle = true) := by
  rw [sendStreamInLoop_eq]
  split
  · rename_i hl
    exact (silent_sendOrPush_iff hnone rs id).trans (imp_iff_right hl).symm
  · rename_i hl
    exact ⟨fun _ h => absurd h hl, fun _ => ⟨hnone, rfl⟩⟩

theorem silent_sendAsyncStreamQueued_iff (disableKickoff : Bool) :
    c.Silent (c.sendAsyncStreamQueued rs id disableKickoff) ↔
      c.FuncClosed (.sendAsyncStream id disableKickoff) := by
  rw [sendAsyncStreamQueued_eq]
  -- the kick-off plays no part in what the socket sees
  have hsame : c.FuncClosed (.sendAsyncStream id disableKickoff) ↔
      (if disableKickoff then c.disableKickoff else c).FuncClosed
        (.sendAsyncStream id disableKickoff) := by
    cases disableKickoff <;> exact Iff.rfl
  have hsilent : ∀ c', c.Silent c' ↔
      (if disableKickoff then c.disableKickoff else c).Silent c' := by
    intro c'
    cases disableKickoff <;> exact Iff.rfl
  have hnone' : (if disableKickoff then c.disableKickoff else c).ioChannel.events
      = Channel.kNoneEvent := by
    cases disableKickoff <;> exact hnone
  rw [hsame, hsilent]
  generalize (if disableKickoff then c.disableKickoff else c) = c' at hnone' ⊢
  dsimp only [FuncClosed]
  -- the node is sent from when the list is empty and it holds something
  by_cases hsend : c'.writeBufferList = [] ∧ c'.remainingBytes id > 0
  · rw [if_pos hsend]
    have hidle : (∀ _ : c'.writeBufferList = [], c'.remainingBytes id > 0 →
        (c'.nodes id).idle = true) ↔ (c'.nodes id).idle = true :=
      ⟨fun h => h hsend.1 hsend.2, fun h _ _ => h⟩
    rw [hidle]
    cases hi : (c'.nodes id).idle with
    | true =>
      -- an idle node asks the socket for nothing
      obtain ⟨hch, hsock⟩ := c'.sendNode_idle rs hi
      refine ⟨fun _ => rfl, fun _ => ?_⟩
      split <;> exact ⟨(congrArg Channel.events hch).trans hnone', congrArg Socket.calls hsock⟩
    | false =>
      have hcalls := c'.sendNode_calls rs hi
      refine ⟨fun h => ?_, fun h => nomatch h⟩
      split at h <;> exact absurd h.2 (Nat.ne_of_gt hcalls)
  · rw [if_neg hsend]
    exact ⟨fun _ hl hrem => absurd ⟨hl, hrem⟩ hsend, fun _ => ⟨hnone', rfl⟩⟩

theorem silent_sendAsyncData_iff (data : Option (List Byte)) :
    c.Silent (c.sendAsyncDataInLoop rs id data) ↔ c.FuncClosed (.sendAsyncData id data) := by
  have hw : c.ioChannel.isWriting = false := Channel.isWriting_of_none _ hnone
  cases data with
  | none =>
    -- the close speaks up for the front node alone: it enables writing
    rw [sendAsyncData_close]
    dsimp only [FuncClosed]
    unfold closeNode
    by_cases hfront : c.writeBufferList.head? = some id
    · rw [if_pos ⟨hfront, hw⟩]
      exact iff_of_false (fun h => Channel.enableWriting_ne_none _ h.1) (fun h => h hfront)
    · rw [if_neg fun h => hfront h.1]
      exact iff_of_true ⟨hnone, rfl⟩ hfront
  | some data =>
    -- a chunk is written at once when its node stands in front and is empty
    dsimp only [FuncClosed]
    by_cases hdata : data = []
    · subst hdata
      rw [sendAsyncData_nil]
      exact ⟨fun _ h => h.1 rfl, fun _ => ⟨hnone, rfl⟩⟩
    · by_cases hfront : c.writeBufferList.head? = some id ∧ c.remainingBytes id = 0
      · rw [sendAsyncData_front rs hdata hfront]
        have hcalls := calls_wrote (c := c) (rs.headD .again) data
        generalize c.wrote (rs.headD .again) data = c' at hcalls ⊢
        refine ⟨fun h => ?_, fun h => absurd ⟨hdata, hfront⟩ h⟩
        have hsame : c'.socket.calls = c.socket.calls := by
          split at h <;> exact h.2
        omega
      · rw [sendAsyncData_behind rs hdata hfront]
        exact ⟨fun _ h => hfront h.2, fun _ => ⟨hnone, rfl⟩⟩

end Silent

/-! ## Steps of a disconnected connection -/

theorem streamCallback_of_not_connected (rs : List SysRet) (inLoop : Bool) (id : NodeId)
    (data : Option (List Byte)) (h : c.status ≠ .connected) :
    c.streamCallback rs inLoop id data = c := by
  rw [streamCallback, if_pos h]

theorem shutdownInLoop_of_not_connected (h : c.status ≠ .connected) : c.shutdownInLoop = c := by
  rw [shutdownInLoop, if_neg h]

theorem forceCloseInLoop_of_disconnected (h : c.status = .disconnected) :
    c.forceCloseInLoop = c := by
  rw [forceCloseInLoop, h]
  rfl

theorem connectDestroyed_of_not_connected (h : c.status ≠ .connected) :
    c.connectDestroyed = c.assert c.ioChannel.removable := by
  rw [connectDestroyed, if_neg h]

/-- A read event of a disconnected connection. -/
theorem silent_readCallback (h : c.status = .disconnected)
    (hnone : c.ioChannel.events = Channel.kNoneEvent) (now : Nat) (ret : ReadRet) :
    (c.readCallback now ret).status = .disconnected ∧ c.Silent (c.readCallback now ret) := by
  have hclose : c.handleClose.status = .disconnected ∧ c.Silent c.handleClose :=
    ⟨rfl, rfl, rfl⟩
  cases ret with
  | error errno =>
    cases errno <;> first | exact ⟨h, hnone, rfl⟩ | exact hclose
  | bytes data =>
    cases data with
    | nil => exact hclose
    | cons b bs => exact ⟨h, hnone, rfl⟩

/-- The status stays, and the closure is silent exactly when it finds nothing to send. -/
theorem silent_call_iff (h : c.status = .disconnected)
    (hnone : c.ioChannel.events = Channel.kNoneEvent) (rs : List SysRet) (f : Func)
    (hnode : ∀ id kind, Func.node f = some (id, kind) → id < c.nextNode) :
    (c.call rs f).status = .disconnected ∧ (c.Silent (c.call rs f) ↔ c.FuncClosed f) := by
  have hnot : c.status ≠ .connected := by
    rw [h]
    decide
  have hquiet : c.Silent c ↔ True := iff_true_intro ⟨hnone, rfl⟩
  -- four closures look at the status first, the four of the nodes do not
  cases f with
  | sendInLoop msg =>
    have heq : c.call rs (.sendInLoop msg) = c := sendInLoop_of_not_connected rs msg hnot
    rw [heq]
    exact ⟨h, hquiet⟩
  | sendFile id =>
    exact ⟨(kept_call rs (.sendFile id) hnode (by simp)).status_eq.trans h,
      silent_sendFileInLoop_iff hnone rs id⟩
  | sendStream id =>
    exact ⟨(kept_call rs (.sendStream id) hnode (by simp)).status_eq.trans h,
      silent_sendFileInLoop_iff hnone rs id⟩
  | sendAsyncStream id disableKickoff =>
    exact ⟨(kept_call rs (.sendAsyncStream id disableKickoff) hnode (by simp)).status_eq.trans h,
      silent_sendAsyncStreamQueued_iff hnone rs id disableKickoff⟩
  | sendAsyncData id data =>
    exact ⟨(kept_call rs (.sendAsyncData id data) hnode (by simp)).status_eq.trans h,
      silent_sendAsyncData_iff hnone rs id data⟩
  | shutdown =>
    have heq : c.call rs .shutdown = c := shutdownInLoop_of_not_connected hnot
    rw [heq]
    exact ⟨h, hquiet⟩
  | forceClose =>
    have heq : c.call rs .forceClose = c := forceCloseInLoop_of_disconnected h
    rw [heq]
    exact ⟨h, hquiet⟩
  | connectDestroyed =>
    have heq : c.call rs .connectDestroyed = c.assert c.ioChannel.removable :=
      connectDestroyed_of_not_connected hnot
    rw [heq]
    exact ⟨h, hquiet⟩

/-- **A step of a disconnected connection** leaves it disconnected, and is silent
exactly when it finds nothing to send. -/
theorem silent_step_iff (hwired : c.Wired) (h : c.status = .disconnected)
    (hnone : c.ioChannel.events = Channel.kNoneEvent) (rs : List SysRet) (op : Op) :
    (c.step (op, rs)).status = .disconnected ∧ (c.Silent (c.step (op, rs)) ↔ c.Closed op) := by
  have hnot : c.status ≠ .connected := by
    rw [h]
    decide
  have hquiet : c.Silent c := ⟨hnone, rfl⟩
  cases hf : c.failed with
  | true =>
    rw [step_failed rs hf]
    refine ⟨h, fun _ _ hok => ?_, fun _ => hquiet⟩
    rw [hf] at hok
    cases hok
  | false =>
    have hopen : ∀ p : Prop, (c.status = .disconnected → c.failed = false → p) ↔ p :=
      fun p => ⟨fun hp => hp h hf, fun hp _ _ => hp⟩
    have hquiet' : c.Silent c ↔ True := iff_true_intro hquiet
    cases op with
    | send inLoop msg =>
      rw [step_send rs inLoop hf]
      cases inLoop with
      | true =>
        rw [if_pos rfl, sendInLoop_of_not_connected rs msg hnot]
        exact ⟨h, hquiet'.trans (hopen _).symm⟩
      | false => exact ⟨h, hquiet'.trans (hopen _).symm⟩
    | sendFile inLoop file =>
      rw [step_sendFile rs inLoop hf]
      cases hfd : file.sendFd with
      | none =>
        refine ⟨h, fun _ => (hopen _).mpr ?_, fun _ => hquiet⟩
        cases inLoop with
        | true =>
          intro hsome
          rw [hfd] at hsome
          cases hsome
        | false => trivial
      | some bytes =>
        rw [if_neg (by simp)]
        by_cases hrem : file.remainingBytes > 0
        · rw [if_pos hrem]
          cases inLoop with
          | false => exact ⟨h, hquiet'.trans (hopen _).symm⟩
          | true =>
            have hidle : ((c.newNode (.file file)).nodes c.nextNode).idle = false := by
              rw [nodes_newNode_self]
              exact decide_eq_false (Int.not_le.mpr hrem)
            have hiff := silent_sendFileInLoop_iff (c := c.newNode (.file file)) hnone rs c.nextNode
            rw [hidle] at hiff
            refine ⟨(kept_sendFileInLoop (c := c.newNode (.file file)) rs
              (Nat.lt_succ_self _)).status_eq.trans h, ?_⟩
            refine Iff.trans hiff (Iff.trans ?_ (hopen _).symm)
            have hsome : file.sendFd.isSome = true := by
              rw [hfd]
              rfl
            exact ⟨fun hl _ _ hnil => absurd (hl hnil) (by decide),
              fun hl hnil => absurd hnil (hl hsome hrem)⟩
        · rw [if_neg hrem]
          refine ⟨h, fun _ => (hopen _).mpr ?_, fun _ => hquiet⟩
          cases inLoop with
          | true => exact fun _ hpos => absurd hpos hrem
          | false => trivial
    | sendStream inLoop callback =>
      rw [step_sendStream rs inLoop hf]
      cases inLoop with
      | false => exact ⟨h, hquiet'.trans (hopen _).symm⟩
      | true =>
        have hiff := silent_sendStreamInLoop_iff
          (c := c.newNode (.data (.newStreamBufferNode callback))) hnone rs c.nextNode
        rw [nodes_newNode_self] at hiff
        exact ⟨(kept_sendStreamInLoop (c := c.newNode (.data (.newStreamBufferNode callback))) rs
          (Nat.lt_succ_self _)).status_eq.trans h, Iff.trans hiff (hopen _).symm⟩
    | sendAsyncStream inLoop disableKickoff =>
      rw [step_sendAsyncStream rs inLoop hf]
      cases inLoop with
      | false => exact ⟨h, hquiet'.trans (hopen _).symm⟩
      | true =>
        refine ⟨(kept_sendAsyncStreamInLoop (c := c.newStream) disableKickoff
          (Nat.lt_succ_self _)).status_eq.trans h, ?_⟩
        refine Iff.trans ?_ (hopen _).symm
        cases disableKickoff <;> exact hquiet'
    | asyncSend inLoop id data =>
      rw [step_asyncSend rs inLoop hf, streamCallback_of_not_connected rs inLoop id _ hnot]
      split <;> exact ⟨h, hquiet'.trans (hopen _).symm⟩
    | asyncClose inLoop id =>
      rw [step_asyncClose rs inLoop hf, streamCallback_of_not_connected rs inLoop id _ hnot]
      split <;> exact ⟨h, hquiet'.trans (hopen _).symm⟩
    | shutdown inLoop =>
      rw [step_shutdown rs inLoop hf, shutdownInLoop_of_not_connected hnot]
      cases inLoop <;> exact ⟨h, hquiet'.trans (hopen _).symm⟩
    | forceClose inLoop =>
      rw [step_forceClose rs inLoop hf, forceCloseInLoop_of_disconnected h]
      cases inLoop <;> exact ⟨h, hquiet'.trans (hopen _).symm⟩
    | runFunc =>
      cases hfs : c.funcs with
      | nil =>
        rw [step_runFunc_nil rs hf hfs]
        refine ⟨h, fun _ => (hopen _).mpr ?_, fun _ => hquiet⟩
        dsimp only
        rw [hfs]
        trivial
      | cons f fs =>
        rw [step_runFunc_cons rs hf hfs]
        have hmem : f ∈ c.funcs := by
          rw [hfs]
          exact List.mem_cons_self
        -- the status is read when a closure runs, and only some of them read it
        have hcall := silent_call_iff (c := { c with funcs := fs }) h hnone rs f
          fun id kind hnode => (hwired.funcs f hmem id kind hnode).1
        have hsame : ({ c with funcs := fs }).FuncClosed f ↔ c.FuncClosed f := by
          cases f with
          | sendAsyncData id data => cases data <;> exact Iff.rfl
          | _ => exact Iff.rfl
        refine ⟨hcall.1, Iff.trans (Iff.trans hcall.2 hsame) ?_⟩
        unfold Closed
        rw [hopen]
        dsimp only
        rw [hfs]
    | queueDestroyed =>
      rw [step_queueDestroyed rs hf]
      split <;> exact ⟨h, hquiet'.trans (hopen _).symm⟩
    | readCallback now ret =>
      rw [step_readCallback rs hf]
      obtain ⟨hs, hq⟩ := silent_readCallback h hnone now ret
      exact ⟨hs, (iff_true_intro hq).trans (hopen _).symm⟩
    | writeCallback =>
      rw [step_writeCallback rs hf,
        writeCallback_of_not_writing rs (Channel.isWriting_of_none _ hnone)]
      exact ⟨h, hquiet'.trans (hopen _).symm⟩
    | closeCallback =>
      rw [step_closeCallback rs hf]
      exact ⟨rfl, (iff_true_intro ⟨rfl, rfl⟩).trans (hopen _).symm⟩
    | keepAlive =>
      rw [step_keepAlive rs hf]
      exact ⟨h, hquiet'.trans (hopen _).symm⟩
    | enableKickingOff timeout =>
      rw [step_enableKickingOff rs hf]
      split <;> exact ⟨h, hquiet'.trans (hopen _).symm⟩
    | destroyEntry i =>
      rw [step_destroyEntry rs hf, forceCloseInLoop_of_disconnected (by exact h)]
      split <;> exact ⟨h, hquiet'.trans (hopen _).symm⟩

/-! ## Runs -/

/-- A disconnected connection has no events, and only the owner of one destroys it. -/
structure Shut (c : TcpConnectionImpl) : Prop where
  wired : c.Wired
  none : c.status = .disconnected → c.ioChannel.events = Channel.kNoneEvent
  closing : c.closing > 0 → c.status = .disconnected
  destroyed : .connectDestroyed ∈ c.funcs → c.status = .disconnected

theorem Shut.of_disconnected (hwired : c.Wired) (h : c.status = .disconnected)
    (hnone : c.ioChannel.events = Channel.kNoneEvent) : c.Shut :=
  ⟨hwired, fun _ => hnone, fun _ => h, fun _ => h⟩

/-- A step that neither disconnects nor has anything destroyed. -/
theorem Shut.of_live {c' : TcpConnectionImpl} (h : c.Shut) (hlive : c.status ≠ .disconnected)
    (hwired : c'.Wired) (hstatus : c'.status ≠ .disconnected) (hclosing : c'.closing = c.closing)
    (hfuncs : .connectDestroyed ∈ c'.funcs → .connectDestroyed ∈ c.funcs) : c'.Shut where
  wired := hwired
  none hd := absurd hd hstatus
  closing hpos := by
    rw [hclosing] at hpos
    exact absurd (h.closing hpos) hlive
  destroyed hmem := absurd (h.destroyed (hfuncs hmem)) hlive

theorem Shut.of_kept {c' : TcpConnectionImpl} (h : c.Shut) (hlive : c.status ≠ .disconnected)
    (hk : Kept c c') : c'.Shut := by
  refine h.of_live hlive (h.wired.of_kept hk) ?_ hk.closing_eq fun hmem => ?_
  · rw [hk.status_eq]
    exact hlive
  · rw [← hk.funcs_eq]
    exact hmem

theorem Shut.queue (h : c.Shut) (hlive : c.status ≠ .disconnected) {f : Func}
    (hf : f ≠ .connectDestroyed) (hwired : (c.queue f).Wired) : (c.queue f).Shut := by
  refine h.of_live hlive hwired hlive rfl fun hmem => ?_
  rcases List.mem_append.mp hmem with hold | hnew
  · exact hold
  · exact absurd (List.mem_singleton.mp hnew).symm hf

theorem Shut.newNode (h : c.Shut) (hlive : c.status ≠ .disconnected) (node : BufferNode) :
    (c.newNode node).Shut :=
  h.of_kept hlive (kept_newNode node)

theorem Shut.newStream (h : c.Shut) (hlive : c.status ≠ .disconnected) : c.newStream.Shut :=
  h.of_live hlive (wired_newStream h.wired) hlive rfl fun hmem => hmem

theorem Shut.streamCallback (h : c.Shut) (hlive : c.status ≠ .disconnected) (rs : List SysRet)
    (inLoop : Bool) {id : NodeId} (hid : id ∈ c.streams) (data : Option (List Byte)) :
    (c.streamCallback rs inLoop id data).Shut := by
  have hwired := wired_streamCallback h.wired rs inLoop hid data
  unfold TcpConnectionImpl.streamCallback at hwired ⊢
  split at hwired
  · rename_i hs
    rw [if_pos hs]
    exact h
  · rename_i hs
    rw [if_neg hs]
    cases inLoop with
    | true => exact h.of_kept hlive (kept_sendAsyncDataInLoop rs id data)
    | false => exact h.queue hlive (by simp) hwired

theorem Shut.handleClose (h : c.Shut) : c.handleClose.Shut :=
  .of_disconnected (wired_handleClose h.wired) rfl rfl

theorem Shut.forceCloseInLoop (h : c.Shut) : c.forceCloseInLoop.Shut := by
  have hwired := wired_forceCloseInLoop h.wired
  unfold TcpConnectionImpl.forceCloseInLoop at hwired ⊢
  split at hwired
  · rename_i hs
    rw [if_pos hs]
    exact .of_disconnected hwired rfl rfl
  · rename_i hs
    rw [if_neg hs]
    exact h

theorem Shut.shutdownInLoop (h : c.Shut) (hlive : c.status ≠ .disconnected) :
    c.shutdownInLoop.Shut := by
  have hwired := wired_shutdownInLoop h.wired
  unfold TcpConnectionImpl.shutdownInLoop at hwired ⊢
  split
  · split
    · exact h
    · dsimp only
      split
      · exact h.of_live hlive (h.wired.of_fields rfl rfl rfl rfl (fun _ hid => hid)
          fun _ hf => .inl hf) (fun hs => nomatch hs) rfl fun hmem => hmem
      · exact h.of_live hlive (h.wired.of_fields rfl rfl rfl rfl (fun _ hid => hid)
          fun _ hf => .inl hf) (fun hs => nomatch hs) rfl fun hmem => hmem
  · exact h

theorem Shut.readCallback (h : c.Shut) (hlive : c.status ≠ .disconnected) (now : Nat)
    (ret : ReadRet) : (c.readCallback now ret).Shut := by
  have hwired := wired_readCallback h.wired now ret
  cases ret with
  | error errno =>
    cases errno <;> first | exact h | exact h.handleClose
  | bytes data =>
    cases data with
    | nil => exact .of_disconnected hwired rfl rfl
    | cons b bs => exact h.of_live hlive hwired hlive rfl fun hmem => hmem

theorem Shut.call (h : c.Shut) (hlive : c.status ≠ .disconnected) (rs : List SysRet) {f : Func}
    (hnode : ∀ id kind, Func.node f = some (id, kind) → id < c.nextNode)
    (hf : f ≠ .connectDestroyed) : (c.call rs f).Shut := by
  cases f with
  | shutdown => exact h.shutdownInLoop hlive
  | forceClose => exact h.forceCloseInLoop
  | connectDestroyed => exact absurd rfl hf
  | sendInLoop msg => exact h.of_kept hlive (kept_call rs _ hnode (by simp))
  | sendFile id => exact h.of_kept hlive (kept_call rs _ hnode (by simp))
  | sendStream id => exact h.of_kept hlive (kept_call rs _ hnode (by simp))
  | sendAsyncStream id disableKickoff => exact h.of_kept hlive (kept_call rs _ hnode (by simp))
  | sendAsyncData id data => exact h.of_kept hlive (kept_call rs _ hnode (by simp))

/-- A step of a connection that is not disconnected. -/
theorem shut_step_live (h : c.Shut) (hlive : c.status ≠ .disconnected) (op : Op)
    (rs : List SysRet) : (c.step (op, rs)).Shut := by
  have hwired := wired_step h.wired op rs
  cases hf : c.failed with
  | true =>
    rw [step_failed rs hf]
    exact h
  | false =>
    -- what is asked for in another thread is queued, the rest runs as its `…InLoop`
    cases op with
    | send inLoop msg =>
      rw [step_send rs inLoop hf] at hwired ⊢
      cases inLoop with
      | true =>
        -- sending in the loop thread leaves the status alone
        exact h.of_kept hlive (kept_sendInLoop rs msg)
      | false => exact h.queue hlive (by simp) hwired
    | sendFile inLoop file =>
      rw [step_sendFile rs inLoop hf]
      split
      · exact h
      · split
        · have hnew := h.newNode hlive (.file file)
          cases inLoop with
          | true => exact hnew.of_kept hlive (kept_sendFileInLoop rs (Nat.lt_succ_self _))
          | false => exact hnew.queue hlive (by simp) (wired_newNode_queue h.wired _ rfl)
        · exact h.of_live hlive (wired_assert h.wired false) hlive rfl fun hmem => hmem
    | sendStream inLoop callback =>
      rw [step_sendStream rs inLoop hf]
      have hnew := h.newNode hlive (.data (.newStreamBufferNode callback))
      cases inLoop with
      | true => exact hnew.of_kept hlive (kept_sendStreamInLoop rs (Nat.lt_succ_self _))
      | false => exact hnew.queue hlive (by simp) (wired_newNode_queue h.wired _ rfl)
    | sendAsyncStream inLoop disableKickoff =>
      rw [step_sendAsyncStream rs inLoop hf] at hwired ⊢
      have hnew := h.newStream hlive
      cases inLoop with
      | true =>
        exact hnew.of_kept hlive (kept_sendAsyncStreamInLoop disableKickoff (Nat.lt_succ_self _))
      | false => exact hnew.queue hlive (by simp) hwired
    | asyncSend inLoop id data =>
      rw [step_asyncSend rs inLoop hf]
      split
      · rename_i hid
        exact h.streamCallback hlive rs inLoop hid (some data)
      · exact h
    | asyncClose inLoop id =>
      rw [step_asyncClose rs inLoop hf] at hwired ⊢
      split at hwired
      · rename_i hid
        have hcall := h.streamCallback hlive rs inLoop hid none
        rw [if_pos hid]
        exact ⟨hwired, hcall.none, hcall.closing, hcall.destroyed⟩
      · rename_i hid
        rw [if_neg hid]
        exact h
    | shutdown inLoop =>
      rw [step_shutdown rs inLoop hf] at hwired ⊢
      cases inLoop with
      | true => exact h.shutdownInLoop hlive
      | false => exact h.queue hlive (by simp) hwired
    | forceClose inLoop =>
      rw [step_forceClose rs inLoop hf] at hwired ⊢
      cases inLoop with
      | true => exact h.forceCloseInLoop
      | false => exact h.queue hlive (by simp) hwired
    | runFunc =>
      cases hfs : c.funcs with
      | nil =>
        rw [step_runFunc_nil rs hf hfs]
        exact h
      | cons f fs =>
        -- a live connection has no `connectDestroyed` in its queue
        rw [step_runFunc_cons rs hf hfs]
        have hmem : f ∈ c.funcs := by
          rw [hfs]
          exact List.mem_cons_self
        have hrest : ({ c with funcs := fs }).Shut := by
          refine h.of_live hlive (h.wired.tail_funcs hfs) hlive rfl fun hd => ?_
          rw [hfs]
          exact List.mem_cons_of_mem f hd
        refine hrest.call hlive rs (fun id kind hnode => ?_) fun hd => ?_
        · exact (h.wired.funcs f hmem id kind hnode).1
        · exact hlive (h.destroyed (hd ▸ hmem))
    | queueDestroyed =>
      -- the server queues it for a connection that has said it is closed
      rw [step_queueDestroyed rs hf]
      split
      · rename_i hpos
        exact absurd (h.closing hpos) hlive
      · exact h
    | readCallback now ret =>
      rw [step_readCallback rs hf]
      exact h.readCallback hlive now ret
    | writeCallback =>
      rw [step_writeCallback rs hf]
      exact h.of_kept hlive (kept_writeCallback rs h.wired.stays_open)
    | closeCallback =>
      rw [step_closeCallback rs hf]
      exact h.handleClose
    | keepAlive =>
      rw [step_keepAlive rs hf]
      exact h.of_kept hlive (kept_kickoff _)
    | enableKickingOff timeout =>
      rw [step_enableKickingOff rs hf]
      split
      · exact h.of_kept hlive (kept_kickoff _)
      · exact h.of_live hlive (wired_assert h.wired false) hlive rfl fun hmem => hmem
    | destroyEntry i =>
      have hkick := h.of_kept hlive (kept_kickoff (c.kickoff.destroyEntry i).1)
      rw [step_destroyEntry rs hf]
      split
      · exact hkick.forceCloseInLoop
      · exact hkick

/-- **One step** stays quiet exactly when it finds nothing to send on a disconnected
connection. -/
theorem staysQuiet_iff (h : c.Shut) (rs : List SysRet) (op : Op) :
    c.StaysQuiet rs op ↔ c.Closed op := by
  by_cases hd : c.status = .disconnected
  · obtain ⟨hstatus, hiff⟩ := silent_step_iff h.wired hd (h.none hd) rs op
    rw [← hiff]
    constructor
    · rintro ⟨hnone, hcalls, -⟩
      exact ⟨hnone hstatus, hcalls hd⟩
    · rintro ⟨hnone, hcalls⟩
      exact ⟨fun _ => hnone, fun _ => hcalls, fun _ => hnone⟩
  · have h' := shut_step_live h hd op rs
    refine ⟨fun _ hdis => absurd hdis hd, fun _ => ⟨h'.none, fun hdis => absurd hdis hd, ?_⟩⟩
    intro hremoves
    cases op with
    | runFunc => exact absurd (h.destroyed (List.mem_of_mem_head? hremoves)) hd
    | _ => exact nomatch hremoves

theorem shut_step (h : c.Shut) (rs : List SysRet) (op : Op) (hclosed : c.Closed op) :
    (c.step (op, rs)).Shut := by
  by_cases hd : c.status = .disconnected
  · obtain ⟨hstatus, hiff⟩ := silent_step_iff h.wired hd (h.none hd) rs op
    exact .of_disconnected (wired_step h.wired op rs) hstatus (hiff.mpr hclosed).1
  · exact shut_step_live h hd op rs

theorem shut_established (highWaterMark : Option Nat) (kickoff : Kickoff) :
    (established highWaterMark kickoff).Shut where
  wired := wired_established highWaterMark kickoff
  none hd := nomatch hd
  closing hpos := nomatch hpos
  destroyed hmem := nomatch hmem

end TcpConnectionImpl

end XiaoNet
