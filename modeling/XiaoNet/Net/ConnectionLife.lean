import XiaoNet.Net.Quiet

/-!
# The life of a connection

- `Life`: whether a connection is connecting or disconnected, how often its callbacks have
  run, and how often it is still to be destroyed.
- `life_step`: a step that is no event of the channel leaves the life alone, closes a
  connection that is up, or destroys one.
- `life_handleClose`: an event that closes does not look at the status.
-/

namespace XiaoNet

/-- What the closing of a connection is about. -/
@[ext] structure Life where
  disconnected : Bool
  connecting : Bool
  /-- Calls of `connectionCallback_`. -/
  connections : Nat
  /-- Calls of `closeCallback_`. -/
  closes : Nat
  /-- Those that the owner has not answered. -/
  closing : Nat
  /-- Queued closures of `connectDestroyed`. -/
  destroys : Nat
  deriving DecidableEq, Repr

namespace Life

def close (l : Life) : Life where
  disconnected := true
  connecting := false
  connections := l.connections + 1
  closes := l.closes + 1
  closing := l.closing + 1
  destroys := l.destroys

/-- The owner queues `connectDestroyed`. -/
def answer (l : Life) : Life :=
  { l with closing := l.closing - 1, destroys := l.destroys + 1 }

/-- `connectDestroyed` of a connection that is not connected. -/
def destroy (l : Life) : Life :=
  { l with destroys := l.destroys - 1 }

end Life

namespace TcpConnectionImpl

/-- The calls of `connectionCallback_` and of `closeCallback_`. -/
def told (c : TcpConnectionImpl) : Nat × Nat :=
  (c.calls.count .connection, c.calls.count .close)

def life (c : TcpConnectionImpl) : Life where
  disconnected := c.status = .disconnected
  connecting := c.status = .connecting
  connections := c.told.1
  closes := c.told.2
  closing := c.closing
  destroys := c.funcs.count .connectDestroyed

variable {c : TcpConnectionImpl}

/-! ## Sending makes neither call -/

theorem Sent.told_eq {c' : TcpConnectionImpl} {id : NodeId} (h : Sent c c' id) :
    c'.told = c.told := by
  have hframe := congrArg told h.frame_eq
  exact hframe

theorem told_setNode (id : NodeId) (node : BufferNode) : (c.setNode id node).told = c.told := rfl

/-- Above the high water mark another callback is called. -/
theorem told_appendBack (data : List Byte) : (c.appendBack data).told = c.told := by
  unfold appendBack
  split
  · rfl
  · dsimp only
    split
    · split
      · simp [told, setNode]
      · rfl
    · rfl

theorem told_enqueue (data : List Byte) : (c.enqueue data).told = c.told := by
  unfold enqueue
  rw [told_appendBack]
  split <;> rfl

theorem told_sendInLoop (rs : List SysRet) (buffer : List Byte) :
    (c.sendInLoop rs buffer).told = c.told := by
  by_cases h : c.status = .connected
  · by_cases hwait : c.ioChannel.isWriting = true ∨ c.writeBufferList ≠ []
    · rw [sendInLoop_queued rs buffer h hwait]
      split
      · rfl
      · exact told_enqueue buffer
    · obtain ⟨hw, hl⟩ := not_or.mp hwait
      rw [sendInLoop_direct rs buffer h (Bool.eq_false_iff.mpr hw) (not_not.mp hl)]
      have hwrote := (sent_wrote (c := c) (rs.headD .again) buffer 0).told_eq
      split
      · exact hwrote
      · exact (told_enqueue _).trans hwrote
  · rw [sendInLoop_of_not_connected rs buffer h]

theorem told_sendOrPush (rs : List SysRet) (id : NodeId) : (c.sendOrPush rs id).told = c.told := by
  have hsent := (c.sendNode_sent rs id).told_eq
  unfold sendOrPush
  split
  · exact hsent
  · exact hsent

theorem told_sendFileInLoop (rs : List SysRet) (id : NodeId) :
    (c.sendFileInLoop rs id).told = c.told := by
  rw [sendFileInLoop_eq]
  split
  · exact told_sendOrPush rs id
  · rfl

theorem told_sendStreamInLoop (rs : List SysRet) (id : NodeId) :
    (c.sendStreamInLoop rs id).told = c.told := by
  rw [sendStreamInLoop_eq]
  split
  · exact told_sendOrPush rs id
  · rfl

theorem told_sendAsyncStreamInLoop (id : NodeId) (disableKickoff : Bool) :
    (c.sendAsyncStreamInLoop id disableKickoff).told = c.told := by
  cases disableKickoff <;> rfl

theorem told_sendAsyncStreamQueued (rs : List SysRet) (id : NodeId) (disableKickoff : Bool) :
    (c.sendAsyncStreamQueued rs id disableKickoff).told = c.told := by
  have hkick : (if disableKickoff then c.disableKickoff else c).told = c.told := by
    cases disableKickoff <;> rfl
  rw [sendAsyncStreamQueued_eq]
  generalize (if disableKickoff then c.disableKickoff else c) = c' at hkick ⊢
  have hsent := (c'.sendNode_sent rs id).told_eq.trans hkick
  dsimp only
  split
  · split
    · exact hsent
    · exact hsent
  · exact hkick

theorem told_sendAsyncDataInLoop (rs : List SysRet) (id : NodeId) (data : Option (List Byte)) :
    (c.sendAsyncDataInLoop rs id data).told = c.told := by
  cases data with
  | none =>
    rw [sendAsyncData_close]
    unfold closeNode
    split <;> rfl
  | some data =>
    by_cases hdata : data = []
    · rw [hdata, sendAsyncData_nil]
    · by_cases hfront : c.writeBufferList.head? = some id ∧ c.remainingBytes id = 0
      · rw [sendAsyncData_front rs hdata hfront]
        have hwrote := (sent_wrote (c := c) (rs.headD .again) data id).told_eq
        split
        · exact hwrote
        · exact (told_setNode id _).trans hwrote
      · rw [sendAsyncData_behind rs hdata hfront]
        exact told_setNode id _

theorem told_writeCallback (rs : List SysRet) (hclose : c.closeOnEmpty = false) :
    (c.writeCallback rs).told = c.told := by
  cases hw : c.ioChannel.isWriting with
  | false => rw [writeCallback_of_not_writing rs hw]
  | true =>
    -- along the loop: `closeOnEmpty_` stays off and neither callback is called
    obtain ⟨c', ⟨-, htold⟩, ⟨heq, -⟩ | ⟨heq, -⟩⟩ := writeCallback_rule
      (I := fun c' => c'.closeOnEmpty = false ∧ c'.told = c.told)
      (fun _ _ _ hI _ _ _ => hI)
      (fun c' rs id _ hI _ _ =>
        ⟨(c'.sendNode_sent rs id).kept.closeOnEmpty_eq.trans hI.1,
          (c'.sendNode_sent rs id).told_eq.trans hI.2⟩)
      (fun _ hI => hI.1) rs ⟨hclose, rfl⟩ hw
    · rw [heq]
      exact htold
    · rw [heq]
      exact htold

/-! ## The life along a step -/

theorem Kept.life_eq {c' : TcpConnectionImpl} (h : Kept c c') (htold : c'.told = c.told) :
    c'.life = c.life := by
  unfold life
  rw [h.status_eq, htold, h.closing_eq, h.funcs_eq]

theorem life_queue {f : Func} (hf : f ≠ .connectDestroyed) : (c.queue f).life = c.life := by
  have hcount : (c.funcs ++ [f]).count .connectDestroyed = c.funcs.count .connectDestroyed := by
    rw [List.count_append, List.count_singleton]
    simp [hf]
  unfold life
  simp only [queue, hcount]
  rfl

theorem life_handleClose (c : TcpConnectionImpl) : c.handleClose.life = c.life.close := by
  simp [life, told, handleClose, Life.close]

theorem life_shutdownInLoop (c : TcpConnectionImpl) : c.shutdownInLoop.life = c.life := by
  unfold shutdownInLoop
  split
  · rename_i hs
    split
    · rfl
    · dsimp only
      split <;> simp [life, told, hs]
  · rfl

/-- The life stays, or the connection was up and is closed. -/
inductive Moves (c c' : TcpConnectionImpl) : Prop where
  | stays (life_eq : c'.life = c.life)
  | closes (up : c.status = .connected ∨ c.status = .disconnecting)
      (life_eq : c'.life = c.life.close) (failed_eq : c'.failed = c.failed)

/-- What is changed before does not matter when it is none of this. -/
theorem Moves.of_same {c₁ c' : TcpConnectionImpl} (h : c₁.Moves c') (hstatus : c₁.status = c.status)
    (hlife : c₁.life = c.life) (hfailed : c₁.failed = c.failed) : c.Moves c' := by
  cases h with
  | stays heq => exact .stays (heq.trans hlife)
  | closes hup heq hf =>
    rw [hstatus] at hup
    exact .closes hup (heq.trans (congrArg Life.close hlife)) (hf.trans hfailed)

theorem moves_forceCloseInLoop (c : TcpConnectionImpl) : c.Moves c.forceCloseInLoop := by
  unfold forceCloseInLoop
  split
  · rename_i hs
    exact .closes hs (life_handleClose _) rfl
  · exact .stays rfl

/-- A closure that is not `connectDestroyed`. -/
theorem moves_call (rs : List SysRet) {f : Func} (hf : f ≠ .connectDestroyed)
    (hnode : ∀ id kind, Func.node f = some (id, kind) → id < c.nextNode) :
    c.Moves (c.call rs f) := by
  have hkept := kept_call (c := c) rs f hnode
  cases f with
  | sendInLoop msg => exact .stays ((hkept (by simp)).life_eq (told_sendInLoop rs msg))
  | sendFile id => exact .stays ((hkept (by simp)).life_eq (told_sendFileInLoop rs id))
  | sendStream id => exact .stays ((hkept (by simp)).life_eq (told_sendFileInLoop rs id))
  | sendAsyncStream id disableKickoff =>
    exact .stays ((hkept (by simp)).life_eq (told_sendAsyncStreamQueued rs id disableKickoff))
  | sendAsyncData id data =>
    exact .stays ((hkept (by simp)).life_eq (told_sendAsyncDataInLoop rs id data))
  | shutdown => exact .stays (life_shutdownInLoop c)
  | forceClose => exact moves_forceCloseInLoop c
  | connectDestroyed => exact absurd rfl hf

theorem life_newNode_queue (node : BufferNode) {f : Func} (hf : f ≠ .connectDestroyed) :
    ((c.newNode node).queue f).life = c.life :=
  (life_queue hf).trans rfl

theorem life_streamCallback (rs : List SysRet) (inLoop : Bool) (id : NodeId)
    (data : Option (List Byte)) : (c.streamCallback rs inLoop id data).life = c.life := by
  unfold streamCallback
  split
  · rfl
  · split
    · exact (kept_sendAsyncDataInLoop rs id data).life_eq (told_sendAsyncDataInLoop rs id data)
    · exact life_queue (by simp)

/-- The close and the read callback of the channel, and what the owner does. -/
def Op.closing : Op → Bool
  | .readCallback _ _ | .closeCallback | .queueDestroyed => true
  | _ => false

/-- **One step** that is no event that may close, and does not destroy. -/
theorem moves_step (hwired : c.Wired) (hf : c.failed = false) {op : Op} (hop : op.closing = false)
    (hstay : ¬ c.Removes op) (rs : List SysRet) : c.Moves (c.step (op, rs)) := by
  cases op with
  | readCallback now ret => cases hop
  | closeCallback => cases hop
  | queueDestroyed => cases hop
  | send inLoop msg =>
    rw [step_send rs inLoop hf]
    refine .stays ?_
    cases inLoop with
    | true => exact (kept_sendInLoop rs msg).life_eq (told_sendInLoop rs msg)
    | false => exact life_queue (by simp)
  | sendFile inLoop file =>
    rw [step_sendFile rs inLoop hf]
    refine .stays ?_
    split
    · rfl
    · split
      · cases inLoop with
        | true =>
          exact ((kept_sendFileInLoop (c := c.newNode _) rs (Nat.lt_succ_self _)).life_eq
            (told_sendFileInLoop rs _)).trans rfl
        | false => exact life_newNode_queue _ (by simp)
      · rfl
  | sendStream inLoop callback =>
    rw [step_sendStream rs inLoop hf]
    refine .stays ?_
    cases inLoop with
    | true =>
      exact ((kept_sendStreamInLoop (c := c.newNode _) rs (Nat.lt_succ_self _)).life_eq
        (told_sendStreamInLoop rs _)).trans rfl
    | false => exact life_newNode_queue _ (by simp)
  | sendAsyncStream inLoop disableKickoff =>
    rw [step_sendAsyncStream rs inLoop hf]
    refine .stays ?_
    cases inLoop with
    | true =>
      exact ((kept_sendAsyncStreamInLoop (c := c.newStream) disableKickoff
        (Nat.lt_succ_self _)).life_eq (told_sendAsyncStreamInLoop _ disableKickoff)).trans rfl
    | false => exact (life_queue (by simp)).trans rfl
  | asyncSend inLoop id data =>
    rw [step_asyncSend rs inLoop hf]
    refine .stays ?_
    split
    · exact life_streamCallback rs inLoop id (some data)
    · rfl
  | asyncClose inLoop id =>
    rw [step_asyncClose rs inLoop hf]
    refine .stays ?_
    split
    · exact life_streamCallback rs inLoop id none
    · rfl
  | shutdown inLoop =>
    rw [step_shutdown rs inLoop hf]
    refine .stays ?_
    cases inLoop with
    | true => exact life_shutdownInLoop c
    | false => exact life_queue (by simp)
  | forceClose inLoop =>
    rw [step_forceClose rs inLoop hf]
    cases inLoop with
    | true => exact moves_forceCloseInLoop c
    | false => exact .stays (life_queue (by simp))
  | runFunc =>
    cases hfs : c.funcs with
    | nil =>
      rw [step_runFunc_nil rs hf hfs]
      exact .stays rfl
    | cons f fs =>
      -- only `connectDestroyed` would remove, and that is excluded
      have hother : f ≠ .connectDestroyed := by
        rintro rfl
        exact hstay (by simp [Removes, hfs])
      have hnode : ∀ id kind, Func.node f = some (id, kind) → id < c.nextNode :=
        fun id kind hnode => (hwired.funcs f (hfs ▸ List.mem_cons_self) id kind hnode).1
      have hlife : ({ c with funcs := fs }).life = c.life := by
        simp [life, told, hfs, hother]
      rw [step_runFunc_cons rs hf hfs]
      exact (moves_call (c := { c with funcs := fs }) rs hother hnode).of_same rfl hlife rfl
  | writeCallback =>
    rw [step_writeCallback rs hf]
    exact .stays ((kept_writeCallback rs hwired.stays_open).life_eq
      (told_writeCallback rs hwired.stays_open))
  | keepAlive =>
    rw [step_keepAlive rs hf]
    exact .stays rfl
  | enableKickingOff timeout =>
    rw [step_enableKickingOff rs hf]
    refine .stays ?_
    split <;> rfl
  | destroyEntry i =>
    rw [step_destroyEntry rs hf]
    split
    · exact (moves_forceCloseInLoop _).of_same rfl rfl rfl
    · exact .stays rfl

/-- `connectDestroyed` of a connection that is not connected. -/
theorem life_destroys (hf : c.failed = false) {op : Op} (hop : c.Removes op)
    (hdown : c.status ≠ .connected) (rs : List SysRet) :
    (c.step (op, rs)).life = c.life.destroy := by
  cases op with
  | runFunc =>
    obtain ⟨fs, hfs⟩ := List.head?_eq_some_iff.mp hop
    rw [step_runFunc_cons rs hf hfs]
    show ({ c with funcs := fs }).connectDestroyed.life = _
    rw [connectDestroyed_of_not_connected (c := { c with funcs := fs }) hdown]
    refine Life.ext rfl rfl rfl rfl rfl ?_
    simp [life, assert, Life.destroy, hfs]
  | _ => exact False.elim hop

/-! ## Events that close -/

/-- The read ends the connection. -/
def ReadRet.ends : ReadRet → Bool
  | .bytes [] => true
  | .bytes (_ :: _) => false
  | .error .EPIPE | .error .ECONNRESET | .error .EAGAIN => false
  | .error .success | .error .other => true

theorem life_readCallback_ends (now : Nat) {ret : ReadRet} (h : ret.ends = true) :
    (c.readCallback now ret).life = c.life.close ∧ (c.readCallback now ret).failed = c.failed := by
  have hclose := life_handleClose c
  cases ret with
  | error errno => cases errno <;> first | exact ⟨hclose, rfl⟩ | cases h
  | bytes data =>
    cases data with
    | nil => exact ⟨hclose, rfl⟩
    | cons b bs => cases h

theorem life_readCallback (now : Nat) {ret : ReadRet} (h : ret.ends = false) :
    (c.readCallback now ret).life = c.life := by
  cases ret with
  | error errno => cases errno <;> first | rfl | cases h
  | bytes data =>
    cases data with
    | nil => cases h
    | cons b bs =>
      refine Life.ext rfl rfl ?_ ?_ rfl rfl
      · simp [readCallback, life, told, extendLife]
      · simp [readCallback, life, told, extendLife]

/-- The owner answers a call of `closeCallback_`. -/
theorem life_queueDestroyed (hf : c.failed = false) (h : c.closing > 0) (rs : List SysRet) :
    (c.step (.queueDestroyed, rs)).life = c.life.answer ∧
      (c.step (.queueDestroyed, rs)).failed = false := by
  rw [step_queueDestroyed rs hf, if_pos h]
  refine ⟨Life.ext rfl rfl rfl rfl rfl ?_, hf⟩
  simp [life, queue, Life.answer]

end TcpConnectionImpl

end XiaoNet
