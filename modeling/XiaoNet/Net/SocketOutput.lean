import XiaoNet.Net.QueuedSends
import XiaoNet.Net.SendFile

/-!
# What a step adds to the socket

- `Pours rs c c'`: the socket has accepted more bytes, and none when the kernel refuses every
  write of `rs`, as it does after `shutdown(SHUT_WR)`. Every function that writes has a lemma
  `pours_…`; `pours_step` is the one for every operation.
- `ClosesEmpty c c'`: the write side is as it was, or closed over an empty list;
  `closesEmpty_step`.
-/

namespace XiaoNet

/-- The kernel takes no byte. -/
def Refused (rs : List SysRet) : Prop := ∀ r ∈ rs, r.taken = none

theorem accepted_refused {r : SysRet} (h : r.taken = none) (buffer : List Byte) :
    accepted r buffer = 0 := by
  unfold accepted
  rw [h]

theorem Refused.head {rs : List SysRet} (h : Refused rs) : (rs.headD .again).taken = none := by
  cases rs with
  | nil => rfl
  | cons r rs => exact h r List.mem_cons_self

theorem Refused.tail {rs : List SysRet} (h : Refused rs) : Refused rs.tail :=
  fun q hq => h q (List.mem_of_mem_tail hq)

namespace TcpConnectionImpl

/-- The poll event that reads. -/
def Op.reads : Op → Bool
  | .readCallback _ _ => true
  | _ => false

/-- The socket of `c'` has accepted what that of `c` has, and more unless `rs` refuses it; nothing
is read. -/
def Pours (rs : List SysRet) (c c' : TcpConnectionImpl) : Prop :=
  (∃ bytes, c'.socket.output = c.socket.output ++ bytes ∧ (Refused rs → bytes = [])) ∧
    c'.readBuffer = c.readBuffer ∧ c'.bytesReceived = c.bytesReceived

variable {c c' : TcpConnectionImpl} {rs : List SysRet} {id : NodeId}

theorem Pours.readBuffer_eq (h : Pours rs c c') : c'.readBuffer = c.readBuffer := h.2.1

theorem Pours.bytesReceived_eq (h : Pours rs c c') : c'.bytesReceived = c.bytesReceived := h.2.2

theorem Pours.of_eq (hout : c'.socket.output = c.socket.output)
    (hread : c'.readBuffer = c.readBuffer) (hcount : c'.bytesReceived = c.bytesReceived) :
    Pours rs c c' :=
  ⟨⟨[], hout.trans (List.append_nil _).symm, fun _ => rfl⟩, hread, hcount⟩

theorem Pours.refl (c : TcpConnectionImpl) : Pours rs c c := .of_eq rfl rfl rfl

/-- The second part of a step works with results that the first part has left. -/
theorem Pours.trans {rs' : List SysRet} {c₁ c₂ c₃ : TcpConnectionImpl} (h₁ : Pours rs c₁ c₂)
    (h₂ : Pours rs' c₂ c₃) (hleft : Refused rs → Refused rs') : Pours rs c₁ c₃ := by
  obtain ⟨bytes₁, hout₁, hnone₁⟩ := h₁.1
  obtain ⟨bytes₂, hout₂, hnone₂⟩ := h₂.1
  refine ⟨⟨bytes₁ ++ bytes₂, ?_, fun hrs => ?_⟩, h₂.readBuffer_eq.trans h₁.readBuffer_eq,
    h₂.bytesReceived_eq.trans h₁.bytesReceived_eq⟩
  · rw [hout₂, hout₁, List.append_assoc]
  · rw [hnone₁ hrs, hnone₂ (hleft hrs)]
    rfl

theorem Pours.grows (h : Pours rs c c') : c.socket.output <+: c'.socket.output := by
  obtain ⟨bytes, hout, -⟩ := h.1
  exact ⟨bytes, hout.symm⟩

theorem Pours.refused (h : Pours rs c c') (hrs : Refused rs) :
    c'.socket.output = c.socket.output := by
  obtain ⟨bytes, hout, hnone⟩ := h.1
  rw [hout, hnone hrs, List.append_nil]

theorem Sent.pours (h : Sent c c' id)
    (hnone : Refused rs → c'.socket.output = c.socket.output) : Pours rs c c' := by
  have hread := congrArg TcpConnectionImpl.readBuffer h.frame_eq
  have hcount := congrArg TcpConnectionImpl.bytesReceived h.frame_eq
  obtain ⟨bytes, hout, -⟩ := h.accounted
  refine ⟨⟨bytes, hout, fun hrs => ?_⟩, hread, hcount⟩
  exact List.append_cancel_left (hout.symm.trans ((hnone hrs).trans (List.append_nil _).symm))

theorem pours_setNode (rs : List SysRet) (id : NodeId) (node : BufferNode) :
    Pours rs c (c.setNode id node) := .of_eq rfl rfl rfl

/-! ## Writing -/

theorem output_wrote_refused {r : SysRet} (h : r.taken = none) (buffer : List Byte) :
    (c.wrote r buffer).socket.output = c.socket.output := by
  rw [output_wrote, accepted_refused h, List.take_zero, List.append_nil]

theorem pours_wrote (rs : List SysRet) (buffer : List Byte) :
    Pours rs c (c.wrote (rs.headD .again) buffer) :=
  (sent_wrote _ buffer 0).pours fun h => output_wrote_refused h.head buffer

theorem pours_written {r : SysRet} (hr : Refused rs → r.taken = none) {d : DataNode}
    (hd : c.nodes id = .data d) : Pours rs c (c.written r id d) := by
  refine (sent_written r hd).pours fun h => ?_
  show ((c.setNode id (.data d.getData.2)).wrote r d.getData.1).socket.output = _
  rw [output_wrote_refused (hr h)]
  rfl

/-- What a loop or a call leaves of the results is refused when all of them are. -/
def Leaves (rs : List SysRet) (c : TcpConnectionImpl)
    (p : TcpConnectionImpl × Int × List SysRet) : Prop :=
  Pours rs c p.1 ∧ (Refused rs → Refused p.2.2)

theorem pours_sendDataLoop (id : NodeId) (rs : List SysRet) (c : TcpConnectionImpl)
    (hasSent : Int) : Leaves rs c (sendDataLoop id rs c hasSent) := by
  have hstay : ∀ {rs c}, Leaves rs c (c, hasSent, rs) := fun {_ c} => ⟨.refl c, fun h => h⟩
  -- on the answers; the loop stops at the first chunk that is not taken whole
  induction rs generalizing c hasSent with
  | nil =>
    cases hd : c.nodes id with
    | file f =>
      unfold sendDataLoop
      rw [hd]
      exact hstay
    | data d =>
      unfold sendDataLoop
      rw [hd]
      dsimp only
      by_cases hrem : d.remainingBytes > 0
      · -- without an answer left the call is taken to find the socket full
        rw [if_pos hrem]
        rcases sendDataRound_cases (c := c) .again id d hasSent with ⟨-, heq⟩ | ⟨-, heq⟩
        · rw [heq]
          exact ⟨.of_eq rfl rfl rfl, fun h => h⟩
        · have hout : Pours [] c (c.written .again id d) := pours_written (fun _ => rfl) hd
          rw [heq]
          by_cases hall : accepted .again d.getData.1 = d.getData.1.length
          · rw [if_pos hall]
            exact ⟨hout, fun h => h⟩
          · rw [if_neg hall]
            exact ⟨hout, fun h => h⟩
      · rw [if_neg hrem]
        exact hstay
  | cons r rs ih =>
    cases hd : c.nodes id with
    | file f =>
      unfold sendDataLoop
      rw [hd]
      exact hstay
    | data d =>
      unfold sendDataLoop
      rw [hd]
      dsimp only
      by_cases hrem : d.remainingBytes > 0
      · rw [if_pos hrem]
        -- the node has nothing to give, or its chunk goes to the socket
        rcases sendDataRound_cases (c := c) r id d hasSent with ⟨-, heq⟩ | ⟨-, heq⟩
        · rw [heq]
          exact ⟨.of_eq rfl rfl rfl, Refused.tail⟩
        · have hout : Pours (r :: rs) c (c.written r id d) :=
            pours_written (fun h => h r List.mem_cons_self) hd
          rw [heq]
          by_cases hall : accepted r d.getData.1 = d.getData.1.length
          · rw [if_pos hall]
            -- the chunk was taken whole, and the next round starts from there
            obtain ⟨hrest, hleft⟩ := ih (c.written r id d) (hasSent + accepted r d.getData.1)
              fun {_ c} => ⟨.refl c, fun h => h⟩
            exact ⟨hout.trans hrest Refused.tail, fun h => hleft h.tail⟩
          · rw [if_neg hall]
            exact ⟨hout, Refused.tail⟩
      · rw [if_neg hrem]
        exact hstay

theorem pours_sendFileNode {f : FileBufferNode} (hnode : c.nodes id = .file f) :
    Pours rs c (c.sendFileNode (rs.headD .again) id f).1 := by
  have hsent := sendNode_sent (c := c) rs id
  rw [sendNodeInLoop_file c rs hnode] at hsent
  refine hsent.pours fun h => ?_
  obtain ⟨bytes, hout, -⟩ := hsent.accounted
  have hnone : c.accepts (c.sendFileNode (rs.headD .again) id f).1 = 0 :=
    sendFileNode_full h.head f
  have hout : (c.sendFileNode (rs.headD .again) id f).1.socket.output = _ := hout
  rw [accepts, hout, List.length_append] at hnone
  have hempty : bytes = [] := List.length_eq_zero_iff.mp (by omega)
  rw [hempty, List.append_nil] at hout
  exact hout

theorem pours_sendNodeInLoop (rs : List SysRet) (id : NodeId) :
    Leaves rs c (c.sendNodeInLoop rs id) := by
  cases hnode : c.nodes id with
  | file f =>
    rw [sendNodeInLoop_file c rs hnode]
    exact ⟨pours_sendFileNode hnode, Refused.tail⟩
  | data d =>
    rw [sendNodeInLoop_data c rs hnode]
    exact pours_sendDataLoop id rs c 0

theorem pours_writeLoop (fuel : Nat) : Pours rs c (writeLoop fuel rs c).1 := by
  induction fuel generalizing c rs with
  | zero => exact .refl c
  | succ fuel ih =>
    unfold writeLoop
    split
    · exact .refl c
    · rename_i id rest hlist
      split
      · split
        · exact ih (c := { c with writeBufferList := rest })
        · exact .of_eq rfl rfl rfl
      · obtain ⟨hsent, hleft⟩ := pours_sendNodeInLoop (c := c) rs id
        generalize c.sendNodeInLoop rs id = p at hsent hleft ⊢
        obtain ⟨c', n, rs'⟩ := p
        dsimp only at hsent hleft ⊢
        split
        · exact hsent
        · exact hsent.trans ih hleft

theorem pours_shutdownInLoop (rs : List SysRet) : Pours rs c c.shutdownInLoop := by
  refine .of_eq sameSends_shutdownInLoop.output_eq ?_ ?_ <;>
  · unfold shutdownInLoop
    dsimp only
    split
    · split
      · rfl
      · split <;> rfl
    · rfl

theorem pours_forceCloseInLoop (rs : List SysRet) : Pours rs c c.forceCloseInLoop := by
  refine .of_eq sameSends_forceCloseInLoop.output_eq ?_ ?_ <;>
  · unfold forceCloseInLoop
    split <;> rfl

theorem pours_connectDestroyed (rs : List SysRet) : Pours rs c c.connectDestroyed := by
  refine .of_eq sameSends_connectDestroyed.output_eq ?_ ?_ <;>
  · unfold connectDestroyed
    dsimp only
    split <;> rfl

theorem pours_writeCallback (rs : List SysRet) : Pours rs c (c.writeCallback rs) := by
  have hloop : Pours rs c (writeLoop (2 * c.writeBufferList.length + 1) rs c).1 :=
    pours_writeLoop _
  unfold writeCallback
  split
  · generalize writeLoop (2 * c.writeBufferList.length + 1) rs c = p at hloop ⊢
    obtain ⟨c', emptied⟩ := p
    dsimp only at hloop ⊢
    split
    · split
      · have hshut := pours_shutdownInLoop
          (c := { c' with ioChannel := c'.ioChannel.disableWriting }) rs
        exact hloop.trans hshut fun h => h
      · exact hloop
    · exact hloop
  · exact .refl c

/-! ## Sending -/

theorem pours_enqueue (rs : List SysRet) (data : List Byte) : Pours rs c (c.enqueue data) := by
  refine .of_eq (congrArg Socket.output (socket_enqueue data)) ?_ ?_ <;> unfold enqueue
  · rw [appendBack_same TcpConnectionImpl.readBuffer data fun _ _ _ => rfl]
    split <;> rfl
  · rw [appendBack_same TcpConnectionImpl.bytesReceived data fun _ _ _ => rfl]
    split <;> rfl

theorem pours_sendInLoop (rs : List SysRet) (buffer : List Byte) :
    Pours rs c (c.sendInLoop rs buffer) := by
  by_cases hstatus : c.status = .connected
  · by_cases hwait : c.ioChannel.isWriting = true ∨ c.writeBufferList ≠ []
    · rw [sendInLoop_queued rs buffer hstatus hwait]
      split
      · exact .refl c
      · exact pours_enqueue rs buffer
    · obtain ⟨hw, hl⟩ := not_or.mp hwait
      rw [sendInLoop_direct rs buffer hstatus (Bool.eq_false_iff.mpr hw) (not_not.mp hl)]
      have hwrote := pours_wrote (c := c) rs buffer
      split
      · exact hwrote
      · exact hwrote.trans (pours_enqueue rs _) fun h => h
  · rw [sendInLoop_of_not_connected rs buffer hstatus]
    exact .refl c

theorem pours_sendOrPush (rs : List SysRet) (id : NodeId) : Pours rs c (c.sendOrPush rs id) := by
  have hsent := (pours_sendNodeInLoop (c := c) rs id).1
  unfold sendOrPush
  split <;> exact hsent

theorem pours_sendFileInLoop (rs : List SysRet) (id : NodeId) :
    Pours rs c (c.sendFileInLoop rs id) := by
  rw [sendFileInLoop_eq]
  split
  · exact pours_sendOrPush rs id
  · exact .of_eq rfl rfl rfl

theorem pours_sendStreamInLoop (rs : List SysRet) (id : NodeId) :
    Pours rs c (c.sendStreamInLoop rs id) := by
  rw [sendStreamInLoop_eq]
  split
  · exact pours_sendOrPush rs id
  · exact .refl c

theorem pours_sendAsyncStreamQueued (rs : List SysRet) (id : NodeId) (disableKickoff : Bool) :
    Pours rs c (c.sendAsyncStreamQueued rs id disableKickoff) := by
  have hkick : Pours rs c (if disableKickoff then c.disableKickoff else c) := by
    split <;> exact .of_eq rfl rfl rfl
  unfold sendAsyncStreamQueued
  dsimp only
  generalize (if disableKickoff then c.disableKickoff else c) = c₁ at hkick ⊢
  have hsent := (pours_sendNodeInLoop (c := c₁) rs id).1
  split
  · generalize c₁.sendNodeInLoop rs id = p at hsent ⊢
    obtain ⟨c', n, rs'⟩ := p
    dsimp only at hsent ⊢
    have hboth := hkick.trans hsent fun h => h
    split <;> exact hboth
  · exact hkick

theorem pours_closeNode (rs : List SysRet) (id : NodeId) : Pours rs c (c.closeNode id) := by
  unfold closeNode
  split <;> exact .of_eq rfl rfl rfl

theorem pours_sendAsyncData (rs : List SysRet) (id : NodeId) (data : Option (List Byte)) :
    Pours rs c (c.sendAsyncDataInLoop rs id data) := by
  cases data with
  | none =>
    rw [sendAsyncData_close]
    exact pours_closeNode rs id
  | some data =>
    by_cases hdata : data = []
    · rw [hdata]
      exact .refl c
    · by_cases hfront : c.writeBufferList.head? = some id ∧ c.remainingBytes id = 0
      · have hwrote := pours_wrote (c := c) rs data
        rw [sendAsyncData_front rs hdata hfront]
        split
        · exact hwrote
        · exact hwrote.trans (pours_setNode rs id _) fun h => h
      · rw [sendAsyncData_behind rs hdata hfront]
        exact .of_eq rfl rfl rfl

theorem pours_streamCallback (rs : List SysRet) (inLoop : Bool) (id : NodeId)
    (data : Option (List Byte)) : Pours rs c (c.streamCallback rs inLoop id data) := by
  unfold streamCallback
  split
  · exact .refl c
  · split
    · exact pours_sendAsyncData rs id data
    · exact .of_eq rfl rfl rfl

theorem pours_call (rs : List SysRet) (f : Func) : Pours rs c (c.call rs f) := by
  cases f with
  | sendInLoop msg => exact pours_sendInLoop rs msg
  | sendFile id => exact pours_sendFileInLoop rs id
  | sendStream id => exact pours_sendFileInLoop rs id
  | sendAsyncStream id disableKickoff => exact pours_sendAsyncStreamQueued rs id disableKickoff
  | sendAsyncData id data => exact pours_sendAsyncData rs id data
  | shutdown => exact pours_shutdownInLoop rs
  | forceClose => exact pours_forceCloseInLoop rs
  | connectDestroyed => exact pours_connectDestroyed rs

/-- **One step** that does not read only adds to what the socket has accepted. -/
theorem pours_step {op : Op} (hop : op.reads = false) (rs : List SysRet) :
    Pours rs c (c.step (op, rs)) := by
  cases hf : c.failed with
  | true =>
    rw [step_failed rs hf]
    exact .refl c
  | false =>
    -- only what runs in the loop thread reaches the socket, the rest is queued
    cases op with
    | send inLoop msg =>
      rw [step_send rs inLoop hf]
      split
      · exact pours_sendInLoop rs msg
      · exact .of_eq rfl rfl rfl
    | sendFile inLoop file =>
      rw [step_sendFile rs inLoop hf]
      split
      · exact .refl c
      · split
        · split
          · exact pours_sendFileInLoop (c := c.newNode (.file file)) rs _
          · exact .of_eq rfl rfl rfl
        · exact .of_eq rfl rfl rfl
    | sendStream inLoop callback =>
      rw [step_sendStream rs inLoop hf]
      split
      · exact pours_sendStreamInLoop
          (c := c.newNode (.data (.newStreamBufferNode callback))) rs _
      · exact .of_eq rfl rfl rfl
    | sendAsyncStream inLoop disableKickoff =>
      -- a new stream is empty, there is nothing to send yet
      rw [step_sendAsyncStream rs inLoop hf]
      cases inLoop <;> cases disableKickoff <;> exact .of_eq rfl rfl rfl
    | asyncSend inLoop id data =>
      rw [step_asyncSend rs inLoop hf]
      split
      · exact pours_streamCallback rs inLoop id (some data)
      · exact .refl c
    | asyncClose inLoop id =>
      rw [step_asyncClose rs inLoop hf]
      split
      · exact pours_streamCallback rs inLoop id none
      · exact .refl c
    | shutdown inLoop =>
      rw [step_shutdown rs inLoop hf]
      split
      · exact pours_shutdownInLoop rs
      · exact .of_eq rfl rfl rfl
    | forceClose inLoop =>
      rw [step_forceClose rs inLoop hf]
      split
      · exact pours_forceCloseInLoop rs
      · exact .of_eq rfl rfl rfl
    | runFunc =>
      cases hfs : c.funcs with
      | nil =>
        rw [step_runFunc_nil rs hf hfs]
        exact .refl c
      | cons f fs =>
        rw [step_runFunc_cons rs hf hfs]
        exact pours_call (c := { c with funcs := fs }) rs f
    | queueDestroyed =>
      rw [step_queueDestroyed rs hf]
      split <;> exact .of_eq rfl rfl rfl
    | readCallback now ret => cases hop
    | writeCallback =>
      rw [step_writeCallback rs hf]
      exact pours_writeCallback rs
    | closeCallback =>
      -- closing leaves the socket to the destructor
      rw [step_closeCallback rs hf]
      exact .of_eq rfl rfl rfl
    | keepAlive =>
      rw [step_keepAlive rs hf]
      exact .of_eq rfl rfl rfl
    | enableKickingOff timeout =>
      rw [step_enableKickingOff rs hf]
      split <;> exact .of_eq rfl rfl rfl
    | destroyEntry i =>
      rw [step_destroyEntry rs hf]
      split
      · exact pours_forceCloseInLoop (c := { c with kickoff := (c.kickoff.destroyEntry i).1 }) rs
      · exact .of_eq rfl rfl rfl

/-! ## The write side -/

/-- The write side is as it was, or closed with nothing that waits. -/
def ClosesEmpty (c c' : TcpConnectionImpl) : Prop :=
  c'.socket.writeClosed = c.socket.writeClosed ∨
    (c'.socket.writeClosed = true ∧ c'.writeBufferList = [])

theorem Kept.closesEmpty (h : Kept c c') : ClosesEmpty c c' := .inl h.writeClosed_eq

theorem closesEmpty_shutdownInLoop : ClosesEmpty c c.shutdownInLoop := by
  unfold shutdownInLoop
  split
  · split
    · exact .inl rfl
    · rename_i hlist
      dsimp only
      split
      · refine .inr ⟨rfl, ?_⟩
        show c.writeBufferList = []
        simpa using hlist
      · exact .inl rfl
  · exact .inl rfl

theorem closesEmpty_forceCloseInLoop : ClosesEmpty c c.forceCloseInLoop := by
  unfold forceCloseInLoop
  split <;> exact .inl rfl

theorem closesEmpty_call (rs : List SysRet) {f : Func}
    (hnode : ∀ id kind, Func.node f = some (id, kind) → id < c.nextNode) :
    ClosesEmpty c (c.call rs f) := by
  cases f with
  | shutdown => exact closesEmpty_shutdownInLoop
  | forceClose => exact closesEmpty_forceCloseInLoop
  | connectDestroyed =>
    refine .inl ?_
    show c.connectDestroyed.socket.writeClosed = _
    unfold connectDestroyed
    dsimp only
    split <;> rfl
  | _ => exact (kept_call rs _ hnode (by simp)).closesEmpty

theorem closesEmpty_streamCallback (rs : List SysRet) (inLoop : Bool) (id : NodeId)
    (data : Option (List Byte)) : ClosesEmpty c (c.streamCallback rs inLoop id data) := by
  unfold streamCallback
  split
  · exact .inl rfl
  · split
    · exact (kept_sendAsyncDataInLoop rs id data).closesEmpty
    · exact .inl rfl

/-- **One step** never closes the write side over bytes that wait. -/
theorem closesEmpty_step (h : c.Wired) (op : Op) (rs : List SysRet) :
    ClosesEmpty c (c.step (op, rs)) := by
  cases hf : c.failed with
  | true =>
    rw [step_failed rs hf]
    exact .inl rfl
  | false =>
    -- only `shutdown`, `forceClose` and their closures close the write side
    cases op with
    | send inLoop msg =>
      rw [step_send rs inLoop hf]
      split
      · exact (kept_sendInLoop rs msg).closesEmpty
      · exact .inl rfl
    | sendFile inLoop file =>
      rw [step_sendFile rs inLoop hf]
      split
      · exact .inl rfl
      · split
        · have hnew := kept_newNode (c := c) (.file file)
          split
          · exact (hnew.trans (kept_sendFileInLoop rs (Nat.lt_succ_self _))).closesEmpty
          · exact hnew.closesEmpty
        · exact .inl rfl
    | sendStream inLoop callback =>
      have hnew := kept_newNode (c := c) (.data (.newStreamBufferNode callback))
      rw [step_sendStream rs inLoop hf]
      split
      · exact (hnew.trans (kept_sendStreamInLoop rs (Nat.lt_succ_self _))).closesEmpty
      · exact hnew.closesEmpty
    | sendAsyncStream inLoop disableKickoff =>
      rw [step_sendAsyncStream rs inLoop hf]
      cases inLoop <;> cases disableKickoff <;> exact .inl rfl
    | asyncSend inLoop id data =>
      rw [step_asyncSend rs inLoop hf]
      split
      · exact closesEmpty_streamCallback rs inLoop id (some data)
      · exact .inl rfl
    | asyncClose inLoop id =>
      rw [step_asyncClose rs inLoop hf]
      split
      · exact closesEmpty_streamCallback rs inLoop id none
      · exact .inl rfl
    | shutdown inLoop =>
      rw [step_shutdown rs inLoop hf]
      split
      · exact closesEmpty_shutdownInLoop
      · exact .inl rfl
    | forceClose inLoop =>
      rw [step_forceClose rs inLoop hf]
      split
      · exact closesEmpty_forceCloseInLoop
      · exact .inl rfl
    | runFunc =>
      cases hfs : c.funcs with
      | nil =>
        rw [step_runFunc_nil rs hf hfs]
        exact .inl rfl
      | cons f fs =>
        -- what the closure names is a node that has been made
        have hmem : f ∈ c.funcs := by
          rw [hfs]
          exact List.mem_cons_self
        rw [step_runFunc_cons rs hf hfs]
        exact closesEmpty_call (c := { c with funcs := fs }) rs
          fun id kind hnode => (h.funcs f hmem id kind hnode).1
    | queueDestroyed =>
      rw [step_queueDestroyed rs hf]
      split <;> exact .inl rfl
    | readCallback now ret =>
      -- `handleClose` leaves the write side to the destructor, whatever was read
      rw [step_readCallback rs hf]
      cases ret with
      | bytes data => cases data <;> exact .inl rfl
      | error errno => cases errno <;> exact .inl rfl
    | writeCallback =>
      rw [step_writeCallback rs hf]
      exact (kept_writeCallback rs h.stays_open).closesEmpty
    | closeCallback =>
      rw [step_closeCallback rs hf]
      exact .inl rfl
    | keepAlive =>
      rw [step_keepAlive rs hf]
      exact .inl rfl
    | enableKickingOff timeout =>
      rw [step_enableKickingOff rs hf]
      split <;> exact .inl rfl
    | destroyEntry i =>
      rw [step_destroyEntry rs hf]
      split
      · exact closesEmpty_forceCloseInLoop
          (c := { c with kickoff := (c.kickoff.destroyEntry i).1 })
      · exact .inl rfl

end TcpConnectionImpl

end XiaoNet
