import XiaoNet.Net.WriteLoop

/-!
# What operations leave alone

- `Kept c c'`: sending changes neither the status, the write side of the socket and
  the queued closures, nor the class of a node made before. Every function that sends
  or queues bytes has a lemma `kept_…`.
- `Wired c`: the names in the list, the streams and the queued closures are names of
  nodes of the right class. `wired_step` keeps it over every operation.
-/

namespace XiaoNet

namespace TcpConnectionImpl

/-- What no send changes. -/
structure Kept (c c' : TcpConnectionImpl) : Prop where
  status_eq : c'.status = c.status
  writeClosed_eq : c'.socket.writeClosed = c.socket.writeClosed
  closeOnEmpty_eq : c'.closeOnEmpty = c.closeOnEmpty
  streams_eq : c'.streams = c.streams
  funcs_eq : c'.funcs = c.funcs
  closing_eq : c'.closing = c.closing
  failed_eq : c'.failed = c.failed
  next_le : c.nextNode ≤ c'.nextNode
  kind_eq : ∀ id, id < c.nextNode → (c'.nodes id).kind = (c.nodes id).kind
  list_mem : ∀ id ∈ c'.writeBufferList, id ∈ c.writeBufferList ∨ id < c'.nextNode

variable {c : TcpConnectionImpl}

theorem Kept.refl (c : TcpConnectionImpl) : Kept c c :=
  ⟨rfl, rfl, rfl, rfl, rfl, rfl, rfl, Nat.le_refl _, fun _ _ => rfl, fun _ hx => .inl hx⟩

theorem Kept.trans {c₁ c₂ c₃ : TcpConnectionImpl} (h₁ : Kept c₁ c₂) (h₂ : Kept c₂ c₃) :
    Kept c₁ c₃ where
  status_eq := h₂.status_eq.trans h₁.status_eq
  writeClosed_eq := h₂.writeClosed_eq.trans h₁.writeClosed_eq
  closeOnEmpty_eq := h₂.closeOnEmpty_eq.trans h₁.closeOnEmpty_eq
  streams_eq := h₂.streams_eq.trans h₁.streams_eq
  funcs_eq := h₂.funcs_eq.trans h₁.funcs_eq
  closing_eq := h₂.closing_eq.trans h₁.closing_eq
  failed_eq := h₂.failed_eq.trans h₁.failed_eq
  next_le := Nat.le_trans h₁.next_le h₂.next_le
  kind_eq id hid :=
    (h₂.kind_eq id (Nat.lt_of_lt_of_le hid h₁.next_le)).trans (h₁.kind_eq id hid)
  list_mem id hid := by
    rcases h₂.list_mem id hid with h | h
    · exact (h₁.list_mem id h).imp_right fun hlt => Nat.lt_of_lt_of_le hlt h₂.next_le
    · exact .inr h

theorem Sent.kept {c' : TcpConnectionImpl} {id : NodeId} (h : Sent c c' id) : Kept c c' where
  status_eq := h.status_eq
  writeClosed_eq := by
    have hframe := congrArg (fun c => c.socket.writeClosed) h.frame_eq
    exact hframe
  closeOnEmpty_eq := by
    have hframe := congrArg TcpConnectionImpl.closeOnEmpty h.frame_eq
    exact hframe
  streams_eq := by
    have hframe := congrArg TcpConnectionImpl.streams h.frame_eq
    exact hframe
  funcs_eq := by
    have hframe := congrArg TcpConnectionImpl.funcs h.frame_eq
    exact hframe
  closing_eq := by
    have hframe := congrArg TcpConnectionImpl.closing h.frame_eq
    exact hframe
  failed_eq := by
    have hframe := congrArg TcpConnectionImpl.failed h.frame_eq
    exact hframe
  next_le := by
    have hframe := congrArg TcpConnectionImpl.nextNode h.frame_eq
    exact Nat.le_of_eq hframe.symm
  kind_eq j _ := by
    by_cases hj : j = id
    · rw [hj]
      exact h.kind_eq
    · rw [h.others j hj]
  list_mem j hj := by
    rw [h.list_eq] at hj
    exact .inl hj

theorem Sent.next_eq {c' : TcpConnectionImpl} {id : NodeId} (h : Sent c c' id) :
    c'.nextNode = c.nextNode := by
  have hframe := congrArg TcpConnectionImpl.nextNode h.frame_eq
  exact hframe

theorem kept_pushBack {id : NodeId} (hid : id < c.nextNode) : Kept c (c.pushBack id) := by
  refine ⟨rfl, rfl, rfl, rfl, rfl, rfl, rfl, Nat.le_refl _, fun _ _ => rfl, fun j hj => ?_⟩
  rcases List.mem_append.mp hj with h | h
  · exact .inl h
  · rw [List.mem_singleton.mp h]
    exact .inr hid

theorem kept_newNode (node : BufferNode) : Kept c (c.newNode node) := by
  refine ⟨rfl, rfl, rfl, rfl, rfl, rfl, rfl, Nat.le_succ _, fun id hid => ?_,
    fun _ hx => .inl hx⟩
  exact congrArg BufferNode.kind (Function.update_of_ne (Nat.ne_of_lt hid) _ _)

theorem nodes_newNode_self (node : BufferNode) : (c.newNode node).nodes c.nextNode = node :=
  Function.update_self _ _ _

theorem nodes_newNode_of_lt (node : BufferNode) {id : NodeId} (hid : id < c.nextNode) :
    (c.newNode node).nodes id = c.nodes id :=
  Function.update_of_ne (Nat.ne_of_lt hid) _ _

theorem list_setNode (id : NodeId) (node : BufferNode) :
    (c.setNode id node).writeBufferList = c.writeBufferList := rfl

theorem kept_setNode (id : NodeId) {node : BufferNode} (h : node.kind = (c.nodes id).kind) :
    Kept c (c.setNode id node) :=
  (sent_setNode id h).kept

theorem kept_enableWriting : Kept c c.enableWriting :=
  ⟨rfl, rfl, rfl, rfl, rfl, rfl, rfl, Nat.le_refl _, fun _ _ => rfl, fun _ hx => .inl hx⟩

theorem kept_disableWriting : Kept c { c with ioChannel := c.ioChannel.disableWriting } :=
  ⟨rfl, rfl, rfl, rfl, rfl, rfl, rfl, Nat.le_refl _, fun _ _ => rfl, fun _ hx => .inl hx⟩

theorem kept_kickoff (kickoff : Kickoff) : Kept c { c with kickoff := kickoff } :=
  ⟨rfl, rfl, rfl, rfl, rfl, rfl, rfl, Nat.le_refl _, fun _ _ => rfl, fun _ hx => .inl hx⟩

theorem kept_calls (calls : List UserCall) : Kept c { c with calls := calls } :=
  ⟨rfl, rfl, rfl, rfl, rfl, rfl, rfl, Nat.le_refl _, fun _ _ => rfl, fun _ hx => .inl hx⟩

/-- Taking nodes off the list. -/
theorem kept_list {list : List NodeId} (h : ∀ id ∈ list, id ∈ c.writeBufferList) :
    Kept c { c with writeBufferList := list } :=
  ⟨rfl, rfl, rfl, rfl, rfl, rfl, rfl, Nat.le_refl _, fun _ _ => rfl, fun id hid => .inl (h id hid)⟩

/-! ## Bytes that wait -/

/-- `sendInLoop` for bytes the kernel has not taken. -/
def enqueue (c : TcpConnectionImpl) (data : List Byte) : TcpConnectionImpl :=
  (if c.backIsMem then c
    else (c.newNode (.data .newMemBufferNode)).pushBack c.nextNode).appendBack data

theorem appendBack_nil (data : List Byte) (hlast : c.writeBufferList.getLast? = none) :
    c.appendBack data = c := by
  rw [appendBack, hlast]

/-- Only the last node changes, and the calls of user code. -/
theorem appendBack_eq (data : List Byte) {back : NodeId}
    (hlast : c.writeBufferList.getLast? = some back) :
    ∃ calls, c.appendBack data
      = { c.setNode back ((c.nodes back).append data) with calls := calls } := by
  unfold appendBack
  rw [hlast]
  dsimp only
  generalize c.setNode back ((c.nodes back).append data) = c'
  split
  · split
    · exact ⟨_, rfl⟩
    · exact ⟨c'.calls, rfl⟩
  · exact ⟨c'.calls, rfl⟩

/-- What does not look at the nodes and the calls is as before. -/
theorem appendBack_same {β : Type} (get : TcpConnectionImpl → β) (data : List Byte)
    (hget : ∀ c nodes calls, get { c with nodes := nodes, calls := calls } = get c) :
    get (c.appendBack data) = get c := by
  cases hlast : c.writeBufferList.getLast? with
  | none => rw [appendBack_nil data hlast]
  | some back =>
    obtain ⟨calls, heq⟩ := appendBack_eq data hlast
    rw [heq]
    exact hget c _ calls

theorem kept_appendBack (data : List Byte) : Kept c (c.appendBack data) := by
  cases hlast : c.writeBufferList.getLast? with
  | none =>
    rw [appendBack_nil data hlast]
    exact .refl c
  | some back =>
    obtain ⟨calls, heq⟩ := appendBack_eq data hlast
    rw [heq]
    have hset := kept_setNode (c := c) back (BufferNode.kind_append (c.nodes back) data)
    exact hset.trans (kept_calls calls)

theorem list_appendBack (data : List Byte) :
    (c.appendBack data).writeBufferList = c.writeBufferList :=
  appendBack_same TcpConnectionImpl.writeBufferList data fun _ _ _ => rfl

theorem nodes_appendBack_of_ne (data : List Byte) {id : NodeId}
    (hid : c.writeBufferList.getLast? ≠ some id) : (c.appendBack data).nodes id = c.nodes id := by
  cases hlast : c.writeBufferList.getLast? with
  | none => rw [appendBack_nil data hlast]
  | some back =>
    obtain ⟨calls, heq⟩ := appendBack_eq data hlast
    rw [heq]
    exact Function.update_of_ne (fun h => hid (by rw [hlast, h])) _ _

theorem backIsMem_iff :
    c.backIsMem = true ↔
      ∃ back, c.writeBufferList.getLast? = some back ∧ (c.nodes back).kind = .mem := by
  unfold backIsMem
  cases c.writeBufferList.getLast? with
  | none => simp
  | some back =>
    rw [Bool.not_eq_true', BufferNode.isMem_iff]
    simp

theorem kept_enqueue (data : List Byte) : Kept c (c.enqueue data) := by
  unfold enqueue
  split
  · exact kept_appendBack data
  · have hpush := kept_pushBack (c := c.newNode (.data .newMemBufferNode)) (Nat.lt_succ_self _)
    exact ((kept_newNode _).trans hpush).trans (kept_appendBack data)

theorem ioChannel_enqueue (data : List Byte) : (c.enqueue data).ioChannel = c.ioChannel := by
  unfold enqueue
  rw [appendBack_same TcpConnectionImpl.ioChannel data fun _ _ _ => rfl]
  split <;> rfl

theorem socket_enqueue (data : List Byte) : (c.enqueue data).socket = c.socket := by
  unfold enqueue
  rw [appendBack_same TcpConnectionImpl.socket data fun _ _ _ => rfl]
  split <;> rfl

theorem bytesSent_enqueue (data : List Byte) : (c.enqueue data).bytesSent = c.bytesSent := by
  unfold enqueue
  rw [appendBack_same TcpConnectionImpl.bytesSent data fun _ _ _ => rfl]
  split <;> rfl

/-- The list grows by a new node or not at all. -/
theorem list_enqueue (data : List Byte) :
    (c.enqueue data).writeBufferList
      = if c.backIsMem then c.writeBufferList else c.writeBufferList ++ [c.nextNode] := by
  unfold enqueue
  rw [list_appendBack]
  split <;> rfl

/-- A node that was there and takes no bytes of `send` is as it was. -/
theorem nodes_enqueue (data : List Byte) {id : NodeId} (hid : id < c.nextNode)
    (hkind : (c.nodes id).kind ≠ .mem) : (c.enqueue data).nodes id = c.nodes id := by
  unfold enqueue
  split
  · rename_i hback
    obtain ⟨back, hlast, hmem⟩ := backIsMem_iff.mp hback
    refine nodes_appendBack_of_ne data fun h => hkind ?_
    rw [hlast, Option.some.injEq] at h
    rw [← h]
    exact hmem
  · refine (nodes_appendBack_of_ne data ?_).trans (nodes_newNode_of_lt _ hid)
    show (c.writeBufferList ++ [c.nextNode]).getLast? ≠ some id
    rw [List.getLast?_concat]
    exact fun h => Nat.ne_of_lt hid (Option.some.inj h).symm

/-! ## Functions that send -/

theorem sendInLoop_of_not_connected (rs : List SysRet) (buffer : List Byte)
    (h : c.status ≠ .connected) : c.sendInLoop rs buffer = c := by
  rw [sendInLoop, if_pos h]

/-- Nothing waits: the bytes go to the kernel and what it leaves waits. -/
theorem sendInLoop_direct (rs : List SysRet) (buffer : List Byte) (h : c.status = .connected)
    (hw : c.ioChannel.isWriting = false) (hl : c.writeBufferList = []) :
    c.sendInLoop rs buffer =
      if accepted (rs.headD .again) buffer = buffer.length then
        c.wrote (rs.headD .again) buffer
      else (c.wrote (rs.headD .again) buffer).enqueue
        (buffer.drop (accepted (rs.headD .again) buffer)) := by
  have hle := accepted_le (rs.headD .again) buffer
  have hstatus : (c.wrote (rs.headD .again) buffer).status = .connected :=
    (sent_wrote (rs.headD .again) buffer 0).status_eq.trans h
  unfold sendInLoop
  rw [if_neg (not_not_intro h), hw, hl]
  simp only [Bool.not_false, List.isEmpty_nil, Bool.and_self, if_true, writeInLoop, writeRaw_eq]
  generalize c.wrote (rs.headD .again) buffer = c' at hstatus ⊢
  generalize accepted (rs.headD .again) buffer = n at hle ⊢
  rw [if_neg (Int.not_lt.mpr (Int.natCast_nonneg n)), Int.toNat_natCast, List.length_drop]
  by_cases hall : n = buffer.length
  · rw [if_pos hall, if_neg (by omega)]
  · rw [if_neg hall, if_pos ⟨by omega, hstatus⟩]
    rfl

/-- Something waits: the bytes wait too. -/
theorem sendInLoop_queued (rs : List SysRet) (buffer : List Byte) (h : c.status = .connected)
    (hwait : c.ioChannel.isWriting = true ∨ c.writeBufferList ≠ []) :
    c.sendInLoop rs buffer = if buffer = [] then c else c.enqueue buffer := by
  have hbusy : (!c.ioChannel.isWriting && c.writeBufferList.isEmpty) = false := by
    rcases hwait with hw | hne
    · rw [hw]
      rfl
    · rw [List.isEmpty_eq_false_iff.mpr hne, Bool.and_false]
  unfold sendInLoop
  rw [if_neg (not_not_intro h), hbusy]
  cases buffer with
  | nil => rfl
  | cons b bs =>
    rw [if_neg (List.cons_ne_nil b bs)]
    simp only [Bool.false_eq_true, if_false]
    rw [if_neg (by decide), Int.toNat_zero, List.drop_zero,
      if_pos ⟨Nat.succ_pos _, h⟩]
    rfl

theorem kept_sendInLoop (rs : List SysRet) (buffer : List Byte) :
    Kept c (c.sendInLoop rs buffer) := by
  by_cases h : c.status = .connected
  · by_cases hwait : c.ioChannel.isWriting = true ∨ c.writeBufferList ≠ []
    · rw [sendInLoop_queued rs buffer h hwait]
      split
      · exact .refl c
      · exact kept_enqueue buffer
    · obtain ⟨hw, hl⟩ := not_or.mp hwait
      rw [sendInLoop_direct rs buffer h (Bool.eq_false_iff.mpr hw) (not_not.mp hl)]
      have hwrote := (sent_wrote (c := c) (rs.headD .again) buffer 0).kept
      split
      · exact hwrote
      · exact hwrote.trans (kept_enqueue _)
  · rw [sendInLoop_of_not_connected rs buffer h]
    exact .refl c

/-- Send a node at once and keep it for what is left. -/
def sendOrPush (c : TcpConnectionImpl) (rs : List SysRet) (id : NodeId) : TcpConnectionImpl :=
  if (c.sendNodeInLoop rs id).1.remainingBytes id > 0 ∧ (c.sendNodeInLoop rs id).2.1 ≥ 0 then
    (c.sendNodeInLoop rs id).1.pushBack id
  else (c.sendNodeInLoop rs id).1

theorem sendFileInLoop_eq (rs : List SysRet) (id : NodeId) :
    c.sendFileInLoop rs id =
      if c.writeBufferList = [] then c.sendOrPush rs id else c.pushBack id := by
  unfold sendFileInLoop
  cases c.writeBufferList <;> rfl

theorem sendStreamQueued_eq (rs : List SysRet) (id : NodeId) :
    c.sendStreamQueued rs id = c.sendFileInLoop rs id := rfl

theorem sendStreamInLoop_eq (rs : List SysRet) (id : NodeId) :
    c.sendStreamInLoop rs id =
      if c.writeBufferList = [] then c.sendOrPush rs id else c := by
  unfold sendStreamInLoop
  cases c.writeBufferList <;> rfl

theorem sendAsyncStreamQueued_eq (rs : List SysRet) (id : NodeId) (disableKickoff : Bool) :
    c.sendAsyncStreamQueued rs id disableKickoff =
      let c := if disableKickoff then c.disableKickoff else c
      if c.writeBufferList = [] ∧ c.remainingBytes id > 0 then
        if (c.sendNodeInLoop rs id).2.1 ≥ 0 ∧ ((c.sendNodeInLoop rs id).1.remainingBytes id > 0 ∨
            ((c.sendNodeInLoop rs id).1.nodes id).available = true) then
          (c.sendNodeInLoop rs id).1.pushBack id
        else (c.sendNodeInLoop rs id).1
      else c.pushBack id := by
  unfold sendAsyncStreamQueued
  generalize (if disableKickoff then c.disableKickoff else c) = c'
  simp only [List.isEmpty_iff]

theorem kept_sendOrPush (rs : List SysRet) {id : NodeId} (hid : id < c.nextNode) :
    Kept c (c.sendOrPush rs id) := by
  have hsent := c.sendNode_sent rs id
  unfold sendOrPush
  split
  · exact hsent.kept.trans (kept_pushBack (by rw [hsent.next_eq]; exact hid))
  · exact hsent.kept

theorem kept_sendFileInLoop (rs : List SysRet) {id : NodeId} (hid : id < c.nextNode) :
    Kept c (c.sendFileInLoop rs id) := by
  rw [sendFileInLoop_eq]
  split
  · exact kept_sendOrPush rs hid
  · exact kept_pushBack hid

theorem kept_sendStreamInLoop (rs : List SysRet) {id : NodeId} (hid : id < c.nextNode) :
    Kept c (c.sendStreamInLoop rs id) := by
  rw [sendStreamInLoop_eq]
  split
  · exact kept_sendOrPush rs hid
  · exact .refl c

theorem kept_disableKickoff (disableKickoff : Bool) :
    Kept c (if disableKickoff then c.disableKickoff else c) := by
  cases disableKickoff with
  | true => exact kept_kickoff _
  | false => exact .refl c

theorem kept_sendAsyncStreamInLoop {id : NodeId} (disableKickoff : Bool)
    (hid : id < c.nextNode) : Kept c (c.sendAsyncStreamInLoop id disableKickoff) := by
  have hkick := kept_disableKickoff (c := c) disableKickoff
  exact hkick.trans (kept_pushBack (Nat.lt_of_lt_of_le hid hkick.next_le))

theorem kept_sendAsyncStreamQueued (rs : List SysRet) {id : NodeId} (disableKickoff : Bool)
    (hid : id < c.nextNode) : Kept c (c.sendAsyncStreamQueued rs id disableKickoff) := by
  have hkick := kept_disableKickoff (c := c) disableKickoff
  rw [sendAsyncStreamQueued_eq]
  generalize (if disableKickoff then c.disableKickoff else c) = c' at hkick ⊢
  have hid' : id < c'.nextNode := Nat.lt_of_lt_of_le hid hkick.next_le
  have hsent := c'.sendNode_sent rs id
  dsimp only
  split
  · split
    · exact (hkick.trans hsent.kept).trans (kept_pushBack (by rw [hsent.next_eq]; exact hid'))
    · exact hkick.trans hsent.kept
  · exact hkick.trans (kept_pushBack hid')

/-! ## Data of an async stream -/

theorem sendAsyncData_nil (rs : List SysRet) (id : NodeId) :
    c.sendAsyncDataInLoop rs id (some []) = c := rfl

/-- The stream is in front and nothing of it waits: its data goes to the kernel. -/
theorem sendAsyncData_front (rs : List SysRet) {id : NodeId} {data : List Byte}
    (hdata : data ≠ []) (hfront : c.writeBufferList.head? = some id ∧ c.remainingBytes id = 0) :
    c.sendAsyncDataInLoop rs id (some data) =
      if accepted (rs.headD .again) data = data.length then c.wrote (rs.headD .again) data
      else (c.wrote (rs.headD .again) data).setNode id
        ((c.nodes id).append (data.drop (accepted (rs.headD .again) data))) := by
  have hle := accepted_le (rs.headD .again) data
  have hnode : (c.wrote (rs.headD .again) data).nodes id = c.nodes id := by rw [nodes_wrote]
  have hpos : data.length > 0 := List.length_pos_iff.mpr hdata
  unfold sendAsyncDataInLoop
  dsimp only
  rw [if_pos hpos, if_pos hfront]
  simp only [writeInLoop, writeRaw_eq]
  rw [if_neg (Int.not_lt.mpr (Int.natCast_nonneg _)), Int.toNat_natCast, hnode]
  by_cases hall : accepted (rs.headD .again) data = data.length
  · rw [if_pos hall, if_neg (Nat.not_lt.mpr (Nat.le_of_eq hall.symm))]
  · rw [if_neg hall, if_pos (Nat.lt_of_le_of_ne hle hall)]

/-- Otherwise the data waits in the node. -/
theorem sendAsyncData_behind (rs : List SysRet) {id : NodeId} {data : List Byte}
    (hdata : data ≠ [])
    (hfront : ¬ (c.writeBufferList.head? = some id ∧ c.remainingBytes id = 0)) :
    c.sendAsyncDataInLoop rs id (some data) = c.setNode id ((c.nodes id).append data) := by
  have hpos : data.length > 0 := List.length_pos_iff.mpr hdata
  unfold sendAsyncDataInLoop
  dsimp only
  rw [if_pos hpos, if_neg hfront]

/-- The node of a stream that is closed; in front it is waited for. -/
def closeNode (c : TcpConnectionImpl) (id : NodeId) : TcpConnectionImpl :=
  if c.writeBufferList.head? = some id ∧ c.ioChannel.isWriting = false then
    (c.setNode id (c.nodes id).done).enableWriting
  else c.setNode id (c.nodes id).done

theorem sendAsyncData_close (rs : List SysRet) (id : NodeId) :
    c.sendAsyncDataInLoop rs id none =
      { c.closeNode id with kickoff := c.kickoff.restoreKickoff } := by
  unfold sendAsyncDataInLoop closeNode
  dsimp only
  by_cases hfront : c.writeBufferList.head? = some id ∧ c.ioChannel.isWriting = false
  · have hcond : (c.setNode id (c.nodes id).done).writeBufferList.head? = some id ∧
        (!(c.setNode id (c.nodes id).done).ioChannel.isWriting) = true :=
      ⟨hfront.1, by rw [Bool.not_eq_true']; exact hfront.2⟩
    rw [if_pos hcond, if_pos hfront]
    rfl
  · have hcond : ¬ ((c.setNode id (c.nodes id).done).writeBufferList.head? = some id ∧
        (!(c.setNode id (c.nodes id).done).ioChannel.isWriting) = true) :=
      fun h => hfront ⟨h.1, by rw [← Bool.not_eq_true']; exact h.2⟩
    rw [if_neg hcond, if_neg hfront]
    rfl

theorem kept_closeNode (id : NodeId) : Kept c (c.closeNode id) := by
  have hdone := kept_setNode (c := c) id (BufferNode.kind_done (c.nodes id))
  unfold closeNode
  split
  · exact hdone.trans kept_enableWriting
  · exact hdone

theorem kept_sendAsyncDataInLoop (rs : List SysRet) (id : NodeId) (data : Option (List Byte)) :
    Kept c (c.sendAsyncDataInLoop rs id data) := by
  cases data with
  | none =>
    rw [sendAsyncData_close]
    exact (kept_closeNode id).trans (kept_kickoff _)
  | some data =>
    by_cases hdata : data = []
    · rw [hdata, sendAsyncData_nil]
      exact .refl c
    · by_cases hfront : c.writeBufferList.head? = some id ∧ c.remainingBytes id = 0
      · rw [sendAsyncData_front rs hdata hfront]
        have hwrote := (sent_wrote (c := c) (rs.headD .again) data id).kept
        split
        · exact hwrote
        · exact hwrote.trans (kept_setNode id (BufferNode.kind_append _ _))
      · rw [sendAsyncData_behind rs hdata hfront]
        exact kept_setNode id (BufferNode.kind_append _ _)

/-- `writeCallback`, while `closeOnEmpty_` is off. -/
theorem kept_writeCallback (rs : List SysRet) (hclose : c.closeOnEmpty = false) :
    Kept c (c.writeCallback rs) := by
  cases hw : c.ioChannel.isWriting with
  | false =>
    rw [writeCallback_of_not_writing rs hw]
    exact .refl c
  | true =>
    have hpop : ∀ c' id rest, Kept c c' → c'.writeBufferList = id :: rest →
        c'.remainingBytes id = 0 → (!(c'.nodes id).isAsync || !(c'.nodes id).available) = true →
        Kept c { c' with writeBufferList := rest } := by
      intro c' id rest hk hlist _ _
      refine hk.trans (kept_list fun j hj => ?_)
      rw [hlist]
      exact List.mem_cons_of_mem id hj
    have hsend : ∀ c' rs id rest, Kept c c' → c'.writeBufferList = id :: rest →
        c'.remainingBytes id ≠ 0 → Kept c (c'.sendNodeInLoop rs id).1 :=
      fun c' rs id _ hk _ _ => hk.trans (c'.sendNode_sent rs id).kept
    obtain ⟨c', hk, ⟨heq, -⟩ | ⟨heq, -⟩⟩ := writeCallback_rule hpop hsend
      (fun c' hk => hk.closeOnEmpty_eq.trans hclose) rs (.refl c) hw
    · rw [heq]
      exact hk.trans kept_disableWriting
    · rw [heq]
      exact hk

/-! ## Names of nodes -/

/-- The class of the node a queued closure holds. -/
def Func.node : Func → Option (NodeId × Kind)
  | .sendFile id => some (id, .file)
  | .sendStream id => some (id, .stream)
  | .sendAsyncStream id _ => some (id, .async)
  | .sendAsyncData id _ => some (id, .async)
  | .sendInLoop _ | .shutdown | .forceClose | .connectDestroyed => none

/-- Names of nodes in the list, the streams and the queued closures are names of nodes
that were made, of the right class; and `closeOnEmpty_` is off, as no function sets it. -/
structure Wired (c : TcpConnectionImpl) : Prop where
  list_lt : ∀ id ∈ c.writeBufferList, id < c.nextNode
  streams : ∀ id ∈ c.streams, id < c.nextNode ∧ (c.nodes id).kind = .async
  funcs : ∀ f ∈ c.funcs, ∀ id kind, Func.node f = some (id, kind) →
    id < c.nextNode ∧ (c.nodes id).kind = kind
  stays_open : c.closeOnEmpty = false

theorem Wired.of_kept {c' : TcpConnectionImpl} (h : c.Wired) (hk : Kept c c') : c'.Wired where
  list_lt id hid := by
    rcases hk.list_mem id hid with hold | hlt
    · exact Nat.lt_of_lt_of_le (h.list_lt id hold) hk.next_le
    · exact hlt
  streams id hid := by
    rw [hk.streams_eq] at hid
    obtain ⟨hlt, hkind⟩ := h.streams id hid
    exact ⟨Nat.lt_of_lt_of_le hlt hk.next_le, (hk.kind_eq id hlt).trans hkind⟩
  funcs f hf id kind hnode := by
    rw [hk.funcs_eq] at hf
    obtain ⟨hlt, hkind⟩ := h.funcs f hf id kind hnode
    exact ⟨Nat.lt_of_lt_of_le hlt hk.next_le, (hk.kind_eq id hlt).trans hkind⟩
  stays_open := hk.closeOnEmpty_eq.trans h.stays_open

/-- What does not touch the nodes. -/
theorem Wired.of_fields {c' : TcpConnectionImpl} (h : c.Wired)
    (hlist : c'.writeBufferList = c.writeBufferList) (hnodes : c'.nodes = c.nodes)
    (hnext : c'.nextNode = c.nextNode) (hclose : c'.closeOnEmpty = c.closeOnEmpty)
    (hstreams : ∀ id ∈ c'.streams, id ∈ c.streams)
    (hfuncs : ∀ f ∈ c'.funcs, f ∈ c.funcs ∨ Func.node f = none) : c'.Wired where
  list_lt id hid := by
    rw [hlist] at hid
    rw [hnext]
    exact h.list_lt id hid
  streams id hid := by
    rw [hnodes, hnext]
    exact h.streams id (hstreams id hid)
  funcs f hf id kind hnode := by
    rw [hnodes, hnext]
    rcases hfuncs f hf with hold | hnone
    · exact h.funcs f hold id kind hnode
    · rw [hnone] at hnode
      cases hnode
  stays_open := hclose.trans h.stays_open

theorem Wired.queue (h : c.Wired) {f : Func}
    (hf : ∀ id kind, Func.node f = some (id, kind) →
      id < c.nextNode ∧ (c.nodes id).kind = kind) : (c.queue f).Wired where
  list_lt := h.list_lt
  streams := h.streams
  funcs g hg id kind hnode := by
    rcases List.mem_append.mp hg with hold | hnew
    · exact h.funcs g hold id kind hnode
    · rw [List.mem_singleton.mp hnew] at hnode
      exact hf id kind hnode
  stays_open := h.stays_open

/-- A new stream. -/
theorem Wired.stream (h : c.Wired) {id : NodeId} (hlt : id < c.nextNode)
    (hkind : (c.nodes id).kind = .async) : ({ c with streams := c.streams ++ [id] }).Wired where
  list_lt := h.list_lt
  streams j hj := by
    rcases List.mem_append.mp hj with hold | hnew
    · exact h.streams j hold
    · rw [List.mem_singleton.mp hnew]
      exact ⟨hlt, hkind⟩
  funcs := h.funcs
  stays_open := h.stays_open

/-- A new node and a closure that holds it. -/
theorem Wired.newNode (h : c.Wired) (node : BufferNode) : (c.newNode node).Wired :=
  h.of_kept (kept_newNode node)

theorem Wired.tail_funcs (h : c.Wired) {f : Func} {fs : List Func} (hfs : c.funcs = f :: fs) :
    ({ c with funcs := fs }).Wired := by
  refine h.of_fields rfl rfl rfl rfl (fun _ hid => hid) fun g hg => .inl ?_
  rw [hfs]
  exact List.mem_cons_of_mem f hg

/-- A queued closure that holds no node, or a node of the right class, can run. -/
theorem kept_call (rs : List SysRet) (f : Func)
    (hnode : ∀ id kind, Func.node f = some (id, kind) → id < c.nextNode)
    (hsends : f ≠ .shutdown ∧ f ≠ .forceClose ∧ f ≠ .connectDestroyed) : Kept c (c.call rs f) := by
  cases f with
  | sendInLoop msg => exact kept_sendInLoop rs msg
  | sendFile id => exact kept_sendFileInLoop rs (hnode id _ rfl)
  | sendStream id => exact kept_sendFileInLoop rs (hnode id _ rfl)
  | sendAsyncStream id disableKickoff =>
    exact kept_sendAsyncStreamQueued rs disableKickoff (hnode id _ rfl)
  | sendAsyncData id data => exact kept_sendAsyncDataInLoop rs id data
  | shutdown => exact absurd rfl hsends.1
  | forceClose => exact absurd rfl hsends.2.1
  | connectDestroyed => exact absurd rfl hsends.2.2

/-! ## Closing keeps the names -/

theorem wired_shutdownInLoop (h : c.Wired) : c.shutdownInLoop.Wired := by
  unfold shutdownInLoop
  split
  · split
    · exact h
    · dsimp only
      split <;> exact h.of_fields rfl rfl rfl rfl (fun _ hid => hid) fun _ hf => .inl hf
  · exact h

theorem wired_handleClose (h : c.Wired) : c.handleClose.Wired :=
  h.of_fields rfl rfl rfl rfl (fun _ hid => hid) fun _ hf => .inl hf

theorem wired_forceCloseInLoop (h : c.Wired) : c.forceCloseInLoop.Wired := by
  unfold forceCloseInLoop
  split
  · exact h.of_fields rfl rfl rfl rfl (fun _ hid => hid) fun _ hf => .inl hf
  · exact h

theorem wired_connectDestroyed (h : c.Wired) : c.connectDestroyed.Wired := by
  unfold connectDestroyed
  dsimp only
  split <;> exact h.of_fields rfl rfl rfl rfl (fun _ hid => hid) fun _ hf => .inl hf

theorem wired_call (h : c.Wired) (rs : List SysRet) (f : Func)
    (hnode : ∀ id kind, Func.node f = some (id, kind) → id < c.nextNode) :
    (c.call rs f).Wired := by
  cases f with
  | shutdown => exact wired_shutdownInLoop h
  | forceClose => exact wired_forceCloseInLoop h
  | connectDestroyed => exact wired_connectDestroyed h
  | sendInLoop msg => exact h.of_kept (kept_call rs _ hnode (by simp))
  | sendFile id => exact h.of_kept (kept_call rs _ hnode (by simp))
  | sendStream id => exact h.of_kept (kept_call rs _ hnode (by simp))
  | sendAsyncStream id disableKickoff => exact h.of_kept (kept_call rs _ hnode (by simp))
  | sendAsyncData id data => exact h.of_kept (kept_call rs _ hnode (by simp))

theorem wired_streamCallback (h : c.Wired) (rs : List SysRet) (inLoop : Bool) {id : NodeId}
    (hid : id ∈ c.streams) (data : Option (List Byte)) :
    (c.streamCallback rs inLoop id data).Wired := by
  unfold streamCallback
  split
  · exact h
  · split
    · exact h.of_kept (kept_sendAsyncDataInLoop rs id data)
    · refine h.queue fun j kind hj => ?_
      cases hj
      exact h.streams id hid

theorem wired_readCallback (h : c.Wired) (now : Nat) (ret : ReadRet) :
    (c.readCallback now ret).Wired := by
  have hclose := wired_handleClose h
  cases ret with
  | error errno =>
    cases errno <;> first | exact h | exact hclose
  | bytes data =>
    cases data with
    | nil => exact hclose.of_fields rfl rfl rfl rfl (fun _ hid => hid) fun _ hf => .inl hf
    | cons b bs => exact h.of_fields rfl rfl rfl rfl (fun _ hid => hid) fun _ hf => .inl hf

/-! ## One step

What a step is, operation by operation, while no assertion has failed. -/

/-- The node of a stream that is opened, and the stream. -/
def newStream (c : TcpConnectionImpl) : TcpConnectionImpl :=
  { c.newNode (.data .newAsyncStreamBufferNode) with streams := c.streams ++ [c.nextNode] }

section Step

variable (rs : List SysRet) (inLoop : Bool)

theorem step_failed (hf : c.failed = true) (op : Op) : c.step (op, rs) = c := by
  unfold step
  exact if_pos hf

variable (hf : c.failed = false)

include hf

theorem step_send (msg : List Byte) :
    c.step (.send inLoop msg, rs) =
      if inLoop then c.sendInLoop rs msg else c.queue (.sendInLoop msg) := by
  rw [step, if_neg (by simp [hf])]

theorem step_sendFile (file : FileBufferNode) :
    c.step (.sendFile inLoop file, rs) =
      if file.sendFd.isNone then c
      else if file.remainingBytes > 0 then
        if inLoop then (c.newNode (.file file)).sendFileInLoop rs c.nextNode
        else (c.newNode (.file file)).queue (.sendFile c.nextNode)
      else c.assert false := by
  rw [step, if_neg (by simp [hf])]

theorem step_sendStream (callback : Nat → List Byte) :
    c.step (.sendStream inLoop callback, rs) =
      if inLoop then
        (c.newNode (.data (.newStreamBufferNode callback))).sendStreamInLoop rs c.nextNode
      else (c.newNode (.data (.newStreamBufferNode callback))).queue (.sendStream c.nextNode) := by
  rw [step, if_neg (by simp [hf])]

theorem step_sendAsyncStream (disableKickoff : Bool) :
    c.step (.sendAsyncStream inLoop disableKickoff, rs) =
      if inLoop then c.newStream.sendAsyncStreamInLoop c.nextNode disableKickoff
      else c.newStream.queue (.sendAsyncStream c.nextNode disableKickoff) := by
  rw [step, if_neg (by simp [hf])]
  rfl

theorem step_asyncSend (id : NodeId) (data : List Byte) :
    c.step (.asyncSend inLoop id data, rs) =
      if id ∈ c.streams then c.streamCallback rs inLoop id (some data) else c := by
  rw [step, if_neg (by simp [hf])]

theorem step_asyncClose (id : NodeId) :
    c.step (.asyncClose inLoop id, rs) =
      if id ∈ c.streams then
        { c.streamCallback rs inLoop id none with
          streams := (c.streamCallback rs inLoop id none).streams.filter (· ≠ id) }
      else c := by
  rw [step, if_neg (by simp [hf])]

theorem step_shutdown :
    c.step (.shutdown inLoop, rs) =
      if inLoop then c.shutdownInLoop else c.queue .shutdown := by
  rw [step, if_neg (by simp [hf])]

theorem step_forceClose :
    c.step (.forceClose inLoop, rs) =
      if inLoop then c.forceCloseInLoop else c.queue .forceClose := by
  rw [step, if_neg (by simp [hf])]

theorem step_runFunc_nil (hfs : c.funcs = []) : c.step (.runFunc, rs) = c := by
  rw [step, if_neg (by simp [hf])]
  simp only [hfs]

theorem step_runFunc_cons {f : Func} {fs : List Func} (hfs : c.funcs = f :: fs) :
    c.step (.runFunc, rs) = ({ c with funcs := fs }).call rs f := by
  rw [step, if_neg (by simp [hf])]
  simp only [hfs]

theorem step_queueDestroyed :
    c.step (.queueDestroyed, rs) =
      if c.closing > 0 then ({ c with closing := c.closing - 1 }).queue .connectDestroyed
      else c := by
  rw [step, if_neg (by simp [hf])]

theorem step_readCallback (now : Nat) (ret : ReadRet) :
    c.step (.readCallback now ret, rs) = c.readCallback now ret := by
  rw [step, if_neg (by simp [hf])]

theorem step_writeCallback : c.step (.writeCallback, rs) = c.writeCallback rs := by
  rw [step, if_neg (by simp [hf])]

theorem step_closeCallback : c.step (.closeCallback, rs) = c.handleClose := by
  rw [step, if_neg (by simp [hf])]

theorem step_keepAlive :
    c.step (.keepAlive, rs) = { c with kickoff := c.kickoff.keepAlive } := by
  rw [step, if_neg (by simp [hf])]

theorem step_enableKickingOff (timeout : Nat) :
    c.step (.enableKickingOff timeout, rs) =
      if timeout > 0 then { c with kickoff := c.kickoff.enableKickingOff timeout }
      else c.assert false := by
  rw [step, if_neg (by simp [hf])]

theorem step_destroyEntry (i : Nat) :
    c.step (.destroyEntry i, rs) =
      if (c.kickoff.destroyEntry i).2 then
        ({ c with kickoff := (c.kickoff.destroyEntry i).1 }).forceCloseInLoop
      else { c with kickoff := (c.kickoff.destroyEntry i).1 } := by
  rw [step, if_neg (by simp [hf])]

end Step

theorem wired_assert (h : c.Wired) (p : Bool) : (c.assert p).Wired :=
  h.of_fields rfl rfl rfl rfl (fun _ hid => hid) fun _ hf => .inl hf

theorem kind_newNode_self (node : BufferNode) :
    ((c.newNode node).nodes c.nextNode).kind = node.kind :=
  congrArg BufferNode.kind (nodes_newNode_self node)

/-- A node and a closure that holds it. -/
theorem wired_newNode_queue (h : c.Wired) (node : BufferNode) {f : Func}
    (hf : Func.node f = some (c.nextNode, node.kind)) : ((c.newNode node).queue f).Wired := by
  refine (h.newNode node).queue fun j kind hj => ?_
  rw [hf] at hj
  cases hj
  exact ⟨Nat.lt_succ_self _, kind_newNode_self node⟩

theorem wired_newStream (h : c.Wired) : c.newStream.Wired :=
  (h.newNode _).stream (Nat.lt_succ_self _) (kind_newNode_self _)

/-- Every operation keeps the names. -/
theorem wired_step (h : c.Wired) (op : Op) (rs : List SysRet) :
    (c.step (op, rs)).Wired := by
  cases hf : c.failed with
  | true =>
    -- an assertion has failed, and nothing runs any more
    rw [step_failed rs hf]
    exact h
  | false =>
    -- what keeps the frame keeps the wiring; a queued closure brings its own node
    cases op with
    | send inLoop msg =>
      rw [step_send rs inLoop hf]
      cases inLoop with
      | true => exact h.of_kept (kept_sendInLoop rs msg)
      | false => exact h.queue fun _ _ hj => nomatch hj
    | sendFile inLoop file =>
      -- the node is made before the closure that is to send it
      rw [step_sendFile rs inLoop hf]
      split
      · exact h
      · split
        · cases inLoop with
          | true => exact (h.newNode _).of_kept (kept_sendFileInLoop rs (Nat.lt_succ_self _))
          | false => exact wired_newNode_queue h _ rfl
        · exact wired_assert h false
    | sendStream inLoop callback =>
      rw [step_sendStream rs inLoop hf]
      cases inLoop with
      | true => exact (h.newNode _).of_kept (kept_sendStreamInLoop rs (Nat.lt_succ_self _))
      | false => exact wired_newNode_queue h _ rfl
    | sendAsyncStream inLoop disableKickoff =>
      rw [step_sendAsyncStream rs inLoop hf]
      have hstream := wired_newStream h
      cases inLoop with
      | true =>
        exact hstream.of_kept (kept_sendAsyncStreamInLoop disableKickoff (Nat.lt_succ_self _))
      | false =>
        refine hstream.queue fun j kind hj => ?_
        cases hj
        exact ⟨Nat.lt_succ_self _, kind_newNode_self _⟩
    | asyncSend inLoop id data =>
      rw [step_asyncSend rs inLoop hf]
      split
      · rename_i hid
        exact wired_streamCallback h rs inLoop hid (some data)
      · exact h
    | asyncClose inLoop id =>
      -- one stream less
      rw [step_asyncClose rs inLoop hf]
      split
      · rename_i hid
        refine (wired_streamCallback h rs inLoop hid none).of_fields rfl rfl rfl rfl
          (fun j hj => ?_) fun _ hf => .inl hf
        exact (List.mem_filter.mp hj).1
      · exact h
    | shutdown inLoop =>
      rw [step_shutdown rs inLoop hf]
      cases inLoop with
      | true => exact wired_shutdownInLoop h
      | false => exact h.queue fun _ _ hj => nomatch hj
    | forceClose inLoop =>
      rw [step_forceClose rs inLoop hf]
      cases inLoop with
      | true => exact wired_forceCloseInLoop h
      | false => exact h.queue fun _ _ hj => nomatch hj
    | runFunc =>
      -- what the closure is about was wired when it was queued
      cases hfs : c.funcs with
      | nil =>
        rw [step_runFunc_nil rs hf hfs]
        exact h
      | cons f fs =>
        rw [step_runFunc_cons rs hf hfs]
        refine wired_call (h.tail_funcs hfs) rs f fun id kind hnode => ?_
        exact (h.funcs f (by rw [hfs]; exact List.mem_cons_self) id kind hnode).1
    | queueDestroyed =>
      rw [step_queueDestroyed rs hf]
      split
      · have hclosing : ({ c with closing := c.closing - 1 }).Wired :=
          h.of_fields rfl rfl rfl rfl (fun _ hid => hid) fun _ hf => .inl hf
        exact hclosing.queue fun _ _ hj => nomatch hj
      · exact h
    | readCallback now ret =>
      rw [step_readCallback rs hf]
      exact wired_readCallback h now ret
    | writeCallback =>
      rw [step_writeCallback rs hf]
      exact h.of_kept (kept_writeCallback rs h.stays_open)
    | closeCallback =>
      rw [step_closeCallback rs hf]
      exact wired_handleClose h
    | keepAlive =>
      rw [step_keepAlive rs hf]
      exact h.of_kept (kept_kickoff _)
    | enableKickingOff timeout =>
      rw [step_enableKickingOff rs hf]
      split
      · exact h.of_kept (kept_kickoff _)
      · exact wired_assert h false
    | destroyEntry i =>
      have hkick := h.of_kept (kept_kickoff (c.kickoff.destroyEntry i).1)
      rw [step_destroyEntry rs hf]
      split
      · exact wired_forceCloseInLoop hkick
      · exact hkick

theorem wired_established (highWaterMark : Option Nat) (kickoff : Kickoff) :
    (established highWaterMark kickoff).Wired where
  list_lt _ hid := nomatch hid
  streams _ hid := nomatch hid
  funcs _ hf := nomatch hf
  stays_open := rfl

end TcpConnectionImpl

end XiaoNet
