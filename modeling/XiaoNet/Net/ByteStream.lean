import XiaoNet.Lib.Ledger
import XiaoNet.Net.ConnectionFrame

/-!
# The byte stream of a connection

Payloads and the chunks of async streams reach the socket in the order in which the
payloads were sent and the streams were opened: a run keeps a ledger of the requests,
and what the socket has accepted and what the nodes of the list hold is the ledger
(`Ledger.Aligned`).

- `Accounted`: the invariant; one lemma `accounted_…` for each operation.
- `conserved`: over whole runs, no byte is lost, doubled or reordered, nothing that was
  sent after a stream was opened overtakes it, and `bytesSent_` counts the bytes.
-/

namespace XiaoNet

/-! ## What a node holds -/

namespace DataNode

/-- The bytes in the node. -/
def content : DataNode → List Byte
  | .mem _ buffer => buffer
  | .stream _ _ _ msgBuffer => msgBuffer
  | .async _ msgBufferPtr => msgBufferPtr.getD []

/-- The node counts what it holds as remaining. -/
def Whole : DataNode → Prop
  | .mem isDone _ => isDone = false
  | .stream _ _ _ _ => False
  | .async _ _ => True

variable {d : DataNode}

theorem remaining_eq (h : d.Whole) : d.remainingBytes = d.content.length := by
  cases d with
  | mem isDone buffer =>
    have hdone : isDone = false := h
    subst hdone
    rfl
  | stream isDone callback calls buffer => exact h.elim
  | async isDone buffer => rfl

theorem getData_eq (h : d.Whole) : d.getData = (d.content, d) := by
  cases d with
  | mem isDone buffer => rfl
  | stream isDone callback calls buffer => exact h.elim
  | async isDone buffer => rfl

theorem Whole.retrieve (h : d.Whole) (n : Nat) :
    (d.retrieve n).Whole ∧ (d.retrieve n).content = d.content.drop n ∧
      (d.retrieve n).available = d.available := by
  cases d with
  | mem isDone buffer => exact ⟨h, rfl, rfl⟩
  | stream isDone callback calls buffer => exact h.elim
  | async isDone buffer =>
    refine ⟨trivial, ?_, rfl⟩
    cases buffer with
    | none => exact (List.drop_nil).symm
    | some bytes => rfl

theorem Whole.append (h : d.Whole) (data : List Byte) :
    (d.append data).Whole ∧ (d.append data).content = d.content ++ data ∧
      (d.append data).available = d.available := by
  cases d with
  | mem isDone buffer => exact ⟨h, rfl, rfl⟩
  | stream isDone callback calls buffer => exact h.elim
  | async isDone buffer => exact ⟨trivial, rfl, rfl⟩

/-- Closing a stream keeps its bytes. -/
theorem done_async (h : d.kind = .async) : d.done.Whole ∧ d.done.content = d.content := by
  cases d with
  | mem isDone buffer => cases h
  | stream isDone callback calls buffer => cases h
  | async isDone buffer => exact ⟨trivial, rfl⟩

end DataNode

namespace BufferNode

/-- The bytes in the node; those of a file are in the file. -/
def content : BufferNode → List Byte
  | .file _ => []
  | .data d => d.content

def Whole : BufferNode → Prop
  | .file _ => False
  | .data d => d.Whole

variable {node : BufferNode}

theorem remaining_eq (h : node.Whole) : node.remainingBytes = node.content.length := by
  cases node with
  | file f => exact h.elim
  | data d => exact DataNode.remaining_eq h

theorem Whole.append (h : node.Whole) (data : List Byte) :
    (node.append data).Whole ∧ (node.append data).content = node.content ++ data ∧
      (node.append data).available = node.available := by
  cases node with
  | file f => exact h.elim
  | data d => exact DataNode.Whole.append h data

theorem done_async (h : node.kind = .async) :
    node.done.Whole ∧ node.done.content = node.content := by
  cases node with
  | file f => cases h
  | data d => exact DataNode.done_async h

theorem content_nil_of_remaining (h : node.Whole) (hrem : node.remainingBytes = 0) :
    node.content = [] := by
  rw [remaining_eq h] at hrem
  exact List.length_eq_zero_iff.mp (by omega)

end BufferNode

namespace TcpConnectionImpl

variable {c : TcpConnectionImpl}

/-- The bytes of the nodes. -/
def content (c : TcpConnectionImpl) (id : NodeId) : List Byte := (c.nodes id).content

/-- The nodes of async streams. -/
def isStreamNode (c : TcpConnectionImpl) (id : NodeId) : Prop := (c.nodes id).kind = .async

/-! ## Sending a node -/

theorem output_wrote (r : SysRet) (buffer : List Byte) :
    (c.wrote r buffer).socket.output
      = c.socket.output ++ buffer.take (accepted r buffer) := rfl

theorem bytesSent_wrote (r : SysRet) (buffer : List Byte) :
    (c.wrote r buffer).bytesSent = c.bytesSent + accepted r buffer := rfl

/-- What sending a whole node moves from the node to the socket. -/
structure Moved (c c' : TcpConnectionImpl) (id : NodeId) : Prop where
  whole : (c'.nodes id).Whole
  output : c'.socket.output ++ c'.content id = c.socket.output ++ c.content id
  available : (c'.nodes id).available = (c.nodes id).available

theorem Moved.refl {id : NodeId} (h : (c.nodes id).Whole) : Moved c c id := ⟨h, rfl, rfl⟩

theorem Moved.trans {c₁ c₂ c₃ : TcpConnectionImpl} {id : NodeId} (h₁ : Moved c₁ c₂ id)
    (h₂ : Moved c₂ c₃ id) : Moved c₁ c₃ id :=
  ⟨h₂.whole, h₂.output.trans h₁.output, h₂.available.trans h₁.available⟩

theorem moved_written (r : SysRet) {id : NodeId} {d : DataNode} (hd : c.nodes id = .data d)
    (h : d.Whole) : Moved c (c.written r id d) id := by
  have hdata := DataNode.getData_eq h
  have hretrieve := h.retrieve (accepted r d.content)
  have hnode : (c.written r id d).nodes id = .data (d.retrieve (accepted r d.content)) := by
    rw [nodes_written, hdata]
  have hout : (c.written r id d).socket.output
      = c.socket.output ++ d.content.take (accepted r d.content) := by
    show c.socket.output ++ d.getData.1.take (accepted r d.getData.1) = _
    rw [hdata]
  refine ⟨?_, ?_, ?_⟩
  · rw [hnode]
    exact hretrieve.1
  · rw [hout, content, hnode, content, hd]
    show _ ++ (d.retrieve (accepted r d.content)).content = c.socket.output ++ d.content
    rw [hretrieve.2.1, List.append_assoc, List.take_append_drop]
  · rw [hnode, hd]
    exact hretrieve.2.2

/-- A whole node with bytes left gives them. -/
theorem getData_ne_nil {d : DataNode} (h : d.Whole) (hrem : d.remainingBytes > 0) :
    d.getData.1 ≠ [] := by
  intro hnil
  rw [DataNode.remaining_eq h] at hrem
  rw [DataNode.getData_eq h] at hnil
  have hzero := congrArg List.length hnil
  simp only [List.length_nil] at hzero
  omega

theorem sendDataLoop_moved (id : NodeId) (rs : List SysRet) {d : DataNode}
    (hd : c.nodes id = .data d) (h : d.Whole) (hasSent : Int) :
    Moved c (sendDataLoop id rs c hasSent).1 id := by
  induction rs generalizing c d hasSent with
  | nil =>
    unfold sendDataLoop
    rw [hd]
    dsimp only
    by_cases hrem : d.remainingBytes > 0
    · rw [if_pos hrem]
      rcases sendDataRound_cases (c := c) .again id d hasSent with
        ⟨hnil, -⟩ | ⟨-, heq⟩
      · exact absurd hnil (getData_ne_nil h hrem)
      · have hmoved := moved_written .again hd h
        rw [heq]
        by_cases hall : accepted .again d.getData.1 = d.getData.1.length
        · rw [if_pos hall]
          exact hmoved
        · rw [if_neg hall]
          exact hmoved
    · rw [if_neg hrem]
      exact .refl (by rw [hd]; exact h)
  | cons r rs ih =>
    -- one round with the next answer, the rest by the induction hypothesis
    unfold sendDataLoop
    rw [hd]
    dsimp only
    by_cases hrem : d.remainingBytes > 0
    · rw [if_pos hrem]
      rcases sendDataRound_cases (c := c) r id d hasSent with
        ⟨hnil, -⟩ | ⟨-, heq⟩
      · exact absurd hnil (getData_ne_nil h hrem)
      · have hmoved := moved_written r hd h
        have hnode := nodes_written (c := c) r id d
        have hwhole := hmoved.whole
        rw [hnode] at hwhole
        rw [heq]
        by_cases hall : accepted r d.getData.1 = d.getData.1.length
        · -- all of the chunk was taken, and the loop goes on
          rw [if_pos hall]
          exact hmoved.trans (ih hnode hwhole _)
        · rw [if_neg hall]
          exact hmoved
    · rw [if_neg hrem]
      exact .refl (by rw [hd]; exact h)

theorem sendNode_moved (rs : List SysRet) {id : NodeId} (h : (c.nodes id).Whole) :
    Moved c (c.sendNodeInLoop rs id).1 id := by
  cases hd : c.nodes id with
  | file f =>
    rw [hd] at h
    exact h.elim
  | data d =>
    rw [hd] at h
    rw [sendNodeInLoop_data c rs hd]
    exact sendDataLoop_moved id rs hd h 0

/-! ## Bytes that wait -/

/-- The bytes go to the last node or to a new one. -/
theorem enqueue_cases (data : List Byte) :
    (∃ l back, c.writeBufferList = l ++ [back] ∧ (c.nodes back).kind = .mem ∧
      (c.enqueue data).writeBufferList = c.writeBufferList ∧
      (c.enqueue data).nodes = Function.update c.nodes back ((c.nodes back).append data)) ∨
    ((c.enqueue data).writeBufferList = c.writeBufferList ++ [c.nextNode] ∧
      (c.enqueue data).nodes = Function.update c.nodes c.nextNode (.data (.mem false data))) := by
  cases hback : c.backIsMem with
  | true =>
    -- the node at the back takes payloads
    left
    obtain ⟨back, hlast, hmem⟩ := backIsMem_iff.mp hback
    obtain ⟨l, hl⟩ := List.getLast?_eq_some_iff.mp hlast
    refine ⟨l, back, hl, hmem, ?_, ?_⟩
    · rw [list_enqueue, hback]
      rfl
    · unfold enqueue
      rw [hback, if_pos rfl]
      obtain ⟨calls, heq⟩ := appendBack_eq data hlast
      rw [heq]
      rfl
  | false =>
    -- a new node goes to the back
    right
    have hlast : ((c.newNode (.data .newMemBufferNode)).pushBack c.nextNode).writeBufferList.getLast?
        = some c.nextNode := List.getLast?_concat
    refine ⟨?_, ?_⟩
    · rw [list_enqueue, hback]
      rfl
    · unfold enqueue
      rw [hback]
      simp only [Bool.false_eq_true, if_false]
      obtain ⟨calls, heq⟩ := appendBack_eq data hlast
      rw [heq]
      show Function.update (Function.update c.nodes c.nextNode (.data .newMemBufferNode)) c.nextNode
        (((Function.update c.nodes c.nextNode (.data .newMemBufferNode)) c.nextNode).append data) = _
      rw [Function.update_idem, Function.update_self]
      rfl

/-! ## The invariant -/

/-- A connection and the ledger of what was asked of it. -/
structure Ledgered where
  conn : TcpConnectionImpl
  log : List (Ledger.Item NodeId Byte)

/-- Sends, streams and write events in the loop thread. -/
def Op.ordered : Op → Bool
  | .send true _ | .sendAsyncStream true _ | .asyncSend true _ _ | .asyncClose true _
  | .writeCallback => true
  | _ => false

namespace Ledgered

def start (highWaterMark : Option Nat) (kickoff : Kickoff) : Ledgered :=
  ⟨established highWaterMark kickoff, []⟩

def step (s : Ledgered) (a : Op × List SysRet) : Ledgered where
  conn := s.conn.step a
  log :=
    match a.1 with
    | .send _ msg => s.log ++ [⟨none, msg⟩]
    | .sendAsyncStream _ _ => s.log ++ [⟨some s.conn.nextNode, []⟩]
    | .asyncSend _ id data =>
      if id ∈ s.conn.streams then Ledger.chunk id data s.log else s.log
    | _ => s.log

/-- What is true of the bytes in every state. -/
structure Conserved (s : Ledgered) : Prop where
  /-- What the socket accepted and what waits, in order, is what was asked. -/
  total : s.conn.socket.output ++ s.conn.writeBufferList.flatMap s.conn.content
    = Ledger.bytes s.log
  /-- Nothing behind an open stream has reached the socket. -/
  behind : ∀ pre id bs post, s.log = pre ++ ⟨some id, bs⟩ :: post → id ∈ s.conn.streams →
    s.conn.socket.output <+: Ledger.bytes (pre ++ [⟨some id, bs⟩])
  sent : s.conn.bytesSent = s.conn.socket.output.length

structure Accounted (s : Ledgered) : Prop where
  wired : s.conn.Wired
  running : s.conn.failed = false ∧ s.conn.status = .connected
  nodup : s.conn.writeBufferList.Nodup
  whole : ∀ id ∈ s.conn.writeBufferList, (s.conn.nodes id).Whole
  streams_wait : ∀ id ∈ s.conn.streams,
    id ∈ s.conn.writeBufferList ∧ (s.conn.nodes id).available = true
  owners_nodup : (Ledger.owners s.log).Nodup
  owners_lt : ∀ id ∈ Ledger.owners s.log, id < s.conn.nextNode
  aligned : Ledger.Aligned s.conn.content s.conn.isStreamNode s.conn.socket.output
    s.conn.writeBufferList s.log
  sent : s.conn.bytesSent = s.conn.socket.output.length

theorem Accounted.toConserved {s : Ledgered} (h : s.Accounted) : s.Conserved where
  total := h.aligned.total
  behind _ id _ _ hlog hid :=
    h.aligned.sent_prefix h.owners_nodup (h.wired.streams id hid).2 (h.streams_wait id hid).1 hlog
  sent := h.sent

/-! ## Each operation -/

/-- A step that keeps the status, the closures and the classes of the nodes. -/
theorem Accounted.of_kept {s : Ledgered} (h : s.Accounted) {c' : TcpConnectionImpl}
    {log' : List (Ledger.Item NodeId Byte)} (hk : Kept s.conn c')
    (hnodup : c'.writeBufferList.Nodup) (hwhole : ∀ id ∈ c'.writeBufferList, (c'.nodes id).Whole)
    (hwait : ∀ id ∈ s.conn.streams, id ∈ c'.writeBufferList ∧ (c'.nodes id).available = true)
    (howners : Ledger.owners log' = Ledger.owners s.log)
    (haligned : Ledger.Aligned c'.content c'.isStreamNode c'.socket.output c'.writeBufferList log')
    (hsent : c'.bytesSent = c'.socket.output.length) : Accounted ⟨c', log'⟩ where
  wired := h.wired.of_kept hk
  running := ⟨hk.failed_eq.trans h.running.1, hk.status_eq.trans h.running.2⟩
  nodup := hnodup
  whole := hwhole
  streams_wait id hid := hwait id (by rw [← hk.streams_eq]; exact hid)
  owners_nodup := by rw [howners]; exact h.owners_nodup
  owners_lt id hid := by
    rw [howners] at hid
    exact Nat.lt_of_lt_of_le (h.owners_lt id hid) hk.next_le
  aligned := haligned
  sent := hsent

theorem content_of_update {c c' : TcpConnectionImpl} {id : NodeId} {node : BufferNode}
    (hnodes : c'.nodes = Function.update c.nodes id node) :
    c'.content = Function.update c.content id node.content := by
  funext j
  unfold TcpConnectionImpl.content
  rw [hnodes]
  by_cases hj : j = id
  · rw [hj, Function.update_self, Function.update_self]
  · rw [Function.update_of_ne hj, Function.update_of_ne hj]

theorem isStreamNode_of_update {c c' : TcpConnectionImpl} {id : NodeId} {node : BufferNode}
    (hnodes : c'.nodes = Function.update c.nodes id node)
    (hkind : node.kind = (c.nodes id).kind) (j : NodeId) :
    c'.isStreamNode j ↔ c.isStreamNode j := by
  unfold isStreamNode
  rw [hnodes]
  by_cases hj : j = id
  · rw [hj, Function.update_self, hkind]
  · rw [Function.update_of_ne hj]

/-- One node changes and stays whole. -/
theorem whole_of_update {c c' : TcpConnectionImpl} {id : NodeId} {node : BufferNode}
    (hnodes : c'.nodes = Function.update c.nodes id node) (hnode : node.Whole)
    {l : List NodeId} (h : ∀ j ∈ l, j ≠ id → (c.nodes j).Whole) :
    ∀ j ∈ l, (c'.nodes j).Whole := by
  intro j hj
  rw [hnodes]
  by_cases hid : j = id
  · rw [hid, Function.update_self]
    exact hnode
  · rw [Function.update_of_ne hid]
    exact h j hj hid

/-- Payload bytes that wait behind the others. -/
theorem accounted_enqueue {s : Ledgered} (h : s.Accounted) (msg : List Byte) :
    Accounted ⟨s.conn.enqueue msg, s.log ++ [⟨none, msg⟩]⟩ := by
  have hkept := kept_enqueue (c := s.conn) msg
  have hsocket := socket_enqueue (c := s.conn) msg
  have hsent : (s.conn.enqueue msg).bytesSent = (s.conn.enqueue msg).socket.output.length := by
    rw [bytesSent_enqueue, hsocket]
    exact h.sent
  have hfresh : s.conn.nextNode ∉ s.conn.writeBufferList :=
    fun hmem => Nat.lt_irrefl _ (h.wired.list_lt _ hmem)
  have howners := Ledger.owners_concat_none s.log msg
  -- the payload goes to the node at the back, or to a new one behind it
  rcases enqueue_cases (c := s.conn) msg with ⟨l, back, hl, hmem, hlist, hnodes⟩ | ⟨hlist, hnodes⟩
  · have hback : back ∈ s.conn.writeBufferList := by
      rw [hl]
      exact List.mem_append_right _ List.mem_cons_self
    have happend := (h.whole back hback).append msg
    have hnot : ¬ s.conn.isStreamNode back := by
      intro hstream
      rw [isStreamNode, hmem] at hstream
      cases hstream
    -- no other node in the list is written to
    have hbackl : back ∉ l := by
      have hnodup := h.nodup
      rw [hl, List.nodup_append] at hnodup
      exact fun hin => hnodup.2.2 back hin back List.mem_cons_self rfl
    refine h.of_kept hkept ?_ ?_ ?_ howners ?_ hsent
    · rw [hlist]
      exact h.nodup
    · rw [hlist]
      exact whole_of_update hnodes happend.1 fun j hj _ => h.whole j hj
    · intro id hid
      rw [hlist, hnodes]
      refine ⟨(h.streams_wait id hid).1, ?_⟩
      have hne : id ≠ back := fun heq => hnot (heq ▸ (h.wired.streams id hid).2)
      rw [Function.update_of_ne hne]
      exact (h.streams_wait id hid).2
    · have haligned := h.aligned
      rw [hl] at haligned
      have hext := Ledger.aligned_extend haligned hnot hbackl msg
      rw [hsocket, hlist, hl]
      refine hext.congr (fun j _ => ?_) fun j _ =>
        isStreamNode_of_update hnodes (BufferNode.kind_append _ _) j
      rw [content_of_update hnodes, happend.2.1]
      rfl
  · have hcontent := content_of_update hnodes
    have hnew : (s.conn.enqueue msg).content s.conn.nextNode = msg := by
      rw [hcontent, Function.update_self]
      rfl
    have hnot : ¬ (s.conn.enqueue msg).isStreamNode s.conn.nextNode := by
      intro hstream
      rw [isStreamNode, hnodes, Function.update_self] at hstream
      cases hstream
    -- the nodes that wait already are not touched
    have hold : ∀ j ∈ s.conn.writeBufferList, (s.conn.enqueue msg).nodes j = s.conn.nodes j := by
      intro j hj
      rw [hnodes]
      exact Function.update_of_ne (fun heq : j = s.conn.nextNode => hfresh (heq ▸ hj)) _ _
    refine h.of_kept hkept ?_ ?_ ?_ howners ?_ hsent
    · rw [hlist]
      exact List.nodup_append.mpr ⟨h.nodup, List.nodup_singleton _,
        fun a ha b hb hab => hfresh (List.mem_singleton.mp hb ▸ hab ▸ ha)⟩
    · rw [hlist]
      intro j hj
      rcases List.mem_append.mp hj with hj | hj
      · rw [hold j hj]
        exact h.whole j hj
      · rw [List.mem_singleton.mp hj, hnodes, Function.update_self]
        rfl
    · intro id hid
      obtain ⟨hin, havail⟩ := h.streams_wait id hid
      rw [hlist, hold id hin]
      exact ⟨List.mem_append_left _ hin, havail⟩
    · have haligned : Ledger.Aligned (s.conn.enqueue msg).content (s.conn.enqueue msg).isStreamNode
          s.conn.socket.output s.conn.writeBufferList s.log :=
        h.aligned.congr (fun j hj => congrArg BufferNode.content (hold j hj))
          (fun j hj => by rw [isStreamNode, hold j hj]; rfl)
      have hpush := Ledger.aligned_push haligned hnot
      rw [hnew] at hpush
      rw [hlist, hsocket]
      exact hpush

/-- A payload. -/
theorem accounted_send {s : Ledgered} (h : s.Accounted) (rs : List SysRet) (msg : List Byte) :
    Accounted ⟨s.conn.sendInLoop rs msg, s.log ++ [⟨none, msg⟩]⟩ := by
  by_cases hbusy : s.conn.ioChannel.isWriting = true ∨ s.conn.writeBufferList ≠ []
  · rw [sendInLoop_queued rs msg h.running.2 hbusy]
    by_cases hmsg : msg = []
    · rw [if_pos hmsg, hmsg]
      exact h.of_kept (.refl _) h.nodup h.whole h.streams_wait (Ledger.owners_concat_none _ _)
        (Ledger.aligned_skip h.aligned) h.sent
    · rw [if_neg hmsg]
      exact accounted_enqueue h msg
  · obtain ⟨hw, hl⟩ := not_or.mp hbusy
    have hnil : s.conn.writeBufferList = [] := not_not.mp hl
    rw [sendInLoop_direct rs msg h.running.2 (Bool.eq_false_iff.mpr hw) hnil]
    have hle := accepted_le (rs.headD .again) msg
    have hwrote := sent_wrote (c := s.conn) (rs.headD .again) msg 0
    have hout := output_wrote (c := s.conn) (rs.headD .again) msg
    have hbytes := bytesSent_wrote (c := s.conn) (rs.headD .again) msg
    generalize s.conn.wrote (rs.headD .again) msg = c at hwrote hout hbytes ⊢
    generalize accepted (rs.headD .again) msg = n at hle hout hbytes ⊢
    have hnil' : c.writeBufferList = [] := hwrote.list_eq.trans hnil
    have hsent : c.bytesSent = c.socket.output.length := by
      rw [hbytes, hout, List.length_append, List.length_take, Nat.min_eq_left hle, h.sent]
    -- an open stream would be in the list
    have hempty : s.conn.streams = [] := by
      refine List.eq_nil_iff_forall_not_mem.mpr fun id hid => ?_
      have hin := (h.streams_wait id hid).1
      rw [hnil] at hin
      cases hin
    have hwait : ∀ {P : NodeId → Prop}, ∀ id ∈ s.conn.streams, P id := by
      intro P id hid
      rw [hempty] at hid
      cases hid
    have haligned := h.aligned
    rw [hnil] at haligned
    by_cases hall : n = msg.length
    · rw [if_pos hall]
      refine h.of_kept hwrote.kept ?_ ?_ hwait (Ledger.owners_concat_none _ _) ?_ hsent
      · rw [hnil']
        exact List.nodup_nil
      · intro id hid
        rw [hnil'] at hid
        cases hid
      · rw [hnil', hout, hall, List.take_length]
        exact Ledger.aligned_direct haligned msg
    · -- the rest becomes the first node of the list
      rw [if_neg hall]
      have hkept := hwrote.kept.trans (kept_enqueue (msg.drop n))
      have hback : c.backIsMem = false := by
        rw [backIsMem, hnil']
        rfl
      have hlist : (c.enqueue (msg.drop n)).writeBufferList = [c.nextNode] := by
        rw [list_enqueue, hback, hnil']
        rfl
      have hnodes : (c.enqueue (msg.drop n)).nodes
          = Function.update c.nodes c.nextNode (.data (.mem false (msg.drop n))) := by
        rcases enqueue_cases (c := c) (msg.drop n) with ⟨l, back, hl', -⟩ | ⟨-, hnodes⟩
        · rw [hnil'] at hl'
          exact absurd hl' (by simp)
        · exact hnodes
      refine h.of_kept hkept ?_ ?_ hwait (Ledger.owners_concat_none _ _) ?_ ?_
      · rw [hlist]
        exact List.nodup_singleton _
      · intro id hid
        rw [hlist, List.mem_singleton] at hid
        rw [hid, hnodes, Function.update_self]
        rfl
      · rw [hlist, socket_enqueue, hout]
        refine Ledger.aligned_direct_push haligned (fun hstream => ?_) ?_
        · rw [isStreamNode, hnodes, Function.update_self] at hstream
          cases hstream
        · rw [content_of_update hnodes, Function.update_self]
          exact List.take_append_drop n msg
      · rw [bytesSent_enqueue, socket_enqueue]
        exact hsent

/-- A stream is opened. -/
theorem accounted_open {s : Ledgered} (h : s.Accounted) (disableKickoff : Bool) :
    Accounted ⟨s.conn.newStream.sendAsyncStreamInLoop s.conn.nextNode disableKickoff,
      s.log ++ [⟨some s.conn.nextNode, []⟩]⟩ := by
  have hkept := kept_sendAsyncStreamInLoop (c := s.conn.newStream) disableKickoff
    (Nat.lt_succ_self s.conn.nextNode)
  have hwired := (wired_newStream h.wired).of_kept hkept
  have hnodes : (s.conn.newStream.sendAsyncStreamInLoop s.conn.nextNode disableKickoff).nodes
      = Function.update s.conn.nodes s.conn.nextNode (.data .newAsyncStreamBufferNode) := by
    cases disableKickoff <;> rfl
  have hlist : (s.conn.newStream.sendAsyncStreamInLoop s.conn.nextNode
      disableKickoff).writeBufferList = s.conn.writeBufferList ++ [s.conn.nextNode] := by
    cases disableKickoff <;> rfl
  have hsocket : (s.conn.newStream.sendAsyncStreamInLoop s.conn.nextNode disableKickoff).socket
      = s.conn.socket := by
    cases disableKickoff <;> rfl
  have hbytes : (s.conn.newStream.sendAsyncStreamInLoop s.conn.nextNode disableKickoff).bytesSent
      = s.conn.bytesSent := by
    cases disableKickoff <;> rfl
  have hstreams : (s.conn.newStream.sendAsyncStreamInLoop s.conn.nextNode disableKickoff).streams
      = s.conn.streams ++ [s.conn.nextNode] := by
    cases disableKickoff <;> rfl
  have hnext : (s.conn.newStream.sendAsyncStreamInLoop s.conn.nextNode disableKickoff).nextNode
      = s.conn.nextNode + 1 := by
    cases disableKickoff <;> rfl
  have hrunning : s.conn.newStream.failed = false ∧ s.conn.newStream.status = .connected :=
    h.running
  -- only these fields matter from here on
  generalize s.conn.newStream.sendAsyncStreamInLoop s.conn.nextNode disableKickoff = c'
    at hkept hwired hnodes hlist hsocket hbytes hstreams hnext ⊢
  -- the node is new, so nothing that is accounted for is about it
  have hfresh : s.conn.nextNode ∉ s.conn.writeBufferList :=
    fun hmem => Nat.lt_irrefl _ (h.wired.list_lt _ hmem)
  have hold : ∀ j ∈ s.conn.writeBufferList, c'.nodes j = s.conn.nodes j := by
    intro j hj
    rw [hnodes]
    exact Function.update_of_ne (fun heq : j = s.conn.nextNode => hfresh (heq ▸ hj)) _ _
  have hnew : c'.nodes s.conn.nextNode = .data .newAsyncStreamBufferNode := by
    rw [hnodes, Function.update_self]
  refine ⟨hwired, ⟨hkept.failed_eq.trans hrunning.1, hkept.status_eq.trans hrunning.2⟩,
    ?_, ?_, ?_, ?_, ?_, ?_, ?_⟩
  · rw [hlist]
    exact List.nodup_append.mpr ⟨h.nodup, List.nodup_singleton _,
      fun a ha b hb hab => hfresh (List.mem_singleton.mp hb ▸ hab ▸ ha)⟩
  · rw [hlist]
    intro j hj
    rcases List.mem_append.mp hj with hj | hj
    · rw [hold j hj]
      exact h.whole j hj
    · rw [List.mem_singleton.mp hj, hnew]
      trivial
  · intro id hid
    rw [hstreams] at hid
    rw [hlist]
    rcases List.mem_append.mp hid with hid | hid
    · obtain ⟨hin, havail⟩ := h.streams_wait id hid
      rw [hold id hin]
      exact ⟨List.mem_append_left _ hin, havail⟩
    · rw [List.mem_singleton.mp hid, hnew]
      exact ⟨List.mem_append_right _ List.mem_cons_self, rfl⟩
  · rw [Ledger.owners_concat_some]
    exact List.nodup_append.mpr ⟨h.owners_nodup, List.nodup_singleton _, fun a ha b hb hab =>
      Nat.lt_irrefl _ (h.owners_lt _ (List.mem_singleton.mp hb ▸ hab ▸ ha))⟩
  · intro id hid
    rw [Ledger.owners_concat_some] at hid
    rw [hnext]
    rcases List.mem_append.mp hid with hid | hid
    · exact Nat.lt_succ_of_lt (h.owners_lt id hid)
    · rw [List.mem_singleton.mp hid]
      exact Nat.lt_succ_self _
  · have haligned : Ledger.Aligned c'.content c'.isStreamNode s.conn.socket.output
        s.conn.writeBufferList s.log :=
      h.aligned.congr (fun j hj => congrArg BufferNode.content (hold j hj))
        (fun j hj => by rw [isStreamNode, hold j hj]; rfl)
    rw [hlist, hsocket]
    refine Ledger.aligned_open haligned ?_ ?_
    · rw [isStreamNode, hnew]
      rfl
    · rw [TcpConnectionImpl.content, hnew]
      rfl
  · rw [hbytes, hsocket]
    exact h.sent

/-- The node of a stream holds more bytes. -/
theorem accounted_feed {s : Ledgered} (h : s.Accounted) {id : NodeId} (hid : id ∈ s.conn.streams)
    (data : List Byte) :
    Accounted ⟨s.conn.setNode id ((s.conn.nodes id).append data),
      Ledger.chunk id data s.log⟩ := by
  obtain ⟨hin, havail⟩ := h.streams_wait id hid
  have happend := (h.whole id hin).append data
  have hkind := BufferNode.kind_append (s.conn.nodes id) data
  have hnodes : (s.conn.setNode id ((s.conn.nodes id).append data)).nodes
      = Function.update s.conn.nodes id ((s.conn.nodes id).append data) := rfl
  refine h.of_kept (kept_setNode id hkind) h.nodup
    (whole_of_update hnodes happend.1 fun j hj _ => h.whole j hj) ?_
    (Ledger.owners_chunk id data s.log) ?_ h.sent
  · intro j hj
    obtain ⟨hjin, hjavail⟩ := h.streams_wait j hj
    refine ⟨hjin, ?_⟩
    rw [hnodes]
    by_cases hjid : j = id
    · rw [hjid, Function.update_self, happend.2.2]
      exact havail
    · rw [Function.update_of_ne hjid]
      exact hjavail
  · have hfeed := Ledger.aligned_feed h.aligned h.owners_nodup (h.wired.streams id hid).2 hin data
    refine hfeed.congr (fun j _ => ?_) fun j _ => isStreamNode_of_update hnodes hkind j
    rw [content_of_update hnodes, happend.2.1]
    rfl

/-- Bytes of the node in front go to the socket. -/
theorem accounted_moved {s : Ledgered} (h : s.Accounted) {c' : TcpConnectionImpl} {id : NodeId}
    {rest : List NodeId} (hl : s.conn.writeBufferList = id :: rest) (hsent : Sent s.conn c' id)
    (hmoved : Moved s.conn c' id) : Accounted ⟨c', s.log⟩ := by
  -- the node in front is nowhere else in the list
  have hnot : ∀ j ∈ rest, j ≠ id := by
    have hnodup := h.nodup
    rw [hl, List.nodup_cons] at hnodup
    exact fun j hj heq => hnodup.1 (heq ▸ hj)
  have hlist := hsent.list_eq
  obtain ⟨bytes, hout, hbytes⟩ := hsent.accounted
  refine h.of_kept hsent.kept ?_ ?_ ?_ rfl ?_ ?_
  · rw [hlist]
    exact h.nodup
  · rw [hlist]
    intro j hj
    by_cases hjid : j = id
    · rw [hjid]
      exact hmoved.whole
    · rw [hsent.others j hjid]
      exact h.whole j hj
  · intro j hj
    obtain ⟨hin, havail⟩ := h.streams_wait j hj
    rw [hlist]
    refine ⟨hin, ?_⟩
    by_cases hjid : j = id
    · rw [hjid, hmoved.available, ← hjid]
      exact havail
    · rw [hsent.others j hjid]
      exact havail
  · -- what the socket has more, the node has less
    have haligned := h.aligned
    rw [hl] at haligned
    rw [hlist, hl]
    refine Ledger.aligned_progress haligned hmoved.output (fun j hj => ?_) fun j _ => ?_
    · exact congrArg BufferNode.content (hsent.others j (hnot j hj))
    · unfold isStreamNode
      by_cases hjid : j = id
      · rw [hjid, hsent.kind_eq]
      · rw [hsent.others j hjid]
  · rw [hbytes, hout, List.length_append, h.sent]

/-- The node may have been fed before. -/
theorem sent_of_setNode {c c' : TcpConnectionImpl} {id : NodeId} {node : BufferNode}
    (h : Sent c c' id) (hkind : node.kind = (c.nodes id).kind) :
    Sent (c.setNode id node) c' id where
  frame_eq := h.frame_eq
  others j hj := (h.others j hj).trans (Function.update_of_ne hj _ _).symm
  kind_eq := by rw [nodes_setNode_self, hkind, h.kind_eq]
  accounted := h.accounted
  writing := h.writing
  calls_le := h.calls_le

/-- A chunk of a stream. -/
theorem accounted_asyncSend {s : Ledgered} (h : s.Accounted) (rs : List SysRet) {id : NodeId}
    (hid : id ∈ s.conn.streams) (data : List Byte) :
    Accounted ⟨s.conn.sendAsyncDataInLoop rs id (some data), Ledger.chunk id data s.log⟩ := by
  obtain ⟨hin, havail⟩ := h.streams_wait id hid
  have hwhole := h.whole id hin
  have happend := hwhole.append data
  have hkind := BufferNode.kind_append (s.conn.nodes id) data
  have hnodes : (s.conn.setNode id ((s.conn.nodes id).append data)).nodes
      = Function.update s.conn.nodes id ((s.conn.nodes id).append data) := rfl
  -- first the ledger and the node get the chunk, then the socket takes its part
  have hfeed := accounted_feed h hid data
  -- an empty chunk changes neither
  by_cases hdata : data = []
  · have hcontent : (s.conn.setNode id ((s.conn.nodes id).append data)).content
        = s.conn.content := by
      rw [content_of_update hnodes, happend.2.1, hdata, List.append_nil]
      exact Function.update_eq_self id s.conn.content
    have hsame := hfeed.aligned.congr (fun j _ => congrFun hcontent.symm j)
      fun j _ => (isStreamNode_of_update hnodes hkind j).symm
    rw [hdata, sendAsyncData_nil]
    rw [hdata] at hsame
    exact h.of_kept (.refl _) h.nodup h.whole h.streams_wait (Ledger.owners_chunk id [] s.log)
      hsame h.sent
  · by_cases hfront : s.conn.writeBufferList.head? = some id ∧ s.conn.remainingBytes id = 0
    · -- the chunk goes to the node and from there, as far as the kernel takes it, to the socket
      obtain ⟨rest, hl⟩ := List.head?_eq_some_iff.mp hfront.1
      have hnil := BufferNode.content_nil_of_remaining hwhole hfront.2
      have hfed : (s.conn.setNode id ((s.conn.nodes id).append data)).content id = data := by
        rw [content_of_update hnodes, Function.update_self, happend.2.1, hnil, List.nil_append]
      have havail' : ((s.conn.setNode id ((s.conn.nodes id).append data)).nodes id).available
          = (s.conn.nodes id).available := by rw [nodes_setNode_self, happend.2.2]
      have hwrote := sent_wrote (c := s.conn) (rs.headD .again) data id
      have hout := output_wrote (c := s.conn) (rs.headD .again) data
      have hsame : (s.conn.wrote (rs.headD .again) data).nodes = s.conn.nodes := nodes_wrote _ _
      rw [sendAsyncData_front rs hdata hfront]
      generalize s.conn.wrote (rs.headD .again) data = c at hwrote hout hsame ⊢
      generalize accepted (rs.headD .again) data = n at hout ⊢
      -- all of it was taken, or a rest goes to the node
      by_cases hall : n = data.length
      · rw [if_pos hall]
        refine accounted_moved hfeed hl (sent_of_setNode hwrote hkind) ⟨?_, ?_, ?_⟩
        · rw [hsame]
          exact hwhole
        · show c.socket.output ++ (c.nodes id).content = s.conn.socket.output ++ _
          rw [hfed, hsame, hnil, hout, hall, List.take_length, List.append_nil]
        · rw [havail', hsame]
      · rw [if_neg hall]
        have hrest := hwhole.append (data.drop n)
        have hkind' : ((s.conn.nodes id).append (data.drop n)).kind = (c.nodes id).kind := by
          rw [BufferNode.kind_append, hsame]
        have hsent := hwrote.trans (sent_setNode (c := c) id hkind')
        refine accounted_moved hfeed hl (sent_of_setNode hsent hkind) ⟨?_, ?_, ?_⟩
        · rw [nodes_setNode_self]
          exact hrest.1
        · show c.socket.output ++ ((c.setNode id _).nodes id).content = s.conn.socket.output ++ _
          rw [hfed, nodes_setNode_self, hrest.2.1, hnil, hout, List.nil_append, List.append_assoc,
            List.take_append_drop]
        · rw [havail', nodes_setNode_self, hrest.2.2]
    · -- behind other data, or its own, the chunk waits
      rw [sendAsyncData_behind rs hdata hfront]
      exact hfeed

/-- A stream is closed. -/
theorem accounted_asyncClose {s : Ledgered} (h : s.Accounted) (rs : List SysRet) {id : NodeId}
    (hid : id ∈ s.conn.streams) :
    Accounted ⟨{ s.conn.sendAsyncDataInLoop rs id none with
      streams := (s.conn.sendAsyncDataInLoop rs id none).streams.filter (· ≠ id) }, s.log⟩ := by
  have hkind : (s.conn.nodes id).kind = .async := (h.wired.streams id hid).2
  have hdone := BufferNode.done_async hkind
  -- closing marks the node as done and touches nothing else that is accounted for
  have hnodes : (s.conn.sendAsyncDataInLoop rs id none).nodes
      = Function.update s.conn.nodes id (s.conn.nodes id).done := by
    rw [sendAsyncData_close]
    show (s.conn.closeNode id).nodes = _
    unfold closeNode
    split <;> rfl
  have hlist : (s.conn.sendAsyncDataInLoop rs id none).writeBufferList
      = s.conn.writeBufferList := by
    rw [sendAsyncData_close]
    show (s.conn.closeNode id).writeBufferList = _
    unfold closeNode
    split <;> rfl
  have hsocket : (s.conn.sendAsyncDataInLoop rs id none).socket = s.conn.socket := by
    rw [sendAsyncData_close]
    show (s.conn.closeNode id).socket = _
    unfold closeNode
    split <;> rfl
  have hbytes : (s.conn.sendAsyncDataInLoop rs id none).bytesSent = s.conn.bytesSent := by
    rw [sendAsyncData_close]
    show (s.conn.closeNode id).bytesSent = _
    unfold closeNode
    split <;> rfl
  have hkept := kept_sendAsyncDataInLoop (c := s.conn) rs id none
  generalize s.conn.sendAsyncDataInLoop rs id none = c' at hnodes hlist hsocket hbytes hkept ⊢
  -- the stream is not open any more, the others are
  have hfilter : ∀ j ∈ c'.streams.filter (· ≠ id), j ∈ s.conn.streams ∧ j ≠ id := by
    intro j hj
    obtain ⟨hmem, hne⟩ := List.mem_filter.mp hj
    rw [hkept.streams_eq] at hmem
    exact ⟨hmem, of_decide_eq_true hne⟩
  refine ⟨(h.wired.of_kept hkept).of_fields rfl rfl rfl rfl
      (fun j hj => (List.mem_filter.mp hj).1) fun _ hf => .inl hf,
    ⟨hkept.failed_eq.trans h.running.1, hkept.status_eq.trans h.running.2⟩, ?_, ?_, ?_,
    h.owners_nodup, fun j hj => Nat.lt_of_lt_of_le (h.owners_lt j hj) hkept.next_le, ?_, ?_⟩
  · show c'.writeBufferList.Nodup
    rw [hlist]
    exact h.nodup
  · show ∀ j ∈ c'.writeBufferList, (c'.nodes j).Whole
    rw [hlist]
    exact whole_of_update hnodes hdone.1 fun j hj _ => h.whole j hj
  · intro j hj
    obtain ⟨hmem, hne⟩ := hfilter j hj
    show j ∈ c'.writeBufferList ∧ (c'.nodes j).available = true
    rw [hlist, hnodes, Function.update_of_ne hne]
    exact h.streams_wait j hmem
  · show Ledger.Aligned c'.content c'.isStreamNode c'.socket.output c'.writeBufferList s.log
    rw [hlist, hsocket]
    refine h.aligned.congr (fun j _ => ?_) fun j _ =>
      isStreamNode_of_update hnodes (BufferNode.kind_done _) j
    rw [content_of_update hnodes, hdone.2]
    exact congrFun (Function.update_eq_self id s.conn.content) j
  · show c'.bytesSent = c'.socket.output.length
    rw [hbytes, hsocket]
    exact h.sent

/-- The write event. -/
theorem accounted_writeCallback {s : Ledgered} (h : s.Accounted) (rs : List SysRet) :
    Accounted ⟨s.conn.writeCallback rs, s.log⟩ := by
  cases hw : s.conn.ioChannel.isWriting with
  | false =>
    rw [writeCallback_of_not_writing rs hw]
    exact h
  | true =>
    -- a node that has nothing left leaves the list
    have hpop : ∀ (c : TcpConnectionImpl) (id : NodeId) (rest : List NodeId),
        Accounted ⟨c, s.log⟩ → c.writeBufferList = id :: rest → c.remainingBytes id = 0 →
        (!(c.nodes id).isAsync || !(c.nodes id).available) = true →
        Accounted ⟨{ c with writeBufferList := rest }, s.log⟩ := by
      intro c id rest hI hl hrem hdone
      have hsub : ∀ j ∈ rest, j ∈ c.writeBufferList := by
        rw [hl]
        exact fun j hj => List.mem_cons_of_mem id hj
      have hin : id ∈ c.writeBufferList := by
        rw [hl]
        exact List.mem_cons_self
      have hnodup := hI.nodup
      dsimp only at hnodup
      rw [hl, List.nodup_cons] at hnodup
      refine hI.of_kept (kept_list hsub) hnodup.2 (fun j hj => hI.whole j (hsub j hj)) ?_ rfl ?_
        hI.sent
      · intro j hj
        obtain ⟨hjin, hjavail⟩ := hI.streams_wait j hj
        refine ⟨?_, hjavail⟩
        dsimp only at hjin hjavail
        rw [hl] at hjin
        rcases List.mem_cons.mp hjin with heq | hrest
        · -- an open stream is not taken off
          have hasync : (c.nodes id).isAsync = true := by
            rw [BufferNode.isAsync_iff, ← heq]
            exact (hI.wired.streams j hj).2
          rw [heq] at hjavail
          rw [hasync, hjavail] at hdone
          cases hdone
        · exact hrest
      · have haligned := hI.aligned
        dsimp only at haligned
        rw [hl] at haligned
        exact Ledger.aligned_pop haligned
          (BufferNode.content_nil_of_remaining (hI.whole id hin) hrem)
    -- the bytes of the node in front go to the socket
    have hsend : ∀ (c : TcpConnectionImpl) (rs : List SysRet) (id : NodeId) (rest : List NodeId),
        Accounted ⟨c, s.log⟩ → c.writeBufferList = id :: rest → c.remainingBytes id ≠ 0 →
        Accounted ⟨(c.sendNodeInLoop rs id).1, s.log⟩ := by
      intro c rs id rest hI hl _
      have hin : id ∈ c.writeBufferList := by
        rw [hl]
        exact List.mem_cons_self
      exact accounted_moved hI hl (c.sendNode_sent rs id) (sendNode_moved rs (hI.whole id hin))
    obtain ⟨c', hI, ⟨heq, -⟩ | ⟨heq, -⟩⟩ := writeCallback_rule
      (I := fun c => Accounted ⟨c, s.log⟩) hpop hsend (fun c hI => hI.wired.stays_open) rs h hw
    · rw [heq]
      exact hI.of_kept kept_disableWriting hI.nodup hI.whole hI.streams_wait rfl hI.aligned hI.sent
    · rw [heq]
      exact hI

/-! ## Steps and runs -/

theorem accounted_step {s : Ledgered} (h : s.Accounted) {op : Op} (hop : op.ordered = true)
    (rs : List SysRet) : (s.step (op, rs)).Accounted := by
  have hf := h.running.1
  -- on a connected connection a stream calls through to the connection
  have hcallback : ∀ id data, s.conn.streamCallback rs true id data
      = s.conn.sendAsyncDataInLoop rs id data := by
    intro id data
    rw [streamCallback, if_neg (not_not_intro h.running.2)]
    rfl
  cases op with
  | send inLoop msg =>
    cases inLoop with
    | false => cases hop
    | true =>
      have hstep : s.step (.send true msg, rs)
          = ⟨s.conn.sendInLoop rs msg, s.log ++ [⟨none, msg⟩]⟩ :=
        congrArg (Ledgered.mk · _) (step_send rs true hf msg)
      rw [hstep]
      exact accounted_send h rs msg
  | sendAsyncStream inLoop disableKickoff =>
    cases inLoop with
    | false => cases hop
    | true =>
      have hstep : s.step (.sendAsyncStream true disableKickoff, rs)
          = ⟨s.conn.newStream.sendAsyncStreamInLoop s.conn.nextNode disableKickoff,
            s.log ++ [⟨some s.conn.nextNode, []⟩]⟩ :=
        congrArg (Ledgered.mk · _) (step_sendAsyncStream rs true hf disableKickoff)
      rw [hstep]
      exact accounted_open h disableKickoff
  | asyncSend inLoop id data =>
    cases inLoop with
    | false => cases hop
    | true =>
      have hconn := step_asyncSend rs true hf id data
      by_cases hid : id ∈ s.conn.streams
      · rw [if_pos hid, hcallback] at hconn
        have hstep : s.step (.asyncSend true id data, rs)
            = ⟨s.conn.sendAsyncDataInLoop rs id (some data), Ledger.chunk id data s.log⟩ := by
          unfold step
          rw [hconn]
          exact congrArg (Ledgered.mk _) (if_pos hid)
        rw [hstep]
        exact accounted_asyncSend h rs hid data
      · rw [if_neg hid] at hconn
        have hstep : s.step (.asyncSend true id data, rs) = s := by
          unfold step
          rw [hconn]
          exact congrArg (Ledgered.mk _) (if_neg hid)
        rw [hstep]
        exact h
  | asyncClose inLoop id =>
    cases inLoop with
    | false => cases hop
    | true =>
      have hconn := step_asyncClose rs true hf id
      by_cases hid : id ∈ s.conn.streams
      · rw [if_pos hid, hcallback] at hconn
        have hstep : s.step (.asyncClose true id, rs) = ⟨_, s.log⟩ :=
          congrArg (Ledgered.mk · _) hconn
        rw [hstep]
        exact accounted_asyncClose h rs hid
      · rw [if_neg hid] at hconn
        have hstep : s.step (.asyncClose true id, rs) = s :=
          congrArg (Ledgered.mk · _) hconn
        rw [hstep]
        exact h
  | writeCallback =>
    have hstep : s.step (.writeCallback, rs) = ⟨s.conn.writeCallback rs, s.log⟩ :=
      congrArg (Ledgered.mk · _) (step_writeCallback rs hf)
    rw [hstep]
    exact accounted_writeCallback h rs
  | _ => cases hop

theorem accounted_start (highWaterMark : Option Nat) (kickoff : Kickoff) :
    (start highWaterMark kickoff).Accounted where
  wired := wired_established highWaterMark kickoff
  running := ⟨rfl, rfl⟩
  nodup := List.nodup_nil
  whole _ hid := nomatch hid
  streams_wait _ hid := nomatch hid
  owners_nodup := List.nodup_nil
  owners_lt _ hid := nomatch hid
  aligned := rfl
  sent := rfl

/-- **Order and conservation.** In every state of every run of sends, streams and write
events, what the socket has accepted and what waits in the nodes is what was asked, in
order; nothing overtakes an open stream; and `bytesSent_` counts what was accepted. -/
theorem conserved (highWaterMark : Option Nat) (kickoff : Kickoff)
    (as : List (Op × List SysRet)) (hops : ∀ a ∈ as, a.1.ordered = true) :
    Runs.Always step Conserved (start highWaterMark kickoff) as := by
  have hall := Runs.always_of_along (I := Accounted)
    (G := fun _ (a : Op × List SysRet) => a.1.ordered = true)
    (fun _ a h hop => accounted_step h hop a.2) (accounted_start highWaterMark kickoff)
    (Runs.along_of_mem hops _)
  exact hall.mono fun _ h => h.toConserved

/-- A payload of which a part is taken, and a stream with a payload behind it. -/
theorem conserved_stream :
    Runs.Always step Conserved (start none .new)
      [(.send true [1, 2, 3], [⟨some 1, .success, 0⟩]), (.sendAsyncStream true false, []),
        (.send true [7, 8], []), (.asyncSend true 1 [4, 5], []), (.writeCallback, [.again]),
        (.asyncClose true 1, [])] :=
  conserved none .new _ (by decide)

end Ledgered

end TcpConnectionImpl

end XiaoNet
