import XiaoNet.Net.TcpConnectionImpl

/-!
# What sending does to a connection

- `accepted`: how many bytes a `write(2)` takes; `writeRaw_eq` is `writeRaw` in one line.
- `Sent c c' id`: `c'` is `c` after some calls of the kernel for node `id`. Nothing
  else has changed but the counters, the channel and the kick-off time.
- `sendNode_sent`, `sendNode_isWriting`, `sendNode_drained` and `sendNode_calls` say
  what `sendNodeInLoop` does; callers never unfold it.
-/

namespace XiaoNet

/-! ## Nodes -/

/-- The class of a node. -/
inductive Kind where
  | file
  | mem
  | stream
  | async
  deriving DecidableEq

namespace DataNode

def kind : DataNode → Kind
  | .mem _ _ => .mem
  | .stream _ _ _ _ => .stream
  | .async _ _ => .async

variable (d : DataNode)

@[simp] theorem kind_done : d.done.kind = d.kind := by
  cases d <;> rfl

@[simp] theorem kind_retrieve (len : Nat) : (d.retrieve len).kind = d.kind := by
  cases d <;> rfl

@[simp] theorem kind_append (data : List Byte) : (d.append data).kind = d.kind := by
  cases d <;> rfl

@[simp] theorem kind_getData : d.getData.2.kind = d.kind := by
  cases d with
  | mem isDone buffer => rfl
  | async isDone buffer => rfl
  | stream isDone callback calls buffer =>
    cases buffer with
    | nil =>
      rw [getData]
      split <;> rfl
    | cons b bs => rfl

theorem remaining_nonneg : 0 ≤ d.remainingBytes := by
  cases d with
  | mem isDone buffer =>
    show 0 ≤ if isDone then (0 : Int) else buffer.length
    split
    · exact Int.le_refl 0
    · exact Int.natCast_nonneg _
  | stream isDone callback calls buffer =>
    show 0 ≤ if isDone then (0 : Int) else 1
    split <;> decide
  | async isDone buffer => exact Int.natCast_nonneg _

/-- A node without bytes makes the loop of `sendNodeInLoop` stop at once. -/
theorem remaining_done_of_empty (h : d.getData.1 = []) : d.getData.2.done.remainingBytes ≤ 0 := by
  cases d with
  | mem isDone buffer => simp [getData, done, remainingBytes]
  | async isDone buffer =>
    have hnil : buffer.getD [] = [] := h
    simp [getData, done, remainingBytes, hnil]
  | stream isDone callback calls buffer =>
    have hstream : ∀ d' : DataNode, d'.kind = .stream → d'.done.remainingBytes ≤ 0 := by
      intro d' hd'
      cases d' with
      | mem _ _ => cases hd'
      | async _ _ => cases hd'
      | stream _ _ _ _ => exact Int.le_refl 0
    exact hstream _ (kind_getData _)

/-- A part of the bytes leaves bytes to send. -/
theorem remaining_retrieve_pos {n : Nat} (hrem : d.remainingBytes > 0)
    (hn : n < d.getData.1.length) : (d.getData.2.retrieve n).remainingBytes > 0 := by
  cases d with
  | mem isDone buffer =>
    cases isDone with
    | true => simp [remainingBytes] at hrem
    | false =>
      simp only [getData] at hn ⊢
      simp only [retrieve, remainingBytes, List.length_drop, Bool.false_eq_true, if_false]
      omega
  | async isDone buffer =>
    simp only [getData] at hn ⊢
    cases buffer with
    | none => simp at hn
    | some bytes =>
      simp only [Option.getD_some] at hn
      simp only [retrieve, remainingBytes, Option.map_some, Option.getD_some, List.length_drop]
      omega
  | stream isDone callback calls buffer =>
    cases isDone with
    | true => simp [remainingBytes] at hrem
    | false =>
      cases buffer with
      | nil =>
        rw [getData] at hn ⊢
        split at hn
        · simp at hn
        · simp_all [retrieve, remainingBytes]
      | cons b bs => simp [getData, retrieve, remainingBytes]

end DataNode

theorem FileBufferNode.remaining_retrieve_nonneg (f : FileBufferNode) (len : Nat) :
    0 ≤ (f.retrieve len).remainingBytes := by
  have hclamp : 0 ≤ if f.fileBytesToSend - len < 0 then 0 else f.fileBytesToSend - len := by
    split <;> omega
  cases hdone : f.isDone with
  | true => simp [retrieve, remainingBytes, hdone]
  | false =>
    simp only [retrieve, remainingBytes, hdone]
    exact hclamp

namespace BufferNode

def kind : BufferNode → Kind
  | .file _ => .file
  | .data d => d.kind

variable (node : BufferNode)

@[simp] theorem kind_done : node.done.kind = node.kind := by
  cases node <;> simp [done, kind]

@[simp] theorem kind_append (data : List Byte) : (node.append data).kind = node.kind := by
  cases node <;> simp [append, kind]

theorem isAsync_iff : node.isAsync = true ↔ node.kind = .async := by
  cases node with
  | file f => simp [isAsync, kind]
  | data d => cases d <;> simp [isAsync, DataNode.isAsync, kind, DataNode.kind]

/-- What takes the bytes of a later `send`. -/
theorem isMem_iff : (node.isFile || node.isStream) = false ↔ node.kind = .mem := by
  cases node with
  | file f => simp [isFile, kind]
  | data d => cases d <;> simp [isFile, isStream, DataNode.isStream, kind, DataNode.kind]

/-- The node gives `sendNodeInLoop` nothing to send. -/
def idle : BufferNode → Bool
  | .file f => f.remainingBytes ≤ 0
  | .data d => d.remainingBytes ≤ 0 || d.getData.1.isEmpty

end BufferNode

/-! ## One `write(2)` -/

/-- How many bytes of `buffer` a `write(2)` takes. -/
def accepted (r : SysRet) (buffer : List Byte) : Nat :=
  match r.taken with
  | some k => min k (min buffer.length kMaxSendBytes)
  | none => 0

theorem accepted_le (r : SysRet) (buffer : List Byte) : accepted r buffer ≤ buffer.length := by
  unfold accepted
  split <;> omega

theorem accepted_again (buffer : List Byte) : accepted .again buffer = 0 := rfl

theorem Socket.write_fst (s : Socket) (r : SysRet) (buffer : List Byte) :
    (s.write r buffer).1 = { s with
      output := s.output ++ buffer.take (accepted r buffer)
      calls := s.calls + 1 } := by
  unfold Socket.write accepted
  cases r.taken with
  | none => simp
  | some k => rfl

theorem Socket.write_snd (s : Socket) (r : SysRet) (buffer : List Byte) :
    (s.write r buffer).2 = accepted r buffer ∨
      ((s.write r buffer).2 = -1 ∧ accepted r buffer = 0) := by
  unfold Socket.write accepted
  cases r.taken with
  | none => exact .inr ⟨rfl, rfl⟩
  | some k => exact .inl rfl

/-- The calls take every byte the node gives until it gives no more. -/
def drains : List SysRet → DataNode → Bool
  | rs, d =>
    if d.remainingBytes > 0 then
      if d.getData.1 = [] then true
      else
        match rs with
        | [] => false
        | r :: rs =>
          accepted r d.getData.1 = d.getData.1.length &&
            drains rs (d.getData.2.retrieve d.getData.1.length)
    else true

namespace TcpConnectionImpl

variable (c : TcpConnectionImpl)

/-- The channel after a `write(2)` that took `n` of `len` bytes. -/
@[irreducible] def rearmed (ch : Channel) (n len : Nat) : Channel :=
  if (n : Int) < toInt32 len then if ch.isWriting then ch else ch.enableReading else ch

@[simp] theorem isWriting_rearmed (ch : Channel) (n len : Nat) :
    (rearmed ch n len).isWriting = ch.isWriting := by
  unfold rearmed
  split
  · split
    · rfl
    · exact Channel.isWriting_enableReading ch
  · rfl

/-- The connection after a `write(2)`. -/
def wrote (r : SysRet) (buffer : List Byte) : TcpConnectionImpl :=
  { c with
    socket := { c.socket with
      output := c.socket.output ++ buffer.take (accepted r buffer)
      calls := c.socket.calls + 1 }
    bytesSent := c.bytesSent + accepted r buffer
    ioChannel := rearmed c.ioChannel (accepted r buffer) buffer.length
    kickoff := c.kickoff.extendLife r.now }

theorem writeRaw_eq (r : SysRet) (buffer : List Byte) :
    c.writeRaw r buffer = (c.wrote r buffer, (accepted r buffer : Int)) := by
  unfold wrote
  have hsnd := Socket.write_snd c.socket r buffer
  unfold writeRaw
  rw [← Socket.write_fst c.socket r buffer]
  generalize c.socket.write r buffer = w at hsnd ⊢
  obtain ⟨socket, nWritten⟩ := w
  generalize accepted r buffer = n at hsnd ⊢
  have hclamp : (if nWritten < 0 then 0 else nWritten) = (n : Int) := by
    split <;> omega
  have hsent : (if nWritten > 0 then { { c with socket := socket } with
      bytesSent := c.bytesSent + nWritten.toNat } else { c with socket := socket })
        = { c with socket := socket, bytesSent := c.bytesSent + n } := by
    split
    · rw [show nWritten.toNat = n by omega]
    · rw [show n = 0 by omega, Nat.add_zero]
  unfold rearmed
  simp only [hclamp, hsent, extendLife]
  by_cases hlt : (n : Int) < toInt32 buffer.length <;>
    by_cases hw : c.ioChannel.isWriting = true <;> simp [hlt, hw]

/-! ## Sending a node -/

/-- The connection without what sending a node can change. -/
def frame (c : TcpConnectionImpl) : TcpConnectionImpl :=
  { c with
    ioChannel := .new
    socket := ⟨[], 0, c.socket.writeClosed⟩
    nodes := fun _ => .data .newMemBufferNode
    bytesSent := 0
    kickoff := .new }

/-- `c'` is `c` after some calls of the kernel for node `id`. -/
structure Sent (c c' : TcpConnectionImpl) (id : NodeId) : Prop where
  frame_eq : c'.frame = c.frame
  others : ∀ j, j ≠ id → c'.nodes j = c.nodes j
  kind_eq : (c'.nodes id).kind = (c.nodes id).kind
  accounted : ∃ bytes, c'.socket.output = c.socket.output ++ bytes ∧
    c'.bytesSent = c.bytesSent + bytes.length
  writing : c.ioChannel.isWriting = true → c'.ioChannel.isWriting = true
  calls_le : c.socket.calls ≤ c'.socket.calls

variable {c}

theorem Sent.refl (c : TcpConnectionImpl) (id : NodeId) : Sent c c id :=
  ⟨rfl, fun _ _ => rfl, rfl, ⟨[], by simp, by simp⟩, fun h => h, Nat.le_refl _⟩

theorem Sent.trans {c₁ c₂ c₃ : TcpConnectionImpl} {id : NodeId} (h₁ : Sent c₁ c₂ id)
    (h₂ : Sent c₂ c₃ id) : Sent c₁ c₃ id := by
  obtain ⟨bs₁, hout₁, hsent₁⟩ := h₁.accounted
  obtain ⟨bs₂, hout₂, hsent₂⟩ := h₂.accounted
  refine ⟨h₂.frame_eq.trans h₁.frame_eq, fun j hj => (h₂.others j hj).trans (h₁.others j hj),
    h₂.kind_eq.trans h₁.kind_eq, ⟨bs₁ ++ bs₂, ?_, ?_⟩, fun hw => h₂.writing (h₁.writing hw),
    Nat.le_trans h₁.calls_le h₂.calls_le⟩
  · rw [hout₂, hout₁, List.append_assoc]
  · rw [hsent₂, hsent₁, List.length_append]
    omega

theorem Sent.status_eq {c' : TcpConnectionImpl} {id : NodeId} (h : Sent c c' id) :
    c'.status = c.status := by
  have hframe := congrArg TcpConnectionImpl.status h.frame_eq
  exact hframe

theorem Sent.list_eq {c' : TcpConnectionImpl} {id : NodeId} (h : Sent c c' id) :
    c'.writeBufferList = c.writeBufferList := by
  have hframe := congrArg TcpConnectionImpl.writeBufferList h.frame_eq
  exact hframe

theorem sent_setNode (id : NodeId) {node : BufferNode} (h : node.kind = (c.nodes id).kind) :
    Sent c (c.setNode id node) id := by
  refine ⟨rfl, fun j hj => Function.update_of_ne hj _ _, ?_, ⟨[], ?_, rfl⟩, fun h => h,
    Nat.le_refl _⟩
  · show (Function.update c.nodes id node id).kind = _
    rw [Function.update_self, h]
  · exact (List.append_nil _).symm

/-- What a call changes besides the node. -/
theorem sent_counters (id : NodeId) (ch : Channel) (kickoff : Kickoff) (bytes : List Byte)
    {n : Nat} (hn : bytes.length = n) (hw : c.ioChannel.isWriting = true → ch.isWriting = true) :
    Sent c { c with
      socket := { c.socket with
        output := c.socket.output ++ bytes
        calls := c.socket.calls + 1 }
      bytesSent := c.bytesSent + n
      ioChannel := ch
      kickoff := kickoff } id := by
  refine ⟨rfl, fun j _ => rfl, rfl, ⟨bytes, rfl, ?_⟩, hw, Nat.le_succ _⟩
  rw [hn]

theorem sent_wrote (r : SysRet) (buffer : List Byte) (id : NodeId) :
    Sent c (c.wrote r buffer) id := by
  have hlen : (buffer.take (accepted r buffer)).length = accepted r buffer := by
    rw [List.length_take, Nat.min_eq_left (accepted_le r buffer)]
  have hw := isWriting_rearmed c.ioChannel (accepted r buffer) buffer.length
  exact sent_counters id _ (c.kickoff.extendLife r.now) _ hlen fun h => hw.trans h

/-- What does not look at the socket, the channel and the times is as before. -/
theorem wrote_same {β : Type} (get : TcpConnectionImpl → β) (r : SysRet) (buffer : List Byte)
    (hget : ∀ c socket n ch kickoff, get { c with
      socket := socket
      bytesSent := n
      ioChannel := ch
      kickoff := kickoff } = get c) : get (c.wrote r buffer) = get c :=
  hget c _ _ _ _

theorem nodes_wrote (r : SysRet) (buffer : List Byte) : (c.wrote r buffer).nodes = c.nodes :=
  wrote_same TcpConnectionImpl.nodes r buffer fun _ _ _ _ _ => rfl

theorem calls_wrote (r : SysRet) (buffer : List Byte) :
    (c.wrote r buffer).socket.calls = c.socket.calls + 1 := rfl

theorem nodes_setNode_self (id : NodeId) (node : BufferNode) :
    (c.setNode id node).nodes id = node := Function.update_self _ _ _

/-- The connection after a round that writes. -/
def written (c : TcpConnectionImpl) (r : SysRet) (id : NodeId) (d : DataNode) :
    TcpConnectionImpl :=
  ((c.setNode id (.data d.getData.2)).wrote r d.getData.1).setNode id
    (.data (d.getData.2.retrieve (accepted r d.getData.1)))

/-- A round of the loop ends with a node that has nothing to give, or a write that
takes everything, or one that takes a part. -/
theorem sendDataRound_cases (r : SysRet) (id : NodeId) (d : DataNode) (hasSent : Int) :
    (d.getData.1 = [] ∧
      c.sendDataRound r id d hasSent
        = ((c.setNode id (.data d.getData.2)).setNode id (.data d.getData.2.done),
          .stop hasSent)) ∨
    (d.getData.1 ≠ [] ∧
      c.sendDataRound r id d hasSent
        = (c.written r id d,
          if accepted r d.getData.1 = d.getData.1.length
          then .next (hasSent + accepted r d.getData.1)
          else .stop (hasSent + accepted r d.getData.1))) := by
  have hle := accepted_le r d.getData.1
  by_cases hnil : d.getData.1 = []
  · refine .inl ⟨hnil, ?_⟩
    simp [sendDataRound, hnil]
  · refine .inr ⟨hnil, ?_⟩
    have hlen : d.getData.1.length ≠ 0 := fun h => hnil (List.length_eq_zero_iff.mp h)
    unfold sendDataRound
    simp only [writeInLoop, writeRaw_eq, hlen, if_false]
    rw [if_pos (Int.natCast_nonneg _), Int.toNat_natCast, ← written]
    by_cases hall : accepted r d.getData.1 = d.getData.1.length
    · rw [if_neg (by omega), if_pos hall]
    · rw [if_pos (by omega), if_neg hall]

/-- What sending a node in memory leads to. -/
structure DataSent (c c' : TcpConnectionImpl) (id : NodeId) (d : DataNode) (n : Int)
    (all : Bool) : Prop where
  sent : Sent c c' id
  nonneg : 0 ≤ n
  writing_eq : c'.ioChannel.isWriting = c.ioChannel.isWriting
  drained : c'.remainingBytes id ≤ 0 ↔ all = true
  quiet : (BufferNode.data d).idle = true →
    c'.ioChannel = c.ioChannel ∧ c'.socket = c.socket
  calls : (BufferNode.data d).idle = false → c.socket.calls < c'.socket.calls

theorem remainingBytes_setNode_self (id : NodeId) (node : BufferNode) :
    (c.setNode id node).remainingBytes id = node.remainingBytes := by
  rw [remainingBytes, nodes_setNode_self]

/-- A node that is finished already. -/
theorem dataSent_finished {id : NodeId} {d : DataNode} (hd : c.nodes id = .data d)
    (hrem : ¬ d.remainingBytes > 0) {hasSent : Int} (h0 : 0 ≤ hasSent) (rs : List SysRet) :
    DataSent c c id d hasSent (drains rs d) := by
  have hle : d.remainingBytes ≤ 0 := Int.not_lt.mp hrem
  have hidle : (BufferNode.data d).idle = true := by simp [BufferNode.idle, hle]
  refine ⟨.refl c id, h0, rfl, ?_, fun _ => ⟨rfl, rfl⟩, fun h => ?_⟩
  · rw [remainingBytes, hd]
    unfold drains
    rw [if_neg hrem]
    exact iff_of_true hle rfl
  · rw [hidle] at h
    cases h

/-- A node that gives nothing. -/
theorem dataSent_empty {id : NodeId} {d : DataNode} (hd : c.nodes id = .data d)
    (hrem : d.remainingBytes > 0) (hnil : d.getData.1 = []) {hasSent : Int} (h0 : 0 ≤ hasSent)
    (rs : List SysRet) :
    DataSent c ((c.setNode id (.data d.getData.2)).setNode id (.data d.getData.2.done)) id d
      hasSent (drains rs d) := by
  have hidle : (BufferNode.data d).idle = true := by simp [BufferNode.idle, hnil]
  have hkind : (BufferNode.data d.getData.2).kind = (c.nodes id).kind := by
    rw [hd]
    exact d.kind_getData
  refine ⟨(sent_setNode id hkind).trans (sent_setNode id ?_), h0, rfl, ?_, fun _ => ⟨rfl, rfl⟩,
    fun h => ?_⟩
  · rw [nodes_setNode_self]
    exact DataNode.kind_done _
  · rw [remainingBytes_setNode_self]
    unfold drains
    rw [if_pos hrem, if_pos hnil]
    exact iff_of_true (d.remaining_done_of_empty hnil) rfl
  · rw [hidle] at h
    cases h

theorem nodes_written (r : SysRet) (id : NodeId) (d : DataNode) :
    (c.written r id d).nodes id = .data (d.getData.2.retrieve (accepted r d.getData.1)) :=
  nodes_setNode_self _ _

theorem isWriting_written (r : SysRet) (id : NodeId) (d : DataNode) :
    (c.written r id d).ioChannel.isWriting = c.ioChannel.isWriting :=
  isWriting_rearmed _ _ _

theorem calls_written (r : SysRet) (id : NodeId) (d : DataNode) :
    (c.written r id d).socket.calls = c.socket.calls + 1 := rfl

theorem sent_written (r : SysRet) {id : NodeId} {d : DataNode} (hd : c.nodes id = .data d) :
    Sent c (c.written r id d) id := by
  have hkind : (BufferNode.data d.getData.2).kind = (c.nodes id).kind := by
    rw [hd]
    exact d.kind_getData
  have hpre := (sent_setNode id hkind).trans (sent_wrote r d.getData.1 id)
  refine hpre.trans (sent_setNode id ?_)
  rw [hpre.kind_eq, ← hkind]
  exact DataNode.kind_retrieve _ _

theorem not_idle {d : DataNode} (hrem : d.remainingBytes > 0) (hdata : d.getData.1 ≠ []) :
    (BufferNode.data d).idle = false := by
  have hle : ¬ d.remainingBytes ≤ 0 := Int.not_le.mpr hrem
  simp [BufferNode.idle, hle, hdata]

/-- A round that writes a part. -/
theorem dataSent_part (r : SysRet) {id : NodeId} {d : DataNode} (hd : c.nodes id = .data d)
    (hrem : d.remainingBytes > 0) (hdata : d.getData.1 ≠ [])
    (hpart : accepted r d.getData.1 ≠ d.getData.1.length) {n : Int} (h0 : 0 ≤ n) :
    DataSent c (c.written r id d) id d n false := by
  have hlt : accepted r d.getData.1 < d.getData.1.length :=
    Nat.lt_of_le_of_ne (accepted_le r _) hpart
  have hidle := not_idle hrem hdata
  refine ⟨sent_written r hd, h0, isWriting_written r id d, ?_, fun h => ?_, fun _ => ?_⟩
  · rw [remainingBytes, nodes_written]
    have hpos := d.remaining_retrieve_pos hrem hlt
    refine ⟨fun h => ?_, fun h => nomatch h⟩
    exact absurd h (Int.not_le.mpr hpos)
  · rw [hidle] at h
    cases h
  · rw [calls_written]
    exact Nat.lt_succ_self _

/-- A round that writes everything and the rounds after it. -/
theorem DataSent.after_written {c' : TcpConnectionImpl} (r : SysRet) {id : NodeId}
    {d : DataNode} (hd : c.nodes id = .data d) (hrem : d.remainingBytes > 0)
    (hdata : d.getData.1 ≠ []) {d' : DataNode} {n : Int} {all : Bool}
    (h : DataSent (c.written r id d) c' id d' n all) : DataSent c c' id d n all := by
  have hidle := not_idle hrem hdata
  refine ⟨(sent_written r hd).trans h.sent, h.nonneg,
    h.writing_eq.trans (isWriting_written r id d), h.drained, fun hq => ?_, fun _ => ?_⟩
  · rw [hidle] at hq
    cases hq
  · have hcalls := h.sent.calls_le
    rw [calls_written] at hcalls
    exact hcalls

/-- **The loop of `sendNodeInLoop`** for a node in memory. -/
theorem sendDataLoop_spec (id : NodeId) (rs : List SysRet) {d : DataNode}
    (hd : c.nodes id = .data d) {hasSent : Int} (h0 : 0 ≤ hasSent) :
    DataSent c (sendDataLoop id rs c hasSent).1 id d (sendDataLoop id rs c hasSent).2.1
      (drains rs d) := by
  -- by induction on the answers of the system: a full write goes on with the next one
  induction rs generalizing c d hasSent with
  | nil =>
    unfold sendDataLoop
    rw [hd]
    dsimp only
    by_cases hrem : d.remainingBytes > 0
    · rw [if_pos hrem]
      rcases sendDataRound_cases (c := c) .again id d hasSent with
        ⟨hnil, heq⟩ | ⟨hdata, heq⟩
      · rw [heq]
        exact dataSent_empty hd hrem hnil h0 []
      · have hpart : accepted .again d.getData.1 ≠ d.getData.1.length := by
          rw [accepted_again]
          exact fun h => hdata (List.length_eq_zero_iff.mp h.symm)
        have hstuck : drains [] d = false := by
          unfold drains
          rw [if_pos hrem, if_neg hdata]
        rw [heq, if_neg hpart, hstuck]
        exact dataSent_part .again hd hrem hdata hpart (Int.add_nonneg h0 (Int.natCast_nonneg _))
    · rw [if_neg hrem]
      exact dataSent_finished hd hrem h0 []
  | cons r rs ih =>
    unfold sendDataLoop
    rw [hd]
    dsimp only
    by_cases hrem : d.remainingBytes > 0
    · rw [if_pos hrem]
      rcases sendDataRound_cases (c := c) r id d hasSent with
        ⟨hnil, heq⟩ | ⟨hdata, heq⟩
      · rw [heq]
        exact dataSent_empty hd hrem hnil h0 (r :: rs)
      · have hdrains : drains (r :: rs) d =
            (accepted r d.getData.1 = d.getData.1.length &&
              drains rs (d.getData.2.retrieve d.getData.1.length)) := by
          rw [drains, if_pos hrem, if_neg hdata]
        rw [heq, hdrains]
        by_cases hall : accepted r d.getData.1 = d.getData.1.length
        · rw [if_pos hall]
          have h0' : 0 ≤ hasSent + (accepted r d.getData.1 : Int) := by omega
          have hnext := ih (c := c.written r id d) (nodes_written r id d) h0'
          rw [hall] at hnext ⊢
          simp only [decide_true, Bool.true_and]
          exact hnext.after_written r hd hrem hdata
        · rw [if_neg hall]
          simp only [hall, decide_false, Bool.false_and]
          exact dataSent_part r hd hrem hdata hall (Int.add_nonneg h0 (Int.natCast_nonneg _))
    · rw [if_neg hrem]
      exact dataSent_finished hd hrem h0 (r :: rs)

/-! ## A file node -/

theorem Socket.sendfile_cases (s : Socket) (r : SysRet) (file : List Byte) (count : Nat) :
    (∃ bytes, s.sendfile r file count
      = ({ s with output := s.output ++ bytes, calls := s.calls + 1 }, (bytes.length : Int)) ∧
        bytes <+: file ∧ bytes.length ≤ count) ∨
    s.sendfile r file count = ({ s with calls := s.calls + 1 }, -1) := by
  unfold Socket.sendfile
  cases r.taken with
  | none => exact .inr rfl
  | some k =>
    refine .inl ⟨file.take (min k (min file.length count)), ?_, List.take_prefix _ _, ?_⟩
    · rw [List.length_take]
      simp
    · rw [List.length_take]
      omega

/-- What a `sendfile(2)` that is no error leaves. -/
def fileSent (c : TcpConnectionImpl) (r : SysRet) (id : NodeId) (f : FileBufferNode)
    (bytes : List Byte) : TcpConnectionImpl :=
  let c := { c with
    socket := { c.socket with
      output := c.socket.output ++ bytes
      calls := c.socket.calls + 1 }
    bytesSent := c.bytesSent + bytes.length
    ioChannel := if (bytes.length : Int) < f.remainingBytes then
        if c.ioChannel.isWriting then c.ioChannel else c.ioChannel.enableWriting
      else c.ioChannel
    kickoff := c.kickoff.extendLife r.now }
  if bytes = [] then c else c.setNode id (.file (f.retrieve bytes.length))

theorem sendFileNode_cases (r : SysRet) (id : NodeId) {f : FileBufferNode}
    (hpos : f.remainingBytes > 0) :
    c.sendFileNode r id f
        = ({ c with socket := { c.socket with calls := c.socket.calls + 1 } }, -1) ∨
    ∃ bytes n, c.sendFileNode r id f = (c.fileSent r id f bytes, n) ∧
      bytes <+: f.sendFd.getD [] ∧ (bytes.length : Int) ≤ f.remainingBytes := by
  unfold sendFileNode
  simp only [if_neg (Int.not_le.mpr hpos)]
  have hcount : ((if f.remainingBytes < kMaxSendBytes then f.remainingBytes.toNat
      else kMaxSendBytes : Nat) : Int) ≤ f.remainingBytes := by
    split <;> omega
  generalize (if f.remainingBytes < kMaxSendBytes then f.remainingBytes.toNat
    else kMaxSendBytes) = count at hcount ⊢
  rcases Socket.sendfile_cases c.socket r (f.sendFd.getD []) count with
    ⟨bytes, hs, hprefix, hle⟩ | hs
  · simp only [hs]
    by_cases hb : bytes = []
    · subst hb
      -- no byte and no error: `errno` is still read
      cases hagain : isEAGAIN r.errno with
      | true =>
        refine .inr ⟨[], 0, ?_, hprefix, Int.le_of_lt hpos⟩
        simp [fileSent, extendLife, enableWriting, hpos]
        split <;> rfl
      | false =>
        left
        simp
    · have hlen : (bytes.length : Int) > 0 := by
        have := List.length_pos_iff.mpr hb
        omega
      refine .inr ⟨bytes, bytes.length, ?_, hprefix, by omega⟩
      simp only [hlen, not_true_eq_false, false_and, if_false, if_true, fileSent, if_neg hb,
        Int.toNat_natCast, extendLife, enableWriting]
      by_cases hlt : (bytes.length : Int) < f.remainingBytes <;>
        by_cases hw : c.ioChannel.isWriting = true <;> simp [hlt, hw, setNode]
  · simp only [hs]
    cases hagain : isEAGAIN r.errno with
    | true =>
      refine .inr ⟨[], -1, ?_, List.nil_prefix, Int.le_of_lt hpos⟩
      simp [fileSent, extendLife, enableWriting, hpos]
      have : (-1 : Int) < f.remainingBytes := by omega
      simp only [this, if_true]
      split <;> rfl
    | false =>
      left
      simp

theorem sent_fileSent (r : SysRet) {id : NodeId} {f : FileBufferNode}
    (hf : c.nodes id = .file f) (bytes : List Byte) : Sent c (c.fileSent r id f bytes) id := by
  have hcall := sent_counters (c := c) id
    (if (bytes.length : Int) < f.remainingBytes then
        if c.ioChannel.isWriting then c.ioChannel else c.ioChannel.enableWriting
      else c.ioChannel) (c.kickoff.extendLife r.now) bytes rfl
    (fun hw => by simp [hw])
  unfold fileSent
  by_cases hb : bytes = []
  · rw [if_pos hb]
    exact hcall
  · rw [if_neg hb]
    refine hcall.trans (sent_setNode id ?_)
    show Kind.file = (c.nodes id).kind
    rw [hf]
    rfl

/-- A part of the file leaves the connection with write interest. -/
theorem isWriting_fileSent (r : SysRet) {id : NodeId} {f : FileBufferNode}
    (hf : c.nodes id = .file f) (bytes : List Byte)
    (hrem : (c.fileSent r id f bytes).remainingBytes id > 0) :
    (c.fileSent r id f bytes).ioChannel.isWriting = true := by
  have hlt : (bytes.length : Int) < f.remainingBytes := by
    unfold fileSent at hrem
    by_cases hb : bytes = []
    · rw [if_pos hb] at hrem
      have hnode : (c.nodes id).remainingBytes > 0 := hrem
      rw [hf] at hnode
      subst hb
      exact hnode
    · rw [if_neg hb, remainingBytes_setNode_self] at hrem
      have hpos : (f.retrieve bytes.length).remainingBytes > 0 := hrem
      unfold FileBufferNode.retrieve FileBufferNode.remainingBytes at hpos
      unfold FileBufferNode.remainingBytes
      cases hdone : f.isDone with
      | true => simp [hdone] at hpos
      | false =>
        simp only [hdone, Bool.false_eq_true, if_false] at hpos ⊢
        split at hpos <;> omega
  have hch : (c.fileSent r id f bytes).ioChannel =
      if c.ioChannel.isWriting then c.ioChannel else c.ioChannel.enableWriting := by
    unfold fileSent
    simp only [hlt, if_true]
    split <;> rfl
  rw [hch]
  split
  · assumption
  · exact Channel.isWriting_enableWriting _

theorem calls_fileSent (r : SysRet) (id : NodeId) (f : FileBufferNode) (bytes : List Byte) :
    (c.fileSent r id f bytes).socket.calls = c.socket.calls + 1 := by
  unfold fileSent
  by_cases hb : bytes = []
  · rw [if_pos hb]
  · rw [if_neg hb]
    rfl

/-! ## `sendNodeInLoop` -/

variable (c)

theorem sendNodeInLoop_file (rs : List SysRet) {id : NodeId} {f : FileBufferNode}
    (hf : c.nodes id = .file f) :
    c.sendNodeInLoop rs id
      = ((c.sendFileNode (rs.headD .again) id f).1, (c.sendFileNode (rs.headD .again) id f).2,
        rs.tail) := by
  rw [sendNodeInLoop, hf]

theorem sendNodeInLoop_data (rs : List SysRet) {id : NodeId} {d : DataNode}
    (hd : c.nodes id = .data d) : c.sendNodeInLoop rs id = sendDataLoop id rs c 0 := by
  rw [sendNodeInLoop, hd]

/-- A node in memory. -/
theorem sendNode_data (rs : List SysRet) {id : NodeId} {d : DataNode}
    (hd : c.nodes id = .data d) :
    DataSent c (c.sendNodeInLoop rs id).1 id d (c.sendNodeInLoop rs id).2.1 (drains rs d) := by
  rw [sendNodeInLoop_data c rs hd]
  exact sendDataLoop_spec id rs hd (Int.le_refl 0)

theorem sendFileNode_finished (r : SysRet) (id : NodeId) {f : FileBufferNode}
    (hrem : ¬ f.remainingBytes > 0) : c.sendFileNode r id f = (c, -1) := by
  rw [sendFileNode]
  exact if_pos (Int.not_lt.mp hrem)

theorem sendNode_sent (rs : List SysRet) (id : NodeId) :
    Sent c (c.sendNodeInLoop rs id).1 id := by
  cases hnode : c.nodes id with
  | data d =>
    exact (sendNode_data c rs hnode).sent
  | file f =>
    rw [sendNodeInLoop_file c rs hnode]
    by_cases hrem : f.remainingBytes > 0
    · rcases sendFileNode_cases (rs.headD .again) _ hrem with heq | ⟨bytes, n, heq, -⟩
      · rw [heq]
        exact ⟨rfl, fun _ _ => rfl, rfl, ⟨[], (List.append_nil _).symm, rfl⟩, fun h => h,
          Nat.le_succ _⟩
      · rw [heq]
        exact sent_fileSent _ hnode bytes
    · rw [sendFileNode_finished c _ id hrem]
      exact .refl c id

/-- Bytes of a file left over are waited for. -/
theorem sendNode_isWriting (rs : List SysRet) {id : NodeId} (hkind : (c.nodes id).kind = .file)
    (hn : (c.sendNodeInLoop rs id).2.1 ≥ 0)
    (hrem : (c.sendNodeInLoop rs id).1.remainingBytes id > 0) :
    (c.sendNodeInLoop rs id).1.ioChannel.isWriting = true := by
  cases hnode : c.nodes id with
  | data d =>
    rw [hnode] at hkind
    cases d <;> cases hkind
  | file f =>
    rw [sendNodeInLoop_file c rs hnode] at hn hrem ⊢
    by_cases hpos : f.remainingBytes > 0
    · rcases sendFileNode_cases (rs.headD .again) _ hpos with heq | ⟨bytes, n, heq, -⟩
      · rw [heq] at hn
        exact absurd hn (show ¬ (-1 : Int) ≥ 0 by decide)
      · rw [heq] at hrem ⊢
        exact isWriting_fileSent _ hnode bytes hrem
    · rw [sendFileNode_finished c _ id hpos] at hn
      exact absurd hn (show ¬ (-1 : Int) ≥ 0 by decide)

/-- An idle node is passed over without a call. -/
theorem sendNode_idle (rs : List SysRet) {id : NodeId} (hidle : (c.nodes id).idle = true) :
    (c.sendNodeInLoop rs id).1.ioChannel = c.ioChannel ∧
      (c.sendNodeInLoop rs id).1.socket = c.socket := by
  cases hnode : c.nodes id with
  | data d =>
    rw [hnode] at hidle
    exact (sendNode_data c rs hnode).quiet hidle
  | file f =>
    rw [hnode] at hidle
    have hrem : ¬ f.remainingBytes > 0 := Int.not_lt.mpr (of_decide_eq_true hidle)
    rw [sendNodeInLoop_file c rs hnode, sendFileNode_finished c _ id hrem]
    exact ⟨rfl, rfl⟩

/-- A node that is not idle costs a call. -/
theorem sendNode_calls (rs : List SysRet) {id : NodeId} (hidle : (c.nodes id).idle = false) :
    c.socket.calls < (c.sendNodeInLoop rs id).1.socket.calls := by
  cases hnode : c.nodes id with
  | data d =>
    rw [hnode] at hidle
    exact (sendNode_data c rs hnode).calls hidle
  | file f =>
    rw [hnode] at hidle
    have hrem : f.remainingBytes > 0 := Int.not_le.mp (of_decide_eq_false hidle)
    rw [sendNodeInLoop_file c rs hnode]
    rcases sendFileNode_cases (rs.headD .again) _ hrem with heq | ⟨bytes, n, heq, -⟩
    · rw [heq]
      exact Nat.lt_succ_self _
    · rw [heq, calls_fileSent]
      exact Nat.lt_succ_self _

end TcpConnectionImpl

end XiaoNet
