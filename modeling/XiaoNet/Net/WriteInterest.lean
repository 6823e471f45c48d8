import XiaoNet.Net.ConnectionFrame

/-!
# Write interest and waiting bytes

`writeRaw` asks for read events where the kernel leaves bytes over, so a connection
without write interest can come to hold bytes that no event will flush.

- `Fed c`: bytes that wait have a write event, or an open stream without bytes is in
  front of them.
- `Flows c rs op`: the step does not leave bytes over in a connection without write
  interest. `fed_step_iff`: a step from a `Fed` connection ends in one exactly when
  it flows.
- `notStalled_iff`: over whole runs.
-/

namespace XiaoNet

/-- What `send` and the streams queue. -/
def Func.sends : Func → Bool
  | .sendInLoop _ | .sendFile _ | .sendStream _ | .sendAsyncStream _ _ | .sendAsyncData _ _ => true
  | .shutdown | .forceClose | .connectDestroyed => false

namespace TcpConnectionImpl

/-- Sends, streams and the write event. -/
def Op.sends : Op → Bool
  | .send _ _ | .sendFile _ _ | .sendStream _ _ | .sendAsyncStream _ _ | .asyncSend _ _ _
  | .asyncClose _ _ | .runFunc | .writeCallback => true
  | _ => false

/-- No byte waits that no write event will flush. -/
def NotStalled (c : TcpConnectionImpl) : Prop :=
  c.status = .connected → c.writeBufferList ≠ [] → c.ioChannel.isWriting = true ∨ c.Waits

/-- `NotStalled`, whatever the status is. -/
def Fed (c : TcpConnectionImpl) : Prop :=
  c.writeBufferList = [] ∨ c.ioChannel.isWriting = true ∨ c.Waits

/-- Nothing waits and the write event is off. -/
def Unwatched (c : TcpConnectionImpl) : Prop :=
  c.writeBufferList = [] ∧ c.ioChannel.isWriting = false

/-- The calls take all that node `id` gives. -/
def drainsNode (c : TcpConnectionImpl) (rs : List SysRet) (id : NodeId) : Bool :=
  match c.nodes id with
  | .file _ => true
  | .data d => drains rs d

/-- The closure leaves no bytes over in a connection without write interest. -/
def FuncFlows (c : TcpConnectionImpl) (rs : List SysRet) : Func → Prop
  | .sendInLoop msg => c.Unwatched → accepted (rs.headD .again) msg = msg.length
  | .sendStream id => c.Unwatched → c.drainsNode rs id = true
  | .sendAsyncStream id _ =>
    c.Unwatched →
      if c.remainingBytes id > 0 then c.drainsNode rs id = true
      else (c.nodes id).available = true
  | .sendAsyncData id (some data) =>
    c.writeBufferList.head? = some id ∧ c.remainingBytes id = 0 ∧ c.ioChannel.isWriting = false →
      accepted (rs.headD .again) data = data.length
  | _ => True

/-- The step leaves no bytes over in a connection without write interest. -/
def Flows (c : TcpConnectionImpl) (rs : List SysRet) (op : Op) : Prop :=
  c.failed = false →
    match op with
    | .send true msg => c.FuncFlows rs (.sendInLoop msg)
    | .sendStream true callback =>
      c.Unwatched → drains rs (.newStreamBufferNode callback) = true
    | .asyncSend true id data => id ∈ c.streams → c.FuncFlows rs (.sendAsyncData id (some data))
    | .runFunc =>
      match c.funcs with
      | [] => True
      | f :: _ => c.FuncFlows rs f
    | _ => True

variable {c : TcpConnectionImpl}

instance : Decidable c.Waits :=
  decidable_of_iff ((c.writeBufferList.head?.any fun id =>
      (c.nodes id).isAsync && ((c.nodes id).available && c.remainingBytes id == 0)) = true) <| by
    unfold Waits
    cases c.writeBufferList.head? with
    | none => simp
    | some id => simp

instance : Decidable c.NotStalled := inferInstanceAs (Decidable (_ → _))

instance : Decidable c.Unwatched := inferInstanceAs (Decidable (_ ∧ _))

instance (rs : List SysRet) : (f : Func) → Decidable (c.FuncFlows rs f)
  | .sendInLoop _ => inferInstanceAs (Decidable (_ → _))
  | .sendStream _ => inferInstanceAs (Decidable (_ → _))
  | .sendAsyncStream _ _ => inferInstanceAs (Decidable (_ → _))
  | .sendAsyncData _ (some _) => inferInstanceAs (Decidable (_ → _))
  | .sendFile _ | .sendAsyncData _ none | .shutdown | .forceClose | .connectDestroyed =>
    inferInstanceAs (Decidable True)

instance (rs : List SysRet) (op : Op) : Decidable (c.Flows rs op) := by
  unfold Flows
  refine @instDecidableForall _ _ inferInstance ?_
  split
  · infer_instance
  · infer_instance
  · infer_instance
  · split <;> infer_instance
  · infer_instance

/-! ## Steps that leave the front alone -/

/-- The front of the list and the write interest are as before. -/
theorem Fed.of_front {c' : TcpConnectionImpl} (h : c.Fed)
    (hw : c'.ioChannel.isWriting = c.ioChannel.isWriting)
    (hhead : c'.writeBufferList.head? = c.writeBufferList.head?)
    (hnode : ∀ id, c.writeBufferList.head? = some id → (c.nodes id).isAsync = true →
      c'.nodes id = c.nodes id) : c'.Fed := by
  rcases h with hnil | hon | ⟨id, hfront, hasync, havail, hrem⟩
  · left
    rw [hnil] at hhead
    exact List.head?_eq_none_iff.mp hhead
  · right; left
    rw [hw, hon]
  · right; right
    have heq := hnode id hfront hasync
    refine ⟨id, hhead.trans hfront, ?_, ?_, ?_⟩
    · rw [heq, hasync]
    · rw [heq, havail]
    · rw [remainingBytes, heq]
      exact hrem

theorem fed_of_writing (hw : c.ioChannel.isWriting = true) : c.Fed := .inr (.inl hw)

/-- A front node that is no stream needs the write event. -/
theorem fed_iff_writing {id : NodeId} {rest : List NodeId} (hl : c.writeBufferList = id :: rest)
    (hnot : ¬ ((c.nodes id).isAsync = true ∧ (c.nodes id).available = true ∧
      c.remainingBytes id = 0)) : c.Fed ↔ c.ioChannel.isWriting = true := by
  refine ⟨fun h => ?_, fed_of_writing⟩
  rcases h with hnil | hon | ⟨j, hfront, hstream⟩
  · rw [hl] at hnil
    cases hnil
  · exact hon
  · rw [hl, List.head?_cons, Option.some.injEq] at hfront
    subst hfront
    exact absurd hstream hnot

theorem head?_append_of_ne {list : List NodeId} (id : NodeId) (h : list ≠ []) :
    (list ++ [id]).head? = list.head? := by
  cases list with
  | nil => exact absurd rfl h
  | cons a rest => rfl

/-- One more node behind the others. -/
theorem Fed.pushBack (h : c.Fed) (id : NodeId) (hl : c.writeBufferList ≠ []) :
    (c.pushBack id).Fed :=
  h.of_front rfl (head?_append_of_ne id hl) fun _ _ _ => rfl

/-- A node made before is in front. -/
theorem head_lt (hwired : c.Wired) {id : NodeId} (hhead : c.writeBufferList.head? = some id) :
    id < c.nextNode :=
  hwired.list_lt id (List.mem_of_mem_head? hhead)

theorem Fed.newNode (h : c.Fed) (hwired : c.Wired) (node : BufferNode) :
    (c.newNode node).Fed :=
  h.of_front rfl rfl fun _ hhead _ => nodes_newNode_of_lt node (head_lt hwired hhead)

/-- Bytes queued behind others. -/
theorem Fed.enqueue (h : c.Fed) (hwired : c.Wired) (data : List Byte)
    (hl : c.ioChannel.isWriting = true ∨ c.writeBufferList ≠ []) : (c.enqueue data).Fed := by
  rcases hl with hon | hl
  · exact fed_of_writing (by rw [ioChannel_enqueue, hon])
  · refine h.of_front (by rw [ioChannel_enqueue]) ?_ fun id hhead hasync => ?_
    · rw [list_enqueue]
      split
      · rfl
      · exact head?_append_of_ne _ hl
    · refine nodes_enqueue data (head_lt hwired hhead) fun hmem => ?_
      rw [BufferNode.isAsync_iff, hmem] at hasync
      cases hasync

/-- Bytes that are left over need the write event. -/
theorem fed_enqueue_nil (data : List Byte) (hl : c.writeBufferList = []) :
    (c.enqueue data).Fed ↔ c.ioChannel.isWriting = true := by
  have hback : c.backIsMem = false := by
    rw [backIsMem, hl]
    rfl
  have hlist : (c.enqueue data).writeBufferList = [c.nextNode] := by
    rw [list_enqueue, hback, hl]
    rfl
  have hkind : ((c.enqueue data).nodes c.nextNode).kind = .mem := by
    unfold TcpConnectionImpl.enqueue
    rw [hback]
    simp only [Bool.false_eq_true, if_false]
    rw [(kept_appendBack data).kind_eq c.nextNode (Nat.lt_succ_self _)]
    exact congrArg BufferNode.kind (nodes_newNode_self _)
  rw [fed_iff_writing hlist, ioChannel_enqueue]
  rw [BufferNode.isAsync_iff, hkind]
  exact fun h => nomatch h.1

/-! ## Each way to send -/

/-- With nothing in front, write interest is what keeps a failed send from being lost. -/
theorem isWriting_iff_of_nil (hl : c.writeBufferList = []) {Q : Prop} (hQ : ¬ Q) :
    c.ioChannel.isWriting = true ↔ (c.Unwatched → Q) := by
  constructor
  · intro hw hun
    cases hw.symm.trans hun.2
  · intro hf
    by_contra hw
    exact hQ (hf ⟨hl, eq_false_of_ne_true hw⟩)

theorem pushBack_of_nil (hl : c.writeBufferList = []) (id : NodeId) :
    (c.pushBack id).writeBufferList = [id] := by
  show c.writeBufferList ++ [id] = [id]
  rw [hl]
  rfl

theorem isWriting_wrote (r : SysRet) (buffer : List Byte) :
    (c.wrote r buffer).ioChannel.isWriting = c.ioChannel.isWriting :=
  isWriting_rearmed _ _ _

theorem fed_sendInLoop_iff (h : c.Fed) (hwired : c.Wired) (hs : c.status = .connected)
    (rs : List SysRet) (msg : List Byte) :
    (c.sendInLoop rs msg).Fed ↔ c.FuncFlows rs (.sendInLoop msg) := by
  by_cases hidle : c.Unwatched
  · obtain ⟨hl, hw⟩ := hidle
    rw [sendInLoop_direct rs msg hs hw hl]
    have hflow : c.FuncFlows rs (.sendInLoop msg) ↔
        accepted (rs.headD .again) msg = msg.length :=
      ⟨fun hf => hf ⟨hl, hw⟩, fun hf _ => hf⟩
    rw [hflow]
    have hl' : (c.wrote (rs.headD .again) msg).writeBufferList = [] :=
      (sent_wrote (rs.headD .again) msg 0).list_eq.trans hl
    by_cases hall : accepted (rs.headD .again) msg = msg.length
    · rw [if_pos hall]
      exact iff_of_true (.inl hl') hall
    · rw [if_neg hall, fed_enqueue_nil _ hl', isWriting_wrote, hw]
      exact iff_of_false Bool.false_ne_true hall
  · have hbusy : c.ioChannel.isWriting = true ∨ c.writeBufferList ≠ [] := by
      by_cases hl : c.writeBufferList = []
      · exact .inl (eq_true_of_ne_false fun hw => hidle ⟨hl, hw⟩)
      · exact .inr hl
    rw [sendInLoop_queued rs msg hs hbusy]
    refine ⟨fun _ hun => absurd hun hidle, fun _ => ?_⟩
    split
    · exact h
    · exact h.enqueue hwired msg hbusy

theorem fed_sendOrPush_file (rs : List SysRet) {id : NodeId} (hl : c.writeBufferList = [])
    (hkind : (c.nodes id).kind = .file) : (c.sendOrPush rs id).Fed := by
  unfold sendOrPush
  split
  · rename_i hpush
    exact fed_of_writing (c.sendNode_isWriting rs hkind hpush.2 hpush.1)
  · exact .inl ((c.sendNode_sent rs id).list_eq.trans hl)

theorem fed_sendFileInLoop (h : c.Fed) (rs : List SysRet) {id : NodeId}
    (hkind : (c.nodes id).kind = .file) : (c.sendFileInLoop rs id).Fed := by
  rw [sendFileInLoop_eq]
  split
  · rename_i hl
    exact fed_sendOrPush_file rs hl hkind
  · rename_i hl
    exact h.pushBack id hl

/-- A stream node without write interest. -/
theorem fed_sendOrPush_stream (rs : List SysRet) {id : NodeId} {d : DataNode}
    (hd : c.nodes id = .data d) (hl : c.writeBufferList = []) :
    (c.sendOrPush rs id).Fed ↔ (c.Unwatched → drains rs d = true) := by
  have hsent := c.sendNode_data rs hd
  have hl' : (c.sendNodeInLoop rs id).1.writeBufferList = [] := hsent.sent.list_eq.trans hl
  unfold sendOrPush
  by_cases hdr : drains rs d = true
  · have hle := hsent.drained.mpr hdr
    rw [if_neg (fun h => absurd h.1 (Int.not_lt.mpr hle))]
    exact ⟨fun _ _ => hdr, fun _ => .inl hl'⟩
  · have hpos : (c.sendNodeInLoop rs id).1.remainingBytes id > 0 :=
      Int.not_le.mp fun hle => hdr (hsent.drained.mp hle)
    rw [if_pos ⟨hpos, hsent.nonneg⟩, fed_iff_writing (pushBack_of_nil hl' id)]
    · show (c.sendNodeInLoop rs id).1.ioChannel.isWriting = true ↔ _
      rw [hsent.writing_eq]
      exact isWriting_iff_of_nil hl hdr
    · exact fun hstream => absurd hstream.2.2 (Int.ne_of_gt hpos)

theorem fed_sendFile_stream (h : c.Fed) (rs : List SysRet) {id : NodeId} {d : DataNode}
    (hd : c.nodes id = .data d) :
    (c.sendFileInLoop rs id).Fed ↔ (c.Unwatched → drains rs d = true) := by
  rw [sendFileInLoop_eq]
  split
  · rename_i hl
    exact fed_sendOrPush_stream rs hd hl
  · rename_i hl
    exact ⟨fun _ hun => absurd hun.1 hl, fun _ => h.pushBack id hl⟩

theorem fed_sendStreamInLoop (h : c.Fed) (rs : List SysRet) {id : NodeId} {d : DataNode}
    (hd : c.nodes id = .data d) :
    (c.sendStreamInLoop rs id).Fed ↔ (c.Unwatched → drains rs d = true) := by
  rw [sendStreamInLoop_eq]
  split
  · rename_i hl
    exact fed_sendOrPush_stream rs hd hl
  · rename_i hl
    exact ⟨fun _ hun => absurd hun.1 hl, fun _ => h⟩

/-- Opening a stream in the loop thread. -/
theorem fed_pushBack_open (h : c.Fed) {id : NodeId} (hasync : (c.nodes id).isAsync = true)
    (hrem : c.remainingBytes id = 0) :
    (c.pushBack id).Fed ↔ (c.Unwatched → (c.nodes id).available = true) := by
  by_cases hl : c.writeBufferList = []
  · have hlist := pushBack_of_nil hl id
    cases havail : (c.nodes id).available with
    | true =>
      refine ⟨fun _ _ => rfl, fun _ => .inr (.inr ⟨id, ?_, hasync, havail, hrem⟩)⟩
      rw [hlist]
      rfl
    | false =>
      have hnot : ¬ ((c.nodes id).isAsync = true ∧ (c.nodes id).available = true ∧
          c.remainingBytes id = 0) := by
        rw [havail]
        exact fun h => nomatch h.2.1
      exact (fed_iff_writing hlist hnot).trans (isWriting_iff_of_nil hl Bool.false_ne_true)
  · exact ⟨fun _ hun => absurd hun.1 hl, fun _ => h.pushBack id hl⟩

theorem Fed.disableKickoff (h : c.Fed) (disableKickoff : Bool) :
    (if disableKickoff then c.disableKickoff else c).Fed := by
  cases disableKickoff with
  | true => exact h.of_front rfl rfl fun _ _ _ => rfl
  | false => exact h

theorem fed_sendAsyncStreamQueued_iff (h : c.Fed) (rs : List SysRet) {id : NodeId}
    (hkind : (c.nodes id).kind = .async) (disableKickoff : Bool) :
    (c.sendAsyncStreamQueued rs id disableKickoff).Fed ↔
      c.FuncFlows rs (.sendAsyncStream id disableKickoff) := by
  rw [sendAsyncStreamQueued_eq]
  have hfed := h.disableKickoff disableKickoff
  have hflow : c.FuncFlows rs (.sendAsyncStream id disableKickoff) ↔
      (if disableKickoff then c.disableKickoff else c).FuncFlows rs
        (.sendAsyncStream id disableKickoff) := by
    cases disableKickoff <;> exact Iff.rfl
  have hkind' : ((if disableKickoff then c.disableKickoff else c).nodes id).kind = .async := by
    cases disableKickoff <;> exact hkind
  rw [hflow]
  generalize (if disableKickoff then c.disableKickoff else c) = c' at hfed hkind' ⊢
  dsimp only [FuncFlows]
  cases hd : c'.nodes id with
  | file f =>
    rw [hd] at hkind'
    cases hkind'
  | data d =>
    have hnode : c'.drainsNode rs id = drains rs d := by rw [drainsNode, hd]
    have hsent := c'.sendNode_data rs hd
    by_cases hrem : c'.remainingBytes id > 0
    · rw [if_pos hrem, hnode]
      by_cases hl : c'.writeBufferList = []
      · rw [if_pos ⟨hl, hrem⟩]
        have hl' : (c'.sendNodeInLoop rs id).1.writeBufferList = [] :=
          hsent.sent.list_eq.trans hl
        have hlist := pushBack_of_nil hl' id
        have hasync : ((c'.sendNodeInLoop rs id).1.nodes id).isAsync = true := by
          rw [BufferNode.isAsync_iff, hsent.sent.kind_eq]
          exact hkind'
        by_cases hdr : drains rs d = true
        · have hle := hsent.drained.mpr hdr
          refine ⟨fun _ _ => hdr, fun _ => ?_⟩
          -- an open stream goes to the list even with nothing left to send
          split
          · rename_i hpush
            have havail := hpush.2.resolve_left (Int.not_lt.mpr hle)
            refine .inr (.inr ⟨id, by rw [hlist]; rfl, hasync, havail, ?_⟩)
            refine Int.le_antisymm hle ?_
            show 0 ≤ ((c'.sendNodeInLoop rs id).1.nodes id).remainingBytes
            cases hnode' : (c'.sendNodeInLoop rs id).1.nodes id with
            | file f =>
              rw [hnode'] at hasync
              cases hasync
            | data d' => exact d'.remaining_nonneg
          · exact .inl hl'
        · have hpos : (c'.sendNodeInLoop rs id).1.remainingBytes id > 0 :=
            Int.not_le.mp fun hle => hdr (hsent.drained.mp hle)
          rw [if_pos ⟨hsent.nonneg, .inl hpos⟩, fed_iff_writing hlist]
          · show (c'.sendNodeInLoop rs id).1.ioChannel.isWriting = true ↔ _
            rw [hsent.writing_eq]
            exact isWriting_iff_of_nil hl hdr
          · exact fun hstream => absurd hstream.2.2 (Int.ne_of_gt hpos)
      · rw [if_neg (fun hc => hl hc.1)]
        exact ⟨fun _ hun => absurd hun.1 hl, fun _ => hfed.pushBack id hl⟩
    · rw [if_neg hrem, if_neg (fun hc => hrem hc.2)]
      have hzero : c'.remainingBytes id = 0 := by
        refine Int.le_antisymm (Int.not_lt.mp hrem) ?_
        rw [remainingBytes, hd]
        exact d.remaining_nonneg
      have hasync : (c'.nodes id).isAsync = true := by
        rw [BufferNode.isAsync_iff]
        exact hkind'
      have hopen := fed_pushBack_open hfed hasync hzero
      rw [hd] at hopen
      exact hopen

/-! ## Data of a stream -/

theorem remaining_append {node : BufferNode} (hkind : node.kind = .async) (data : List Byte) :
    (node.append data).remainingBytes = node.remainingBytes + data.length := by
  cases node with
  | file f => cases hkind
  | data d =>
    cases d with
    | mem isDone buffer => cases hkind
    | stream isDone callback calls buffer => cases hkind
    | async isDone buffer =>
      show (((some (buffer.getD [] ++ data)).getD []).length : Int)
        = ((buffer.getD []).length : Int) + data.length
      rw [Option.getD_some, List.length_append, Int.natCast_add]

/-- A change of a node that is not waited for in front. -/
theorem Fed.setNode (h : c.Fed) (id : NodeId) (node : BufferNode)
    (hfront : c.writeBufferList.head? = some id → c.ioChannel.isWriting = true) :
    (c.setNode id node).Fed := by
  by_cases hhead : c.writeBufferList.head? = some id
  · exact fed_of_writing (hfront hhead)
  · refine h.of_front rfl rfl fun j hj _ => Function.update_of_ne (fun heq => hhead ?_) _ _
    rw [← heq]
    exact hj

theorem fed_sendAsyncData_iff (h : c.Fed) (rs : List SysRet) {id : NodeId}
    (hkind : (c.nodes id).kind = .async) (data : List Byte) :
    (c.sendAsyncDataInLoop rs id (some data)).Fed ↔
      c.FuncFlows rs (.sendAsyncData id (some data)) := by
  dsimp only [FuncFlows]
  by_cases hdata : data = []
  · subst hdata
    rw [sendAsyncData_nil]
    exact ⟨fun _ _ => Nat.le_zero.mp (accepted_le _ []), fun _ => h⟩
  · by_cases hfront : c.writeBufferList.head? = some id ∧ c.remainingBytes id = 0
    · -- written at once; what is not accepted is appended, and nothing enables writing
      rw [sendAsyncData_front rs hdata hfront]
      have hsent := sent_wrote (c := c) (rs.headD .again) data id
      have hw := isWriting_wrote (c := c) (rs.headD .again) data
      have hnode : (c.wrote (rs.headD .again) data).nodes id = c.nodes id := by rw [nodes_wrote]
      have hle := accepted_le (rs.headD .again) data
      generalize c.wrote (rs.headD .again) data = c' at hsent hw hnode ⊢
      generalize accepted (rs.headD .again) data = n at hle ⊢
      -- all of it, or a rest that waits
      by_cases hall : n = data.length
      · rw [if_pos hall]
        refine ⟨fun _ _ => hall, fun _ => h.of_front hw ?_ fun j hj _ => ?_⟩
        · rw [hsent.list_eq]
        · rw [hfront.1, Option.some.injEq] at hj
          rw [← hj, hnode]
      · rw [if_neg hall]
        obtain ⟨rest, hl⟩ := List.head?_eq_some_iff.mp hfront.1
        have hl' : (c'.setNode id ((c.nodes id).append (data.drop n))).writeBufferList
            = id :: rest := (list_setNode id _).trans (hsent.list_eq.trans hl)
        have hrem : (c'.setNode id ((c.nodes id).append (data.drop n))).remainingBytes id ≠ 0 := by
          have hzero : (c.nodes id).remainingBytes = 0 := hfront.2
          rw [remainingBytes_setNode_self, remaining_append hkind, hzero, List.length_drop]
          omega
        rw [fed_iff_writing hl' fun hstream => hrem hstream.2.2]
        show c'.ioChannel.isWriting = true ↔ _
        rw [hw]
        cases hon : c.ioChannel.isWriting with
        | true => exact ⟨fun _ hf => absurd hf.2.2 (by decide), fun _ => rfl⟩
        | false =>
          exact ⟨fun hf => (nomatch hf), fun hf => absurd (hf ⟨hfront.1, hfront.2, rfl⟩) hall⟩
    · -- behind other data, or with data of its own left: a node in front has write interest
      rw [sendAsyncData_behind rs hdata hfront]
      refine ⟨fun _ hf => absurd ⟨hf.1, hf.2.1⟩ hfront, fun _ => h.setNode id _ fun hhead => ?_⟩
      obtain ⟨rest, hl⟩ := List.head?_eq_some_iff.mp hhead
      exact (fed_iff_writing hl fun hstream => hfront ⟨hhead, hstream.2.2⟩).mp h

theorem fed_sendAsyncData_none (h : c.Fed) (rs : List SysRet) (id : NodeId) :
    (c.sendAsyncDataInLoop rs id none).Fed := by
  rw [sendAsyncData_close]
  have hclosed : (c.closeNode id).Fed := by
    unfold closeNode
    split
    · exact fed_of_writing (Channel.isWriting_enableWriting _)
    · rename_i hfront
      exact h.setNode id _ fun hhead => eq_true_of_ne_false fun hw => hfront ⟨hhead, hw⟩
  exact hclosed.of_front rfl rfl fun _ _ _ => rfl

/-! ## The write event -/

theorem fed_writeCallback (h : c.Fed) (hclose : c.closeOnEmpty = false) (rs : List SysRet) :
    (c.writeCallback rs).Fed := by
  cases hw : c.ioChannel.isWriting with
  | false =>
    rw [writeCallback_of_not_writing rs hw]
    exact h
  | true =>
    obtain ⟨c', ⟨hw', -⟩, ⟨heq, hend⟩ | ⟨heq, -⟩⟩ := writeCallback_rule
      (I := fun c' => c'.ioChannel.isWriting = true ∧ c'.closeOnEmpty = false)
      (fun _ _ _ hI _ _ _ => hI)
      (fun c' rs id _ hI _ _ =>
        ⟨(c'.sendNode_sent rs id).writing hI.1,
          (c'.sendNode_sent rs id).kept.closeOnEmpty_eq.trans hI.2⟩)
      (fun _ hI => hI.2) rs ⟨hw, hclose⟩ hw
    · rw [heq]
      rcases hend with hnil | hwaits
      · exact .inl hnil
      · exact .inr (.inr hwaits)
    · rw [heq]
      exact fed_of_writing hw'

/-! ## Steps and runs -/

theorem fed_call_iff (h : c.Fed) (hwired : c.Wired) (hs : c.status = .connected)
    (rs : List SysRet) {f : Func} (hsends : f.sends = true)
    (hnode : ∀ id kind, Func.node f = some (id, kind) → (c.nodes id).kind = kind) :
    (c.call rs f).Fed ↔ c.FuncFlows rs f := by
  cases f with
  | sendInLoop msg => exact fed_sendInLoop_iff h hwired hs rs msg
  | sendFile id =>
    exact iff_of_true (fed_sendFileInLoop h rs (hnode id _ rfl)) trivial
  | sendStream id =>
    -- the node was made with the closure, so it is no file
    have hkind := hnode id _ rfl
    cases hd : c.nodes id with
    | file f =>
      rw [hd] at hkind
      cases hkind
    | data d =>
      refine (fed_sendFile_stream h rs hd).trans ?_
      dsimp only [FuncFlows]
      rw [drainsNode, hd]
  | sendAsyncStream id disableKickoff =>
    exact fed_sendAsyncStreamQueued_iff h rs (hnode id _ rfl) disableKickoff
  | sendAsyncData id data =>
    cases data with
    | none => exact iff_of_true (fed_sendAsyncData_none h rs id) trivial
    | some data => exact fed_sendAsyncData_iff h rs (hnode id _ rfl) data
  | shutdown => cases hsends
  | forceClose => cases hsends
  | connectDestroyed => cases hsends

/-- A connected connection that nothing but sends and write events has happened to. -/
structure Sending (c : TcpConnectionImpl) : Prop where
  wired : c.Wired
  connected : c.status = .connected
  funcs_send : ∀ f ∈ c.funcs, f.sends = true

theorem Sending.of_kept {c' : TcpConnectionImpl} (h : c.Sending) (hk : Kept c c') :
    c'.Sending where
  wired := h.wired.of_kept hk
  connected := hk.status_eq.trans h.connected
  funcs_send f hf := h.funcs_send f (by rw [← hk.funcs_eq]; exact hf)

/-- A closure of a send is queued. -/
theorem Sending.queue (h : c.Sending) {f : Func} (hsends : f.sends = true)
    (hwired : (c.queue f).Wired) : (c.queue f).Sending where
  wired := hwired
  connected := h.connected
  funcs_send g hg := by
    rcases List.mem_append.mp hg with hold | hnew
    · exact h.funcs_send g hold
    · rw [List.mem_singleton.mp hnew]
      exact hsends

theorem Sending.newNode (h : c.Sending) (node : BufferNode) : (c.newNode node).Sending :=
  h.of_kept (kept_newNode node)

theorem Sending.newStream (h : c.Sending) : c.newStream.Sending where
  wired := wired_newStream h.wired
  connected := h.connected
  funcs_send := h.funcs_send

theorem Sending.streamCallback (h : c.Sending) (rs : List SysRet) (inLoop : Bool) {id : NodeId}
    (hid : id ∈ c.streams) (data : Option (List Byte)) :
    (c.streamCallback rs inLoop id data).Sending := by
  have hwired := wired_streamCallback h.wired rs inLoop hid data
  unfold TcpConnectionImpl.streamCallback at hwired ⊢
  rw [if_neg (not_not_intro h.connected)] at hwired ⊢
  cases inLoop with
  | true => exact h.of_kept (kept_sendAsyncDataInLoop rs id data)
  | false => exact h.queue rfl hwired

/-- A step of a send calls a function that sends or queues its closure. -/
theorem sending_step (h : c.Sending) {op : Op} (hop : op.sends = true) (rs : List SysRet) :
    (c.step (op, rs)).Sending := by
  have hwired := wired_step h.wired op rs
  cases hf : c.failed with
  | true =>
    rw [step_failed rs hf]
    exact h
  | false =>
    cases op with
    | send inLoop msg =>
      rw [step_send rs inLoop hf] at hwired ⊢
      cases inLoop with
      | true => exact h.of_kept (kept_sendInLoop rs msg)
      | false => exact h.queue rfl hwired
    | sendFile inLoop file =>
      -- a node that is made for a queued send has its kind from here on
      rw [step_sendFile rs inLoop hf]
      split
      · exact h
      · split
        · cases inLoop with
          | true =>
            exact (h.newNode _).of_kept (kept_sendFileInLoop rs (Nat.lt_succ_self _))
          | false => exact (h.newNode _).queue rfl (wired_newNode_queue h.wired _ rfl)
        · exact ⟨wired_assert h.wired false, h.connected, h.funcs_send⟩
    | sendStream inLoop callback =>
      rw [step_sendStream rs inLoop hf]
      cases inLoop with
      | true => exact (h.newNode _).of_kept (kept_sendStreamInLoop rs (Nat.lt_succ_self _))
      | false => exact (h.newNode _).queue rfl (wired_newNode_queue h.wired _ rfl)
    | sendAsyncStream inLoop disableKickoff =>
      rw [step_sendAsyncStream rs inLoop hf] at hwired ⊢
      cases inLoop with
      | true =>
        exact h.newStream.of_kept
          (kept_sendAsyncStreamInLoop disableKickoff (Nat.lt_succ_self _))
      | false => exact h.newStream.queue rfl hwired
    | asyncSend inLoop id data =>
      rw [step_asyncSend rs inLoop hf]
      split
      · rename_i hid
        exact h.streamCallback rs inLoop hid (some data)
      · exact h
    | asyncClose inLoop id =>
      -- closing forgets the stream, which only `wired` speaks of
      rw [step_asyncClose rs inLoop hf] at hwired ⊢
      split at hwired
      · rename_i hid
        have hcall := h.streamCallback rs inLoop hid none
        rw [if_pos hid]
        exact ⟨hwired, hcall.connected, hcall.funcs_send⟩
      · rename_i hid
        rw [if_neg hid]
        exact h
    | runFunc =>
      -- the closures that are left are those that were there
      cases hfs : c.funcs with
      | nil =>
        rw [step_runFunc_nil rs hf hfs]
        exact h
      | cons f fs =>
        rw [step_runFunc_cons rs hf hfs]
        have hmem : ∀ g ∈ f :: fs, g.sends = true := hfs ▸ h.funcs_send
        have hsends := hmem f List.mem_cons_self
        have hrest : ({ c with funcs := fs }).Sending :=
          ⟨h.wired.tail_funcs hfs, h.connected,
            fun g hg => hmem g (List.mem_cons_of_mem f hg)⟩
        refine hrest.of_kept (kept_call rs f (fun id kind hnode => ?_) ?_)
        · exact (h.wired.funcs f (by rw [hfs]; exact List.mem_cons_self) id kind hnode).1
        · cases f <;> simp [Func.sends] at hsends ⊢
    | writeCallback =>
      rw [step_writeCallback rs hf]
      exact h.of_kept (kept_writeCallback rs h.wired.stays_open)
    | _ => cases hop

theorem Fed.newStream (h : c.Fed) (hwired : c.Wired) : c.newStream.Fed :=
  (h.newNode hwired (.data .newAsyncStreamBufferNode)).of_front rfl rfl fun _ _ _ => rfl

/-- A queued closure changes nothing yet. -/
theorem Fed.queue (h : c.Fed) (f : Func) : (c.queue f).Fed :=
  h.of_front rfl rfl fun _ _ _ => rfl

theorem fed_streamCallback_none (h : c.Fed) (rs : List SysRet) (inLoop : Bool) (id : NodeId) :
    (c.streamCallback rs inLoop id none).Fed := by
  unfold streamCallback
  split
  · exact h
  · split
    · exact fed_sendAsyncData_none h rs id
    · exact h.queue _

/-- **One step**: a connection whose waiting bytes have a write event keeps it so
exactly when the step flows. -/
theorem fed_step_iff (h : c.Fed) (hs : c.Sending) {op : Op} (hop : op.sends = true)
    (rs : List SysRet) : (c.step (op, rs)).Fed ↔ c.Flows rs op := by
  cases hf : c.failed with
  | true =>
    -- an assertion has failed, and nothing runs any more
    rw [step_failed rs hf]
    refine ⟨fun _ hok => ?_, fun _ => h⟩
    rw [hf] at hok
    cases hok
  | false =>
    -- a call from another thread only queues, and its closure is what has to flow
    cases op with
    | send inLoop msg =>
      rw [step_send rs inLoop hf]
      cases inLoop with
      | true =>
        exact (fed_sendInLoop_iff h hs.wired hs.connected rs msg).trans (imp_iff_right hf).symm
      | false => exact ⟨fun _ _ => trivial, fun _ => h.queue _⟩
    | sendFile inLoop file =>
      -- a file in front is sent, or gets write interest for the rest
      rw [step_sendFile rs inLoop hf]
      refine ⟨fun _ _ => trivial, fun _ => ?_⟩
      split
      · exact h
      · split
        · cases inLoop with
          | true =>
            exact fed_sendFileInLoop (h.newNode hs.wired _) rs (kind_newNode_self (.file file))
          | false => exact (h.newNode hs.wired _).queue _
        · exact h.of_front rfl rfl fun _ _ _ => rfl
    | sendStream inLoop callback =>
      rw [step_sendStream rs inLoop hf]
      cases inLoop with
      | true =>
        exact (fed_sendStreamInLoop (h.newNode hs.wired _) rs (nodes_newNode_self _)).trans
          (imp_iff_right hf).symm
      | false => exact ⟨fun _ _ => trivial, fun _ => (h.newNode hs.wired _).queue _⟩
    | sendAsyncStream inLoop disableKickoff =>
      -- an open stream in front has nothing to write yet
      rw [step_sendAsyncStream rs inLoop hf]
      refine ⟨fun _ _ => trivial, fun _ => ?_⟩
      have hopen := h.newStream hs.wired
      cases inLoop with
      | true =>
        have hnode : c.newStream.nodes c.nextNode = .data .newAsyncStreamBufferNode :=
          nodes_newNode_self _
        have hkick := hopen.disableKickoff disableKickoff
        have hnode' : (if disableKickoff then c.newStream.disableKickoff
            else c.newStream).nodes c.nextNode = .data .newAsyncStreamBufferNode := by
          cases disableKickoff <;> exact hnode
        refine (fed_pushBack_open hkick ?_ ?_).mpr fun _ => ?_
        · rw [hnode']
          rfl
        · rw [remainingBytes, hnode']
          rfl
        · rw [hnode']
          rfl
      | false => exact hopen.queue _
    | asyncSend inLoop id data =>
      rw [step_asyncSend rs inLoop hf]
      by_cases hid : id ∈ c.streams
      · rw [if_pos hid]
        unfold streamCallback
        rw [if_neg (not_not_intro hs.connected)]
        cases inLoop with
        | true =>
          refine (fed_sendAsyncData_iff h rs (hs.wired.streams id hid).2 data).trans ?_
          exact ⟨fun hflow _ _ => hflow, fun hflow => hflow hf hid⟩
        | false => exact ⟨fun _ _ => trivial, fun _ => h.queue _⟩
      · rw [if_neg hid]
        refine ⟨fun _ _ => ?_, fun _ => h⟩
        cases inLoop with
        | true => exact fun hmem => absurd hmem hid
        | false => trivial
    | asyncClose inLoop id =>
      -- whatever the close leaves in front has write interest
      rw [step_asyncClose rs inLoop hf]
      refine ⟨fun _ _ => trivial, fun _ => ?_⟩
      split
      · exact (fed_streamCallback_none h rs inLoop id).of_front rfl rfl fun _ _ _ => rfl
      · exact h
    | runFunc =>
      -- the closure runs as the call in the loop would
      cases hfs : c.funcs with
      | nil =>
        rw [step_runFunc_nil rs hf hfs]
        refine ⟨fun _ _ => ?_, fun _ => h⟩
        dsimp only
        rw [hfs]
        trivial
      | cons f fs =>
        rw [step_runFunc_cons rs hf hfs]
        have hmem : f ∈ c.funcs := by rw [hfs]; exact List.mem_cons_self
        have hrest : ({ c with funcs := fs }).Fed := h.of_front rfl rfl fun _ _ _ => rfl
        have hcall := fed_call_iff (c := { c with funcs := fs }) hrest
          (hs.wired.tail_funcs hfs) hs.connected rs (hs.funcs_send f hmem)
          fun id kind hnode => (hs.wired.funcs f hmem id kind hnode).2
        -- the queue is no part of the condition
        have hsame : ({ c with funcs := fs }).FuncFlows rs f ↔ c.FuncFlows rs f := by
          cases f with
          | sendAsyncData id data => cases data <;> exact Iff.rfl
          | _ => exact Iff.rfl
        refine (hcall.trans hsame).trans ?_
        unfold Flows
        dsimp only
        rw [hfs]
        exact (imp_iff_right hf).symm
    | writeCallback =>
      -- the loop of the write event stops at what it has write interest for
      rw [step_writeCallback rs hf]
      exact ⟨fun _ _ => trivial, fun _ => fed_writeCallback h hs.wired.stays_open rs⟩
    | _ => cases hop

theorem notStalled_iff_fed (hs : c.status = .connected) : c.NotStalled ↔ c.Fed := by
  constructor
  · intro h
    by_cases hl : c.writeBufferList = []
    · exact .inl hl
    · exact .inr (h hs hl)
  · intro h _ hl
    exact h.resolve_left hl

theorem sending_established (highWaterMark : Option Nat) (kickoff : Kickoff) :
    (established highWaterMark kickoff).Sending where
  wired := wired_established highWaterMark kickoff
  connected := rfl
  funcs_send _ hf := nomatch hf

/-- **Stalled output, exactly.** In a run of sends, streams and write events no byte is
left waiting without a write event exactly when no step leaves bytes over in a
connection without write interest. -/
theorem notStalled_iff_flows (highWaterMark : Option Nat) (kickoff : Kickoff)
    (as : List (Op × List SysRet)) (hops : ∀ a ∈ as, a.1.sends = true) :
    Runs.Always step NotStalled (established highWaterMark kickoff) as ↔
      Runs.Along step (fun c a => c.Flows a.2 a.1) (established highWaterMark kickoff) as := by
  refine Runs.always_iff_along (I := fun c => c.Sending ∧ c.Fed)
    (H := fun _ a => a.1.sends = true) ?_ ?_ ?_
    ⟨sending_established highWaterMark kickoff, .inl rfl⟩ (Runs.along_of_mem hops _)
  · rintro c ⟨hs, h⟩
    exact (notStalled_iff_fed hs.connected).mpr h
  · rintro c ⟨op, rs⟩ ⟨hs, h⟩ hop hflow
    exact ⟨sending_step hs hop rs, (fed_step_iff h hs hop rs).mpr hflow⟩
  · rintro c ⟨op, rs⟩ ⟨hs, h⟩ hop hflow hnot
    have hs' := sending_step hs hop rs
    exact hflow ((fed_step_iff h hs hop rs).mp ((notStalled_iff_fed hs'.connected).mp hnot))

/-- A payload the kernel takes, a stream opened and fed, a payload behind it. -/
theorem notStalled_iff_flows_stream :
    Runs.Always step NotStalled (established none .new)
      [(.send true [1, 2, 3], [⟨some 3, .success, 0⟩]), (.sendAsyncStream true false, []),
        (.asyncSend true 0 [4, 5], [⟨some 2, .success, 0⟩]), (.send true [6], []),
        (.asyncClose true 0, []), (.writeCallback, [.again])] :=
  (notStalled_iff_flows none .new _ (by decide)).mpr (by decide +kernel)

/-- The kernel takes nothing: the payload waits and no write event will come. -/
theorem stalled_send :
    ¬ Runs.Always step NotStalled (established none .new) [(.send true [1, 2, 3], [.again])] := by
  decide +kernel

end TcpConnectionImpl

end XiaoNet
