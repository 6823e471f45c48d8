import XiaoNet.Net.ByteStream

/-!
# Write errors

What the send paths make of a `write(2)` that fails for good. `writeRaw` returns 0 for it,
as for a full socket buffer, so that none of its callers gets to its error branch: the bytes
are kept to be sent later.

- `DirectSend`, `DirectAsyncSend`: the calls of `sendInLoop` and `sendAsyncDataInLoop` that
  write to the socket themselves.
- `hard_error_unreported`: no send path reports the error.
-/

namespace XiaoNet

/-- A `write(2)` that fails with an `errno` other than 0, `EAGAIN` and `EWOULDBLOCK`. -/
def SysRet.HardError (r : SysRet) : Prop := r.taken = none ∧ isEAGAIN r.errno = false

instance (r : SysRet) : Decidable r.HardError := inferInstanceAs (Decidable (_ ∧ _))

theorem SysRet.HardError.accepted_eq {r : SysRet} (h : r.HardError) (buffer : List Byte) :
    accepted r buffer = 0 := by
  rw [accepted, h.1]

namespace TcpConnectionImpl

variable {c : TcpConnectionImpl} {r : SysRet}

/-- `sendInLoop` writes at once. -/
structure DirectSend (c : TcpConnectionImpl) : Prop where
  connected : c.status = .connected
  idle : c.ioChannel.isWriting = false
  empty : c.writeBufferList = []

/-- `sendAsyncDataInLoop` for the stream with node `id` writes at once. -/
structure DirectAsyncSend (c : TcpConnectionImpl) (id : NodeId) : Prop where
  front : c.writeBufferList.head? = some id
  drained : c.remainingBytes id = 0
  async : (c.nodes id).isAsync = true

/-- The write list and the nodes are as they were. -/
structure Untouched (c c' : TcpConnectionImpl) : Prop where
  list_eq : c'.writeBufferList = c.writeBufferList
  nodes_eq : c'.nodes = c.nodes

theorem writeRaw_hard (hr : r.HardError) (buffer : List Byte) :
    c.writeRaw r buffer = (c.wrote r buffer, 0) := by
  rw [writeRaw_eq, hr.accepted_eq, Int.natCast_zero]

/-- All of the bytes are queued, in a node of their own. -/
theorem sendInLoop_hard (hr : r.HardError) (hc : DirectSend c) (rs : List SysRet)
    {buffer : List Byte} (hbuf : buffer ≠ []) :
    c.sendInLoop (r :: rs) buffer = (c.wrote r buffer).enqueue buffer ∧
      (c.sendInLoop (r :: rs) buffer).writeBufferList = [c.nextNode] := by
  have hlen : ¬ 0 = buffer.length := fun h => hbuf (List.length_eq_zero_iff.mp h.symm)
  have hempty : (c.wrote r buffer).writeBufferList = [] :=
    (sent_wrote r buffer 0).list_eq.trans hc.empty
  have hnext : (c.wrote r buffer).nextNode = c.nextNode :=
    wrote_same TcpConnectionImpl.nextNode r buffer fun _ _ _ _ _ => rfl
  have hsend : c.sendInLoop (r :: rs) buffer = (c.wrote r buffer).enqueue buffer := by
    rw [sendInLoop_direct _ _ hc.connected hc.idle hc.empty, List.headD_cons, hr.accepted_eq,
      if_neg hlen, List.drop_zero]
  refine ⟨hsend, ?_⟩
  rw [hsend, list_enqueue, backIsMem, hempty, hnext]
  rfl

/-- All of the bytes go to the node of the stream. -/
theorem sendAsyncData_hard (hr : r.HardError) {id : NodeId} (hc : DirectAsyncSend c id)
    (rs : List SysRet) {data : List Byte} (hdata : data ≠ []) :
    (c.sendAsyncDataInLoop (r :: rs) id (some data)).nodes id = (c.nodes id).append data := by
  have hlen : ¬ 0 = data.length := fun h => hdata (List.length_eq_zero_iff.mp h.symm)
  rw [sendAsyncData_front _ hdata ⟨hc.front, hc.drained⟩, List.headD_cons, hr.accepted_eq,
    if_neg hlen, List.drop_zero, nodes_setNode_self]

/-- A node of a stream that gets bytes is another node. -/
theorem append_ne {node : BufferNode} (h : node.isAsync = true) {data : List Byte}
    (hdata : data ≠ []) : node.append data ≠ node := by
  rintro heq
  cases node with
  | file f => cases h
  | data d =>
    cases d with
    | mem isDone buffer => cases h
    | stream isDone callback calls buffer => cases h
    | async isDone buffer =>
      have hrem := congrArg BufferNode.remainingBytes heq
      have hpos := List.length_pos_iff.mpr hdata
      simp only [BufferNode.append, DataNode.append, BufferNode.remainingBytes,
        DataNode.remainingBytes, Option.getD_some, List.length_append] at hrem
      omega

/-- **Hard errors**: whatever the connection and the bytes, `writeRaw` gives no negative
result for a write that fails for good; `sendInLoop` and `sendAsyncDataInLoop` queue the
bytes whose write has failed, and `sendNodeInLoop` never returns -1 for a node in memory. -/
theorem hard_error_unreported (hr : r.HardError) (c : TcpConnectionImpl) :
    (∀ buffer, ¬ (c.writeRaw r buffer).2 < 0) ∧
    (∀ rs buffer, DirectSend c → buffer ≠ [] →
      ¬ Untouched c (c.sendInLoop (r :: rs) buffer)) ∧
    (∀ rs id data, DirectAsyncSend c id → data ≠ [] →
      ¬ Untouched c (c.sendAsyncDataInLoop (r :: rs) id (some data))) ∧
    ∀ rs id d, c.nodes id = .data d → (c.sendNodeInLoop rs id).2.1 ≠ -1 := by
  refine ⟨fun buffer => ?_, fun rs buffer hc hbuf hsame => ?_,
    fun rs id data hc hdata hsame => ?_, fun rs id d hd hn => ?_⟩
  · rw [writeRaw_hard hr]
    exact Int.lt_irrefl 0
  · have hlist := hsame.list_eq
    rw [(sendInLoop_hard hr hc rs hbuf).2, hc.empty] at hlist
    cases hlist
  · have hnode := congrFun hsame.nodes_eq id
    rw [sendAsyncData_hard hr hc rs hdata] at hnode
    exact append_ne hc.async hdata hnode
  · have hpos := (sendNode_data c rs hd).nonneg
    omega

/-- A broken pipe, in a fresh connection. -/
theorem broken_pipe_unreported :
    ¬ ((established none .new).writeRaw ⟨none, .EPIPE, 0⟩ [1]).2 < 0 ∧
      ¬ Untouched (established none .new)
        ((established none .new).sendInLoop [⟨none, .EPIPE, 0⟩] [1]) := by
  obtain ⟨hraw, hsend, -⟩ := hard_error_unreported (r := ⟨none, .EPIPE, 0⟩) (by decide)
    (established none .new)
  exact ⟨hraw [1], hsend [] [1] ⟨rfl, rfl, rfl⟩ (by decide)⟩

/-- `writeRaw` returns 0 for it, and the byte waits in a node of the list. -/
theorem broken_pipe_queued :
    ((established none .new).writeRaw ⟨none, .EPIPE, 0⟩ [1]).2 = 0 ∧
      ((established none .new).sendInLoop [⟨none, .EPIPE, 0⟩] [1]).writeBufferList = [0] ∧
      (((established none .new).sendInLoop [⟨none, .EPIPE, 0⟩] [1]).nodes 0).remainingBytes
        = 1 := by
  decide

end TcpConnectionImpl

end XiaoNet
