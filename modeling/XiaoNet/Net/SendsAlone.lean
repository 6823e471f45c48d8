import XiaoNet.Net.ByteStream

/-!
# What sending does not look at

The functions that send and write look at neither the status of the connection (besides the
test in `sendInLoop`) nor the open streams nor the queued closures. `during c opened` is
connection `c` as if it were connected, nothing were queued and `opened` were its streams; the
lemmas `during_…` say that sending and writing are the same there. What is known of a connected
connection of which all calls are made in the loop thread then holds of every connection.
-/

namespace XiaoNet

namespace TcpConnectionImpl

/-- The connection as if it were connected, with streams `opened` and nothing queued. -/
def during (c : TcpConnectionImpl) (opened : List NodeId) : TcpConnectionImpl :=
  { c with
    status := .connected
    streams := opened
    funcs := []
    closing := 0
    failed := false }

variable {c : TcpConnectionImpl} (opened : List NodeId)

theorem during_appendBack (data : List Byte) :
    (c.during opened).appendBack data = (c.appendBack data).during opened := by
  cases hlast : c.writeBufferList.getLast? with
  | none =>
    have hlast' : (c.during opened).writeBufferList.getLast? = none := hlast
    rw [appendBack_nil data hlast, appendBack_nil data hlast']
  | some back =>
    have hlast' : (c.during opened).writeBufferList.getLast? = some back := hlast
    unfold appendBack
    rw [hlast, hlast']
    dsimp only
    cases hmark : c.highWaterMark with
    | none =>
      have hnew : (c.setNode back ((c.nodes back).append data)).highWaterMark = none := hmark
      have hnew' : ((c.during opened).setNode back
          (((c.during opened).nodes back).append data)).highWaterMark = none := hmark
      rw [hnew, hnew']
      rfl
    | some markLen =>
      have hnew : (c.setNode back ((c.nodes back).append data)).highWaterMark = some markLen :=
        hmark
      have hnew' : ((c.during opened).setNode back
          (((c.during opened).nodes back).append data)).highWaterMark = some markLen := hmark
      rw [hnew, hnew']
      dsimp only
      show (if (c.setNode back ((c.nodes back).append data)).remainingBytes back > markLen then _
        else _) = _
      split <;> rfl

theorem during_enqueue (data : List Byte) :
    (c.during opened).enqueue data = (c.enqueue data).during opened := by
  unfold enqueue
  show (if c.backIsMem then _ else _ : TcpConnectionImpl).appendBack data = _
  split
  · exact during_appendBack opened data
  · exact during_appendBack (c := (c.newNode (.data .newMemBufferNode)).pushBack c.nextNode)
      opened data

theorem during_sendInLoop (rs : List SysRet) (buffer : List Byte) (h : c.status = .connected) :
    (c.during opened).sendInLoop rs buffer = (c.sendInLoop rs buffer).during opened := by
  by_cases hwait : c.ioChannel.isWriting = true ∨ c.writeBufferList ≠ []
  · have hwait' : (c.during opened).ioChannel.isWriting = true ∨
        (c.during opened).writeBufferList ≠ [] := hwait
    rw [sendInLoop_queued rs buffer h hwait, sendInLoop_queued rs buffer rfl hwait']
    split
    · rfl
    · exact during_enqueue opened buffer
  · obtain ⟨hw, hl⟩ := not_or.mp hwait
    have hidle := Bool.eq_false_iff.mpr hw
    have hnil := not_not.mp hl
    have hidle' : (c.during opened).ioChannel.isWriting = false := hidle
    have hnil' : (c.during opened).writeBufferList = [] := hnil
    rw [sendInLoop_direct rs buffer h hidle hnil, sendInLoop_direct rs buffer rfl hidle' hnil']
    split
    · rfl
    · exact during_enqueue (c := c.wrote (rs.headD .again) buffer) opened _

theorem during_closeNode (id : NodeId) :
    (c.during opened).closeNode id = (c.closeNode id).during opened := by
  unfold closeNode
  show (if c.writeBufferList.head? = some id ∧ c.ioChannel.isWriting = false then _ else _) = _
  split <;> rfl

theorem during_sendAsyncData (rs : List SysRet) (id : NodeId) (data : Option (List Byte)) :
    (c.during opened).sendAsyncDataInLoop rs id data
      = (c.sendAsyncDataInLoop rs id data).during opened := by
  cases data with
  | none =>
    rw [sendAsyncData_close, sendAsyncData_close, during_closeNode]
    rfl
  | some data =>
    by_cases hdata : data = []
    · rw [hdata]
      rfl
    · by_cases hfront : c.writeBufferList.head? = some id ∧ c.remainingBytes id = 0
      · have hfront' : (c.during opened).writeBufferList.head? = some id ∧
            (c.during opened).remainingBytes id = 0 := hfront
        rw [sendAsyncData_front rs hdata hfront, sendAsyncData_front rs hdata hfront']
        split <;> rfl
      · have hfront' : ¬ ((c.during opened).writeBufferList.head? = some id ∧
            (c.during opened).remainingBytes id = 0) := hfront
        rw [sendAsyncData_behind rs hdata hfront, sendAsyncData_behind rs hdata hfront']
        rfl

/-! ## Writing -/

theorem during_sendDataRound (r : SysRet) (id : NodeId) (d : DataNode) (hasSent : Int) :
    (c.during opened).sendDataRound r id d hasSent
      = ((c.sendDataRound r id d hasSent).1.during opened, (c.sendDataRound r id d hasSent).2) := by
  rcases sendDataRound_cases (c := c) r id d hasSent with ⟨hnil, heq⟩ | ⟨hdata, heq⟩
  · rcases sendDataRound_cases (c := c.during opened) r id d hasSent with ⟨-, heq'⟩ | ⟨hne, -⟩
    · rw [heq, heq']
      rfl
    · exact absurd hnil hne
  · rcases sendDataRound_cases (c := c.during opened) r id d hasSent with ⟨hnil, -⟩ | ⟨-, heq'⟩
    · exact absurd hnil hdata
    · rw [heq, heq']
      rfl

theorem during_sendDataLoop (id : NodeId) (rs : List SysRet) (hasSent : Int) :
    sendDataLoop id rs (c.during opened) hasSent
      = ((sendDataLoop id rs c hasSent).1.during opened, (sendDataLoop id rs c hasSent).2) := by
  -- no round looks at the open stream, whatever the socket answers
  induction rs generalizing c hasSent with
  | nil =>
    cases hnode : c.nodes id with
    | file f =>
      have hnode' : (c.during opened).nodes id = .file f := hnode
      unfold sendDataLoop
      rw [hnode, hnode']
    | data d =>
      have hnode' : (c.during opened).nodes id = .data d := hnode
      unfold sendDataLoop
      rw [hnode, hnode']
      dsimp only
      split
      · rw [during_sendDataRound]
        obtain ⟨c', round⟩ := c.sendDataRound .again id d hasSent
        cases round <;> rfl
      · rfl
  | cons r rs ih =>
    cases hnode : c.nodes id with
    | file f =>
      have hnode' : (c.during opened).nodes id = .file f := hnode
      unfold sendDataLoop
      rw [hnode, hnode']
    | data d =>
      have hnode' : (c.during opened).nodes id = .data d := hnode
      unfold sendDataLoop
      rw [hnode, hnode']
      dsimp only
      split
      · rw [during_sendDataRound]
        obtain ⟨c', round⟩ := c.sendDataRound r id d hasSent
        cases round with
        | stop n =>
          -- the loop ends here in both
          rfl
        | next n => exact ih n
      · rfl

theorem during_sendFileNode (r : SysRet) (id : NodeId) (f : FileBufferNode) :
    (c.during opened).sendFileNode r id f
      = ((c.sendFileNode r id f).1.during opened, (c.sendFileNode r id f).2) := by
  have hsocket : (c.during opened).socket = c.socket := rfl
  unfold sendFileNode
  dsimp only
  rw [hsocket]
  split
  · rfl
  · generalize c.socket.sendfile r (f.sendFd.getD [])
      (if f.remainingBytes < kMaxSendBytes then f.remainingBytes.toNat else kMaxSendBytes) = w
    obtain ⟨socket, bytesSent⟩ := w
    dsimp only
    split
    · rfl
    · have hwriting : ∀ {c₁ c₂ : TcpConnectionImpl}, c₁ = c₂.during opened →
          (if bytesSent < f.remainingBytes then
              if c₁.ioChannel.isWriting then c₁ else c₁.enableWriting
            else c₁)
          = (if bytesSent < f.remainingBytes then
              if c₂.ioChannel.isWriting then c₂ else c₂.enableWriting
            else c₂).during opened := by
        rintro c₁ c₂ rfl
        show (if bytesSent < f.remainingBytes then
          if c₂.ioChannel.isWriting then _ else _ else _) = _
        split
        · split <;> rfl
        · rfl
      refine Prod.ext (hwriting ?_) rfl
      split <;> rfl

theorem during_sendNodeInLoop (rs : List SysRet) (id : NodeId) :
    (c.during opened).sendNodeInLoop rs id
      = ((c.sendNodeInLoop rs id).1.during opened, (c.sendNodeInLoop rs id).2) := by
  cases hnode : c.nodes id with
  | file f =>
    have hnode' : (c.during opened).nodes id = .file f := hnode
    rw [sendNodeInLoop_file c rs hnode, sendNodeInLoop_file (c.during opened) rs hnode',
      during_sendFileNode]
  | data d =>
    have hnode' : (c.during opened).nodes id = .data d := hnode
    rw [sendNodeInLoop_data c rs hnode, sendNodeInLoop_data (c.during opened) rs hnode',
      during_sendDataLoop]

theorem during_writeLoop (fuel : Nat) (rs : List SysRet) :
    writeLoop fuel rs (c.during opened)
      = ((writeLoop fuel rs c).1.during opened, (writeLoop fuel rs c).2) := by
  induction fuel generalizing c rs with
  | zero => rfl
  | succ fuel ih =>
    unfold writeLoop
    cases hlist : c.writeBufferList with
    | nil =>
      have hlist' : (c.during opened).writeBufferList = [] := hlist
      rw [hlist']
    | cons id rest =>
      have hlist' : (c.during opened).writeBufferList = id :: rest := hlist
      rw [hlist']
      dsimp only
      show (if c.remainingBytes id = 0 then
        if !(c.nodes id).isAsync || !(c.nodes id).available then _ else _ else _) = _
      split
      · split
        · exact ih (c := { c with writeBufferList := rest }) rs
        · rfl
      · rw [during_sendNodeInLoop]
        obtain ⟨c', n, rs'⟩ := c.sendNodeInLoop rs id
        dsimp only
        show (if c'.remainingBytes id > 0 ∨ n < 0 then _ else _) = _
        split
        · rfl
        · exact ih rs'

/-- `writeCallback`, while `closeOnEmpty_` is off. -/
theorem during_writeCallback (rs : List SysRet) (hclose : c.closeOnEmpty = false) :
    (c.during opened).writeCallback rs = (c.writeCallback rs).during opened := by
  have hends := writeLoop_rule (I := fun c => c.closeOnEmpty = false) (c := c)
    (fun _ _ _ h _ _ _ => h)
    (fun c rs id _ h _ _ => (c.sendNode_sent rs id).kept.closeOnEmpty_eq.trans h)
    (2 * c.writeBufferList.length + 1) rs hclose (.inl (Nat.le_refl _))
  have hlist : (c.during opened).writeBufferList = c.writeBufferList := rfl
  unfold writeCallback
  show (if c.ioChannel.isWriting then _ else _) = _
  split
  · rw [hlist, during_writeLoop]
    generalize writeLoop (2 * c.writeBufferList.length + 1) rs c = p at hends ⊢
    obtain ⟨c', emptied⟩ := p
    cases emptied with
    | true =>
      have hopen : c'.closeOnEmpty = false := hends.1
      have hopen' : (c'.during opened).closeOnEmpty = false := hopen
      dsimp only
      rw [hopen, hopen']
      rfl
    | false => rfl
  · rfl

end TcpConnectionImpl

end XiaoNet
