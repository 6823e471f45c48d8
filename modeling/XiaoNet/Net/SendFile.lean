import XiaoNet.Net.ConnectionFrame

/-!
# The bytes of a file

A file is handed to a connection by `sendFile`, in the loop thread or through the
closure it queues (`Hands`), and sent by `sendfile(2)` there and in later write events.

- `Tally`: a connection and the number of bytes of one file that its socket has accepted.
- `loop_tally`: a write event moves bytes of the file from its node to the socket and
  loses none, whatever the results of the system calls.
- `conserved_iff_taken`: the file is conserved exactly when its first `sendfile(2)` takes
  bytes or other nodes are waiting. On a full socket buffer the node is dropped.
-/

namespace XiaoNet

/-- The result is a positive count or says that the socket buffer is full. -/
def SysRet.TakesOrFull (r : SysRet) : Prop :=
  (∃ k, r.taken = some k ∧ 0 < k) ∨ (r.taken = none ∧ r.errno = .EAGAIN)

/-- The file holds what the node has to send. -/
structure FileBufferNode.Holds (f : FileBufferNode) : Prop where
  nonneg : 0 ≤ f.remainingBytes
  le_length : f.remainingBytes ≤ (f.sendFd.getD []).length

namespace TcpConnectionImpl

/-! ## Counting -/

/-- What `sendFile` and its closure hand over: the node, not in the list, of a file. -/
inductive Hands (c : TcpConnectionImpl) : Op → NodeId → FileBufferNode → Prop where
  | direct {f : FileBufferNode} (hfd : f.sendFd.isNone = false)
      (hfresh : c.nextNode ∉ c.writeBufferList) : Hands c (.sendFile true f) c.nextNode f
  | queued {id : NodeId} {f : FileBufferNode} {fs : List Func}
      (hfuncs : c.funcs = .sendFile id :: fs) (hnode : c.nodes id = .file f)
      (hfresh : id ∉ c.writeBufferList) : Hands c .runFunc id f

/-- How many bytes the socket has accepted between two states. -/
def accepts (c c' : TcpConnectionImpl) : Nat :=
  c'.socket.output.length - c.socket.output.length

/-- How many bytes of node `id` the socket accepts in the loop of `writeCallback`. -/
def loopAccepts (id : NodeId) : Nat → List SysRet → TcpConnectionImpl → Nat
  | 0, _, _ => 0
  | fuel + 1, rs, c =>
    match c.writeBufferList with
    | [] => 0
    | front :: rest =>
      if c.remainingBytes front = 0 then
        if !(c.nodes front).isAsync || !(c.nodes front).available then
          loopAccepts id fuel rs { c with writeBufferList := rest }
        else 0
      else
        let (c', n, rs) := c.sendNodeInLoop rs front
        let taken := if front = id then c.accepts c' else 0
        if c'.remainingBytes front > 0 ∨ n < 0 then taken
        else taken + loopAccepts id fuel rs c'

/-- How many bytes of the file with node `id` the socket accepts in a step. -/
def stepAccepts (c : TcpConnectionImpl) (id : NodeId) : Op × List SysRet → Nat
  | (.sendFile true file, rs) =>
    if c.nextNode = id then c.accepts (c.step (.sendFile true file, rs)) else 0
  | (.runFunc, rs) =>
    if c.funcs.head? = some (.sendFile id) then c.accepts (c.step (.runFunc, rs)) else 0
  | (.writeCallback, rs) =>
    if c.failed = false ∧ c.ioChannel.isWriting = true then
      loopAccepts id (2 * c.writeBufferList.length + 1) rs c
    else 0
  | _ => 0

/-- A connection and the bytes of one file that its socket has accepted. -/
structure Tally where
  conn : TcpConnectionImpl
  accepted : Nat

def Tally.step (id : NodeId) (s : Tally) (a : Op × List SysRet) : Tally :=
  ⟨s.conn.step a, s.accepted + s.conn.stepAccepts id a⟩

/-- What waits in the list for node `id`. -/
def waiting (c : TcpConnectionImpl) (id : NodeId) : Int :=
  if id ∈ c.writeBufferList then c.remainingBytes id else 0

/-- The bytes of a file of length `r` are in the socket or in the list. -/
def Tally.Conserved (id : NodeId) (r : Int) (s : Tally) : Prop :=
  (s.accepted : Int) + s.conn.waiting id = r

variable {c : TcpConnectionImpl} {id : NodeId}

/-! ## One `sendfile(2)` -/

theorem holds_retrieve {f : FileBufferNode} (h : f.Holds) {n : Nat}
    (hn : (n : Int) ≤ f.remainingBytes) :
    (f.retrieve n).Holds ∧ (f.retrieve n).remainingBytes + n = f.remainingBytes := by
  obtain ⟨hnonneg, hle⟩ := h
  have hlength : ((f.retrieve n).sendFd.getD []).length = (f.sendFd.getD []).length - n := by
    cases hfd : f.sendFd with
    | none => simp [FileBufferNode.retrieve, hfd]
    | some file => simp [FileBufferNode.retrieve, hfd]
  have hrem : (f.retrieve n).remainingBytes + n = f.remainingBytes := by
    unfold FileBufferNode.remainingBytes FileBufferNode.retrieve at *
    cases hdone : f.isDone with
    | true =>
      simp only [hdone, if_true] at hn ⊢
      omega
    | false =>
      simp only [hdone, Bool.false_eq_true, if_false] at hn ⊢
      rw [if_neg (by omega)]
      omega
  exact ⟨⟨by omega, by omega⟩, hrem⟩

theorem output_fileSent (r : SysRet) (f : FileBufferNode) (bytes : List Byte) :
    (c.fileSent r id f bytes).socket.output = c.socket.output ++ bytes := by
  unfold fileSent
  by_cases hb : bytes = []
  · rw [if_pos hb]
  · rw [if_neg hb]
    rfl

/-- What the socket accepts is taken off the node. -/
theorem sendFileNode_tally (r : SysRet) {f : FileBufferNode} (hf : c.nodes id = .file f)
    (h : f.Holds) (hpos : f.remainingBytes > 0) :
    ∃ f', (c.sendFileNode r id f).1.nodes id = .file f' ∧ f'.Holds ∧
      f'.remainingBytes + c.accepts (c.sendFileNode r id f).1 = f.remainingBytes := by
  rcases sendFileNode_cases (c := c) r id hpos with heq | ⟨bytes, n, heq, -, hle⟩
  · have hnone : c.accepts (c.sendFileNode r id f).1 = 0 := by
      rw [heq]
      exact Nat.sub_self _
    refine ⟨f, ?_, h, by omega⟩
    rw [heq]
    exact hf
  · have hout : c.accepts (c.fileSent r id f bytes) = bytes.length := by
      rw [accepts, output_fileSent, List.length_append, Nat.add_sub_cancel_left]
    rw [heq, hout]
    by_cases hb : bytes = []
    · refine ⟨f, ?_, h, by simp [hb]⟩
      unfold fileSent
      rw [if_pos hb]
      exact hf
    · obtain ⟨hholds, hrem⟩ := holds_retrieve h hle
      refine ⟨f.retrieve bytes.length, ?_, hholds, hrem⟩
      unfold fileSent
      rw [if_neg hb]
      exact nodes_setNode_self _ _

theorem kMaxSendBytes_pos : 0 < kMaxSendBytes := by
  unfold kMaxSendBytes
  decide

/-- The call succeeds exactly when the kernel takes bytes. -/
theorem sendFileNode_nonneg_iff {r : SysRet} (hr : r.TakesOrFull) {f : FileBufferNode}
    (h : f.Holds) (hpos : f.remainingBytes > 0) :
    0 ≤ (c.sendFileNode r id f).2 ↔ r.taken ≠ none := by
  have hcount : 0 < (if f.remainingBytes < kMaxSendBytes then f.remainingBytes.toNat
      else kMaxSendBytes : Nat) := by
    have hmax := kMaxSendBytes_pos
    split <;> omega
  unfold sendFileNode
  simp only [if_neg (Int.not_le.mpr hpos)]
  generalize (if f.remainingBytes < kMaxSendBytes then f.remainingBytes.toNat
    else kMaxSendBytes) = count at hcount ⊢
  rcases hr with ⟨k, hk, hkpos⟩ | ⟨hnone, hagain⟩
  · have hlength := h.le_length
    have hsent : (c.socket.sendfile r (f.sendFd.getD []) count).2 > 0 := by
      simp only [Socket.sendfile, hk]
      omega
    generalize c.socket.sendfile r (f.sendFd.getD []) count = p at hsent ⊢
    obtain ⟨socket, n⟩ := p
    simp only [hsent, not_true_eq_false, false_and, if_false, hk]
    exact iff_of_true (Int.le_of_lt hsent) (by simp)
  · have hfull : (c.socket.sendfile r (f.sendFd.getD []) count).2 = -1 := by
      simp only [Socket.sendfile, hnone]
    generalize c.socket.sendfile r (f.sendFd.getD []) count = p at hfull ⊢
    obtain ⟨socket, n⟩ := p
    simp only at hfull
    simp [hfull, hagain, isEAGAIN, hnone]

theorem sendFileNode_full {r : SysRet} (hnone : r.taken = none) (f : FileBufferNode) :
    c.accepts (c.sendFileNode r id f).1 = 0 := by
  have houtput : (c.sendFileNode r id f).1.socket.output = c.socket.output := by
    by_cases hpos : f.remainingBytes > 0
    · have hfull : ∀ count, c.socket.sendfile r (f.sendFd.getD []) count
          = ({ c.socket with calls := c.socket.calls + 1 }, -1) := by
        intro count
        rw [Socket.sendfile, hnone]
      have hneg : ¬ (-1 : Int) > 0 := by decide
      unfold sendFileNode
      simp only [if_neg (Int.not_le.mpr hpos), hfull, hneg, if_false]
      split
      · rfl
      · split
        · split <;> rfl
        · rfl
    · rw [sendFileNode_finished c r id hpos]
  rw [accepts, houtput, Nat.sub_self]

/-! ## Write events -/

/-- The node, while it is in the list, is a file that holds its bytes. -/
def FileIn (c : TcpConnectionImpl) (id : NodeId) : Prop :=
  id ∈ c.writeBufferList → ∃ f, c.nodes id = .file f ∧ f.Holds

section Congr

variable {c' : TcpConnectionImpl} (hlist : c'.writeBufferList = c.writeBufferList)
  (hnodes : c'.nodes = c.nodes)

include hlist hnodes

theorem FileIn.congr (h : c.FileIn id) : c'.FileIn id := by
  intro hin
  rw [hlist] at hin
  rw [hnodes]
  exact h hin

theorem waiting_congr : c'.waiting id = c.waiting id := by
  rw [waiting, waiting, remainingBytes, remainingBytes, hlist, hnodes]

end Congr

/-- Sending the node in front. -/
theorem sendNode_tally (rs : List SysRet) {front : NodeId} {rest : List NodeId}
    (hlist : c.writeBufferList = front :: rest) (hrem : c.remainingBytes front ≠ 0)
    (h : c.FileIn id) :
    (c.sendNodeInLoop rs front).1.FileIn id ∧
      ((if front = id then c.accepts (c.sendNodeInLoop rs front).1 else 0 : Nat) : Int)
          + (c.sendNodeInLoop rs front).1.waiting id = c.waiting id := by
  have hsent := c.sendNode_sent rs front
  have hlist' := hsent.list_eq
  -- the front node takes what the socket accepts, any other keeps what it has
  by_cases hfront : front = id
  · subst hfront
    have hin : front ∈ c.writeBufferList := by
      rw [hlist]
      exact List.mem_cons_self
    obtain ⟨f, hf, hholds⟩ := h hin
    -- the count never goes below 0, so the node has bytes left
    have hpos : f.remainingBytes > 0 := by
      have hnonneg := hholds.nonneg
      rw [remainingBytes, hf] at hrem
      exact lt_of_le_of_ne hnonneg (Ne.symm hrem)
    rw [if_pos rfl, waiting, waiting, hlist', if_pos hin, if_pos hin]
    rw [sendNodeInLoop_file c rs hf]
    obtain ⟨f', hf', hholds', htally⟩ :=
      sendFileNode_tally (c := c) (rs.headD .again) hf hholds hpos
    refine ⟨fun _ => ⟨f', hf', hholds'⟩, ?_⟩
    rw [remainingBytes, remainingBytes, hf, hf']
    exact (Int.add_comm _ _).trans htally
  · have hsame := hsent.others id (Ne.symm hfront)
    rw [if_neg hfront, waiting, waiting, hlist', remainingBytes, remainingBytes, hsame]
    refine ⟨fun hin => ?_, by simp⟩
    rw [hlist'] at hin
    rw [hsame]
    exact h hin

/-- **The loop of `writeCallback`** moves bytes of the file and loses none. -/
theorem loop_tally (fuel : Nat) (rs : List SysRet) (h : c.FileIn id) :
    (writeLoop fuel rs c).1.FileIn id ∧
      (loopAccepts id fuel rs c : Int) + (writeLoop fuel rs c).1.waiting id = c.waiting id := by
  -- by induction on the rounds of the loop, for every list and any answers of the system
  induction fuel generalizing c rs with
  | zero => exact ⟨h, by simp [loopAccepts, writeLoop]⟩
  | succ fuel ih =>
    unfold writeLoop loopAccepts
    cases hlist : c.writeBufferList with
    | nil => exact ⟨h, by simp⟩
    | cons front rest =>
      dsimp only
      by_cases hrem : c.remainingBytes front = 0
      · rw [if_pos hrem, if_pos hrem]
        by_cases hdone : (!(c.nodes front).isAsync || !(c.nodes front).available) = true
        · rw [if_pos hdone, if_pos hdone]
          -- the front node is done; were it the file, nothing of it would be left
          have hsub : id ∈ rest → id ∈ c.writeBufferList := by
            rw [hlist]
            exact List.mem_cons_of_mem front
          have hpop : ({ c with writeBufferList := rest } : TcpConnectionImpl).waiting id
              = c.waiting id := by
            unfold waiting
            rw [hlist]
            by_cases hin : id ∈ rest
            · rw [if_pos hin, if_pos (List.mem_cons_of_mem front hin)]
              rfl
            · rw [if_neg hin]
              by_cases hfront : id = front
              · rw [if_pos (hfront ▸ List.mem_cons_self), hfront, hrem]
              · rw [if_neg (by simp [hin, hfront])]
          obtain ⟨hfile, htally⟩ := ih (c := { c with writeBufferList := rest }) rs
            fun hin => h (hsub hin)
          exact ⟨hfile, htally.trans hpop⟩
        · rw [if_neg hdone, if_neg hdone]
          refine ⟨h.congr hlist.symm rfl, ?_⟩
          rw [Int.natCast_zero, Int.zero_add]
          exact waiting_congr hlist.symm rfl
      · rw [if_neg hrem, if_neg hrem]
        obtain ⟨hfile, htally⟩ := sendNode_tally rs hlist hrem h
        generalize c.sendNodeInLoop rs front = p at hfile htally ⊢
        obtain ⟨c', n, rs'⟩ := p
        dsimp only at hfile htally ⊢
        by_cases hstop : c'.remainingBytes front > 0 ∨ n < 0
        · rw [if_pos hstop, if_pos hstop]
          exact ⟨hfile, htally⟩
        · rw [if_neg hstop, if_neg hstop]
          obtain ⟨hfile', htally'⟩ := ih rs' hfile
          refine ⟨hfile', ?_⟩
          rw [Int.natCast_add]
          omega

/-! ## The file over a run -/

/-- What the two ways of `sendFile` do. -/
theorem Hands.step_eq {op : Op} {f : FileBufferNode} (h : Hands c op id f)
    (hf : c.failed = false) (hrem : 0 < f.remainingBytes) (rs : List SysRet) :
    c.stepAccepts id (op, rs) = c.accepts (c.step (op, rs)) ∧
      ∃ c₁ : TcpConnectionImpl, c.step (op, rs) = c₁.sendFileInLoop rs id ∧
        c₁.writeBufferList = c.writeBufferList ∧ c₁.socket = c.socket ∧ c₁.nodes id = .file f ∧
        id ∉ c₁.writeBufferList := by
  cases h with
  | direct hfd hfresh =>
    refine ⟨if_pos rfl, c.newNode (.file f), ?_, rfl, rfl, nodes_newNode_self _, hfresh⟩
    rw [step_sendFile rs true hf, hfd, if_neg Bool.false_ne_true, if_pos hrem]
    rfl
  | @queued _ _ fs hfuncs hnode hfresh =>
    refine ⟨if_pos (by rw [hfuncs]; rfl), { c with funcs := fs }, ?_, rfl, rfl, hnode, hfresh⟩
    rw [step_runFunc_cons rs hf hfuncs]
    rfl

theorem sendOrPush_file {f : FileBufferNode} (hf : c.nodes id = .file f) (r : SysRet)
    (rs : List SysRet) :
    c.sendOrPush (r :: rs) id =
      if (c.sendFileNode r id f).1.remainingBytes id > 0 ∧ (c.sendFileNode r id f).2 ≥ 0 then
        (c.sendFileNode r id f).1.pushBack id
      else (c.sendFileNode r id f).1 := by
  unfold sendOrPush
  rw [sendNodeInLoop_file c _ hf]
  rfl

/-- Right after `sendFile` the bytes are accounted for unless the first call finds the
socket full and nothing else waits. -/
theorem Hands.conserved_iff {op : Op} {f : FileBufferNode} (h : Hands c op id f)
    (hf : c.failed = false) (hrem : 0 < f.remainingBytes)
    (hfile : f.remainingBytes ≤ (f.sendFd.getD []).length) {r : SysRet} (hr : r.TakesOrFull)
    (rs : List SysRet) :
    (Tally.step id ⟨c, 0⟩ (op, r :: rs)).conn.FileIn id ∧
      (Tally.Conserved id f.remainingBytes (Tally.step id ⟨c, 0⟩ (op, r :: rs))
        ↔ c.writeBufferList ≠ [] ∨ r.taken ≠ none) := by
  have hholds : f.Holds := ⟨Int.le_of_lt hrem, hfile⟩
  obtain ⟨haccepts, c₁, hstep, hlist, hsocket, hnode, hfresh⟩ := h.step_eq hf hrem (r :: rs)
  -- the counter starts at what the socket has had so far
  have hcount : ∀ c' : TcpConnectionImpl, c.accepts c' = c₁.accepts c' := by
    intro c'
    rw [accepts, accepts, hsocket]
  unfold Tally.step Tally.Conserved
  dsimp only
  rw [haccepts, hstep, hcount, Nat.zero_add, sendFileInLoop_eq]
  -- with an empty list the file is sent from at once, else it waits as it is
  by_cases hnil : c.writeBufferList = []
  · rw [if_pos (hlist.trans hnil), sendOrPush_file hnode]
    have hret : 0 ≤ (c₁.sendFileNode r id f).2 ↔ r.taken ≠ none :=
      sendFileNode_nonneg_iff hr hholds hrem
    have hfull : r.taken = none → c₁.accepts (c₁.sendFileNode r id f).1 = 0 :=
      fun hnone => sendFileNode_full hnone f
    obtain ⟨f', hf', hholds', htally⟩ := sendFileNode_tally (c := c₁) r hnode hholds hrem
    -- sending alone puts nothing into the list
    have hlist' : (c₁.sendFileNode r id f).1.writeBufferList = [] := by
      have hsent := c₁.sendNode_sent (r :: rs) id
      rw [sendNodeInLoop_file c₁ _ hnode] at hsent
      exact hsent.list_eq.trans (hlist.trans hnil)
    generalize c₁.sendFileNode r id f = p at hret hfull hf' htally hlist' ⊢
    obtain ⟨c₂, n⟩ := p
    dsimp only at hret hfull hf' htally hlist' ⊢
    have hrem' : c₂.remainingBytes id = f'.remainingBytes := by
      rw [remainingBytes, hf']
      rfl
    rw [hrem']
    by_cases hpush : f'.remainingBytes > 0 ∧ n ≥ 0
    · -- the rest waits
      rw [if_pos hpush]
      refine ⟨fun _ => ⟨f', hf', hholds'⟩, ?_⟩
      have hin : id ∈ (c₂.pushBack id).writeBufferList := List.mem_append_right _ List.mem_cons_self
      rw [waiting, if_pos hin]
      show (c₁.accepts c₂ : Int) + c₂.remainingBytes id = f.remainingBytes ↔ _
      rw [hrem']
      exact iff_of_true (by omega) (.inr (hret.mp hpush.2))
    · -- the node is dropped: it is done, or the first call found the socket full
      rw [if_neg hpush, waiting, hlist', if_neg List.not_mem_nil]
      refine ⟨fun hin => ?_, ?_⟩
      · rw [hlist'] at hin
        cases hin
      · -- nothing is lost exactly if the call was taken, for then nothing is left
        constructor
        · intro hall
          by_contra hlost
          obtain ⟨-, htaken⟩ := not_or.mp hlost
          rw [hfull (not_not.mp htaken)] at hall
          simp only [Int.natCast_zero, Int.add_zero] at hall
          omega
        · intro hkept
          have htaken : r.taken ≠ none := hkept.resolve_left fun hne => hne hnil
          have hn := hret.mpr htaken
          have hnonneg := hholds'.nonneg
          have hzero : ¬ f'.remainingBytes > 0 := fun hpos => hpush ⟨hpos, hn⟩
          omega
  · have hne : c₁.writeBufferList ≠ [] := fun hnil' => hnil (hlist.symm.trans hnil')
    have hin : id ∈ (c₁.pushBack id).writeBufferList := List.mem_append_right _ List.mem_cons_self
    rw [if_neg hne]
    refine ⟨fun _ => ⟨f, hnode, hholds⟩, fun _ => .inl hnil, fun _ => ?_⟩
    have hnone : c₁.accepts (c₁.pushBack id) = 0 := Nat.sub_self _
    have hall : (c₁.pushBack id).waiting id = f.remainingBytes := by
      rw [waiting, if_pos hin]
      show (c₁.nodes id).remainingBytes = f.remainingBytes
      rw [hnode]
      rfl
    rw [hnone, hall]
    exact Int.zero_add _

/-- A write event keeps the account. -/
theorem tally_writeCallback {s : Tally} {r : Int} (hfile : s.conn.FileIn id)
    (hs : s.Conserved id r) (rs : List SysRet) :
    (Tally.step id s (.writeCallback, rs)).conn.FileIn id ∧
      (Tally.step id s (.writeCallback, rs)).Conserved id r := by
  unfold Tally.step Tally.Conserved stepAccepts
  dsimp only
  by_cases hrun : s.conn.failed = false ∧ s.conn.ioChannel.isWriting = true
  · rw [if_pos hrun, step_writeCallback rs hrun.1, writeCallback, if_pos hrun.2]
    obtain ⟨hloop, htally⟩ :=
      loop_tally (2 * s.conn.writeBufferList.length + 1) rs hfile
    generalize writeLoop (2 * s.conn.writeBufferList.length + 1) rs s.conn = p at hloop htally ⊢
    obtain ⟨c', emptied⟩ := p
    dsimp only at hloop htally ⊢
    -- what follows the loop changes the channel and the status, not the list
    have hrest : ∀ c'' : TcpConnectionImpl, c''.writeBufferList = c'.writeBufferList →
        c''.nodes = c'.nodes → c''.FileIn id ∧
          ((s.accepted + loopAccepts id (2 * s.conn.writeBufferList.length + 1) rs s.conn : Nat)
            : Int) + c''.waiting id = r := by
      intro c'' hlist hnodes
      refine ⟨hloop.congr hlist hnodes, ?_⟩
      unfold Tally.Conserved at hs
      rw [waiting_congr hlist hnodes, Int.natCast_add]
      omega
    cases emptied with
    | false => exact hrest c' rfl rfl
    | true =>
      simp only [if_true]
      split
      · have hshut : ∀ c'' : TcpConnectionImpl,
            c''.shutdownInLoop.writeBufferList = c''.writeBufferList ∧
              c''.shutdownInLoop.nodes = c''.nodes := by
          intro c''
          unfold shutdownInLoop
          split
          · split
            · exact ⟨rfl, rfl⟩
            · dsimp only
              split <;> exact ⟨rfl, rfl⟩
          · exact ⟨rfl, rfl⟩
        exact hrest _ (hshut _).1 (hshut _).2
      · exact hrest _ rfl rfl
  · have hsame : s.conn.step (.writeCallback, rs) = s.conn := by
      cases hf : s.conn.failed with
      | true => exact step_failed rs hf _
      | false =>
        have hw : s.conn.ioChannel.isWriting = false :=
          Bool.eq_false_iff.mpr fun hw => hrun ⟨hf, hw⟩
        rw [step_writeCallback rs hf, writeCallback_of_not_writing rs hw]
    rw [if_neg hrun, hsame]
    exact ⟨hfile, hs⟩

/-- **A file on a full socket buffer.** After `sendFile` and after every later write event
the bytes of the file are in the socket or in its node, exactly when other nodes were
waiting or the first `sendfile(2)` took bytes. -/
theorem conserved_iff_taken (hf : c.failed = false) {op : Op} {f : FileBufferNode}
    (hands : Hands c op id f) (hrem : 0 < f.remainingBytes)
    (hfile : f.remainingBytes ≤ (f.sendFd.getD []).length) {r : SysRet} (hr : r.TakesOrFull)
    (rs : List SysRet) (events : List (List SysRet)) :
    Runs.Always (Tally.step id) (Tally.Conserved id f.remainingBytes)
        (Tally.step id ⟨c, 0⟩ (op, r :: rs)) (events.map (Op.writeCallback, ·))
      ↔ c.writeBufferList ≠ [] ∨ r.taken ≠ none := by
  obtain ⟨hin, hiff⟩ := hands.conserved_iff hf hrem hfile hr rs
  rw [← hiff]
  constructor
  · intro h
    exact h.head
  · intro hs
    have hevents : ∀ a ∈ events.map (Op.writeCallback, ·), ∃ rs, a = (Op.writeCallback, rs) := by
      intro a ha
      obtain ⟨rs, -, rfl⟩ := List.mem_map.mp ha
      exact ⟨rs, rfl⟩
    have hall := Runs.always_of_along
      (I := fun s : Tally => s.conn.FileIn id ∧ s.Conserved id f.remainingBytes)
      (G := fun _ (a : Op × List SysRet) => ∃ rs, a = (.writeCallback, rs))
      (fun s a hI hG => by
        obtain ⟨rs, rfl⟩ := hG
        exact tally_writeCallback hI.1 hI.2 rs)
      ⟨hin, hs⟩ (Runs.along_of_mem hevents _)
    exact hall.mono fun _ h => h.2

/-- A file of three bytes of which the first call takes one. -/
theorem conserved_iff_taken_part :
    Runs.Always (Tally.step 0) (Tally.Conserved 0 3)
        (Tally.step 0 ⟨established none .new, 0⟩
          (.sendFile true ⟨false, some [1, 2, 3], 3⟩, [⟨some 1, .success, 0⟩]))
        ([[.again], [⟨some 5, .success, 0⟩]].map (Op.writeCallback, ·))
      ↔ (established none .new).writeBufferList ≠ [] ∨
        (⟨some 1, .success, 0⟩ : SysRet).taken ≠ none :=
  have hands : Hands (established none .new) (.sendFile true ⟨false, some [1, 2, 3], 3⟩) 0
      ⟨false, some [1, 2, 3], 3⟩ := .direct rfl List.not_mem_nil
  conserved_iff_taken rfl hands (by decide) (by decide)
    (r := ⟨some 1, .success, 0⟩) (.inl ⟨1, rfl, by decide⟩) [] [[.again], [⟨some 5, .success, 0⟩]]

/-- The first call finds the socket full: the node is dropped. -/
theorem not_conserved_full :
    ¬ Runs.Always (Tally.step 0) (Tally.Conserved 0 3)
      (Tally.step 0 ⟨established none .new, 0⟩
        (.sendFile true ⟨false, some [1, 2, 3], 3⟩, [.again])) [] := by
  intro h
  have hstart : ((0 : Nat) : Int) + 0 = 3 := h
  exact absurd hstart (by decide)

end TcpConnectionImpl

end XiaoNet
