import XiaoNet.Net.ConnectionFrame

/-!
# The two paths of a send

`sendFile`, `sendStream` and `sendAsyncStream` are written twice: once for a call in the
loop thread, once in the closure that a call from another thread queues.

- `SendCall.direct` and `SendCall.viaClosure`: what the two paths do to one state.
- `Agree`: the same socket, list, write interest and kick-off state.
- `agree_iff`: the paths agree for every call but `sendStream` on a connection that
  has bytes waiting, where the direct path drops the stream.
-/

namespace XiaoNet

namespace TcpConnectionImpl

/-- A call of one of the three functions. -/
inductive SendCall where
  | sendFile (file : FileBufferNode)
  | sendStream (callback : Nat → List Byte)
  | sendAsyncStream (disableKickoff : Bool)

namespace SendCall

def op (call : SendCall) (inLoop : Bool) : Op :=
  match call with
  | sendFile file => .sendFile inLoop file
  | sendStream callback => .sendStream inLoop callback
  | sendAsyncStream disableKickoff => .sendAsyncStream inLoop disableKickoff

def isSendStream : SendCall → Bool
  | sendFile _ => false
  | sendStream _ => true
  | sendAsyncStream _ => false

/-- The call in the loop thread. -/
def direct (call : SendCall) (c : TcpConnectionImpl) (rs : List SysRet) : TcpConnectionImpl :=
  c.step (call.op true, rs)

/-- The call from another thread and the closure it queues, run in the same state. -/
def viaClosure (call : SendCall) (c : TcpConnectionImpl) (rs : List SysRet) :
    TcpConnectionImpl :=
  let c' := c.step (call.op false, [])
  match c'.funcs.drop c.funcs.length with
  | f :: _ => { c' with funcs := c.funcs }.call rs f
  | [] => c'

end SendCall

/-- What the peer and the poller see of two connections is the same. -/
structure Agree (c c' : TcpConnectionImpl) : Prop where
  socket_eq : c.socket = c'.socket
  list_eq : c.writeBufferList = c'.writeBufferList
  nodes_eq : ∀ id ∈ c.writeBufferList, c.nodes id = c'.nodes id
  writing_eq : c.ioChannel.isWriting = c'.ioChannel.isWriting
  kickoff_eq : c.kickoff = c'.kickoff

variable {c : TcpConnectionImpl}

theorem Agree.refl (c : TcpConnectionImpl) : Agree c c :=
  ⟨rfl, rfl, fun _ _ => rfl, rfl, rfl⟩

/-! ## What the closure does -/

/-- The closure is the one that the call put behind the others. -/
theorem viaClosure_of_queue {call : SendCall} {c' : TcpConnectionImpl} {f : Func}
    (hstep : c.step (call.op false, []) = c'.queue f) (hfuncs : c'.funcs = c.funcs)
    (rs : List SysRet) : call.viaClosure c rs = c'.call rs f := by
  have hdrop : (c'.queue f).funcs.drop c.funcs.length = [f] := by
    show (c'.funcs ++ [f]).drop c.funcs.length = [f]
    rw [hfuncs, List.drop_left]
  have hback : { c'.queue f with funcs := c.funcs } = c' := by
    rw [← hfuncs]
    rfl
  unfold SendCall.viaClosure
  rw [hstep]
  simp only [hdrop, hback]

/-- A call that queues nothing. -/
theorem viaClosure_of_same {call : SendCall} {c' : TcpConnectionImpl}
    (hstep : c.step (call.op false, []) = c') (hfuncs : c'.funcs = c.funcs) (rs : List SysRet) :
    call.viaClosure c rs = c' := by
  unfold SendCall.viaClosure
  rw [hstep]
  simp only [hfuncs, List.drop_length]

/-- The node of a stream has no bytes when the closure runs at once. -/
theorem sendAsyncStreamQueued_new (rs : List SysRet) (disableKickoff : Bool) :
    c.newStream.sendAsyncStreamQueued rs c.nextNode disableKickoff
      = c.newStream.sendAsyncStreamInLoop c.nextNode disableKickoff := by
  have hempty : ∀ c' : TcpConnectionImpl, c'.nodes = c.newStream.nodes →
      ¬ (c'.writeBufferList = [] ∧ c'.remainingBytes c.nextNode > 0) := by
    intro c' hnodes hsend
    have hnew : c'.nodes c.nextNode = .data .newAsyncStreamBufferNode := by
      rw [hnodes]
      exact nodes_newNode_self _
    have hpos := hsend.2
    rw [remainingBytes, hnew] at hpos
    exact absurd hpos (by decide)
  rw [sendAsyncStreamQueued_eq]
  cases disableKickoff with
  | true => exact if_neg (hempty _ rfl)
  | false => exact if_neg (hempty _ rfl)

/-! ## The paths -/

section Paths

variable (hf : c.failed = false) (rs : List SysRet)

include hf

theorem sendFile_paths (file : FileBufferNode) :
    (SendCall.sendFile file).direct c rs = (SendCall.sendFile file).viaClosure c rs := by
  have hdirect := step_sendFile rs true hf file
  have hqueued := step_sendFile [] false hf file
  show c.step (.sendFile true file, rs) = _
  by_cases hfd : file.sendFd.isNone = true
  · -- no file was opened: neither path does anything
    rw [if_pos hfd] at hdirect hqueued
    have hsame : c.step ((SendCall.sendFile file).op false, []) = c := hqueued
    rw [hdirect, viaClosure_of_same hsame rfl]
  · rw [if_neg hfd] at hdirect hqueued
    by_cases hrem : file.remainingBytes > 0
    · rw [if_pos hrem] at hdirect hqueued
      have hqueue : c.step ((SendCall.sendFile file).op false, [])
          = (c.newNode (.file file)).queue (.sendFile c.nextNode) := hqueued
      rw [hdirect, viaClosure_of_queue hqueue rfl]
      rfl
    · rw [if_neg hrem] at hdirect hqueued
      have hsame : c.step ((SendCall.sendFile file).op false, []) = c.assert false := hqueued
      rw [hdirect, viaClosure_of_same hsame rfl]

theorem sendAsyncStream_paths (disableKickoff : Bool) :
    (SendCall.sendAsyncStream disableKickoff).direct c rs
      = (SendCall.sendAsyncStream disableKickoff).viaClosure c rs := by
  have hqueued : c.step ((SendCall.sendAsyncStream disableKickoff).op false, [])
      = c.newStream.queue (.sendAsyncStream c.nextNode disableKickoff) :=
    step_sendAsyncStream [] false hf disableKickoff
  rw [viaClosure_of_queue hqueued rfl]
  show c.step (.sendAsyncStream true disableKickoff, rs)
    = c.newStream.sendAsyncStreamQueued rs c.nextNode disableKickoff
  rw [step_sendAsyncStream rs true hf, sendAsyncStreamQueued_new]
  rfl

/-- With an empty list the copies are the same; with bytes waiting, only the closure
keeps the stream. -/
theorem sendStream_paths (callback : Nat → List Byte) :
    (SendCall.sendStream callback).viaClosure c rs =
      if c.writeBufferList = [] then (SendCall.sendStream callback).direct c rs
      else ((SendCall.sendStream callback).direct c rs).pushBack c.nextNode := by
  have hqueued : c.step ((SendCall.sendStream callback).op false, [])
      = (c.newNode (.data (.newStreamBufferNode callback))).queue (.sendStream c.nextNode) :=
    step_sendStream [] false hf callback
  have hdirect : (SendCall.sendStream callback).direct c rs
      = (c.newNode (.data (.newStreamBufferNode callback))).sendStreamInLoop rs c.nextNode :=
    step_sendStream rs true hf callback
  have hlist : (c.newNode (.data (.newStreamBufferNode callback))).writeBufferList
      = c.writeBufferList := rfl
  rw [viaClosure_of_queue hqueued rfl, hdirect, sendStreamInLoop_eq, hlist]
  show (c.newNode (.data (.newStreamBufferNode callback))).sendStreamQueued rs c.nextNode = _
  rw [sendStreamQueued_eq, sendFileInLoop_eq, hlist]
  by_cases hl : c.writeBufferList = []
  · rw [if_pos hl, if_pos hl, if_pos hl]
  · rw [if_neg hl, if_neg hl, if_neg hl]

end Paths

/-- A node that only one path keeps tells the paths apart. -/
theorem not_agree_pushBack (id : NodeId) : ¬ Agree c (c.pushBack id) := by
  intro h
  have hlen := congrArg List.length h.list_eq
  have hpush : (c.pushBack id).writeBufferList.length = c.writeBufferList.length + 1 :=
    List.length_append
  omega

/-- **Two copies of a send.** In every state the call in the loop thread and the closure
it queues from another thread agree, unless the call is `sendStream` and bytes wait. -/
theorem agree_iff (hf : c.failed = false) (call : SendCall) (rs : List SysRet) :
    Agree (call.direct c rs) (call.viaClosure c rs)
      ↔ ¬ (call.isSendStream = true ∧ c.writeBufferList ≠ []) := by
  cases call with
  | sendFile file =>
    rw [sendFile_paths hf rs file]
    exact ⟨fun _ h => (nomatch h.1), fun _ => .refl _⟩
  | sendAsyncStream disableKickoff =>
    rw [sendAsyncStream_paths hf rs disableKickoff]
    exact ⟨fun _ h => (nomatch h.1), fun _ => .refl _⟩
  | sendStream callback =>
    rw [sendStream_paths hf rs callback]
    by_cases hl : c.writeBufferList = []
    · rw [if_pos hl]
      exact ⟨fun _ h => h.2 hl, fun _ => .refl _⟩
    · rw [if_neg hl]
      exact iff_of_false (not_agree_pushBack _) (fun h => h ⟨rfl, hl⟩)

/-- A file handed over in a new connection. -/
theorem agree_iff_sendFile :
    Agree ((SendCall.sendFile ⟨false, some [1, 2, 3], 3⟩).direct (established none .new) [])
        ((SendCall.sendFile ⟨false, some [1, 2, 3], 3⟩).viaClosure (established none .new) [])
      ↔ ¬ ((SendCall.sendFile ⟨false, some [1, 2, 3], 3⟩).isSendStream = true ∧
        (established none .new).writeBufferList ≠ []) :=
  agree_iff rfl _ _

/-- A payload waits; the stream sent in the loop thread is dropped. -/
theorem not_agree_sendStream :
    ¬ Agree ((SendCall.sendStream fun _ => [7]).direct
        ((established none .new).step (.send true [1], [.again])) [])
      ((SendCall.sendStream fun _ => [7]).viaClosure
        ((established none .new).step (.send true [1], [.again])) []) := by
  intro h
  exact absurd h.list_eq (by decide +kernel)

end TcpConnectionImpl

end XiaoNet
