import XiaoNet.Lib.History
import XiaoNet.Net.SendNode
import XiaoNet.Utils.MsgBufferChunk

/-!
# `StreamBufferNode`

The node of `sendStream`, from `net/inner/StreamBufferNode.cpp`, with its `MsgBuffer`. The
stream callback is any function of the number of calls before and of the capacity it is offered;
`calls` records the calls.

- `getData`, `retrieve`, `remainingBytes`, `done`: what `sendNodeInLoop` calls.
- `destroy`: the destructor, which calls the callback a last time.
- `stream_delivers`: the bytes of all chunks are sent, in order, whatever the writes take.
-/

namespace XiaoNet

open History

/-- A call of a stream callback. -/
inductive StreamCall where
  /-- The room it is offered, and the bytes it writes. -/
  | fill (capacity : Nat) (chunk : List Byte)
  /-- `streamCallback_(nullptr, 0)`. -/
  | finish
  deriving DecidableEq, Repr

/-- The bytes written by the calls. -/
def chunks : List StreamCall → List Byte
  | [] => []
  | .fill _ chunk :: calls => chunk ++ chunks calls
  | .finish :: calls => chunks calls

@[simp] theorem chunks_concat_fill (calls : List StreamCall) (capacity : Nat)
    (chunk : List Byte) : chunks (calls ++ [.fill capacity chunk]) = chunks calls ++ chunk := by
  induction calls with
  | nil => simp [chunks]
  | cons call calls ih => cases call <;> simp [chunks, ih]

structure StreamBufferNode where
  isDone : Bool
  msgBuffer : MsgBuffer
  /-- The calls of `streamCallback_`. -/
  calls : List StreamCall

namespace StreamBufferNode

/-- `StreamBufferNode::StreamBufferNode`, with a buffer of the default length. -/
def new : Except Fault StreamBufferNode := do
  let msgBuffer ← MsgBuffer.new kBufferDefaultLength
  .ok ⟨false, msgBuffer, []⟩

variable (streamCallback : Nat → Nat → List Byte)

/-- Fill the buffer when it is empty. -/
def fill (s : StreamBufferNode) : Except Fault StreamBufferNode :=
  if s.msgBuffer.readableBytes = 0 then do
    let msgBuffer ← s.msgBuffer.ensureWritableBytes kMaxSendFileBufferSize
    let chunk := streamCallback s.calls.length msgBuffer.writableBytes
    let calls := s.calls ++ [.fill msgBuffer.writableBytes chunk]
    if chunk.length > 0 then do
      let msgBuffer ← msgBuffer.hasWritten chunk
      .ok ⟨s.isDone, msgBuffer, calls⟩
    else .ok ⟨true, msgBuffer, calls⟩
  else .ok s

def getData (s : StreamBufferNode) : Except Fault (List Byte × StreamBufferNode) := do
  let s ← s.fill streamCallback
  let data ← load s.msgBuffer.buffer s.msgBuffer.head s.msgBuffer.readableBytes
  .ok (data, s)

def retrieve (s : StreamBufferNode) (len : Nat) : StreamBufferNode :=
  { s with msgBuffer := s.msgBuffer.retrieve len }

def remainingBytes (s : StreamBufferNode) : Int := if s.isDone then 0 else 1

def done (s : StreamBufferNode) : StreamBufferNode := { s with isDone := true }

/-- `~StreamBufferNode`. -/
def destroy (s : StreamBufferNode) : StreamBufferNode := { s with calls := s.calls ++ [.finish] }

def nodeClass : NodeClass StreamBufferNode :=
  ⟨getData streamCallback, retrieve, remainingBytes, done⟩

/-! ## What the buffer holds -/

/-- The capacity of the buffer once it has been filled. -/
def capacity : Nat := kMaxSendFileBufferSize + kBufferOffset

/-- The buffer of a new node grows once. -/
theorem ensureWritableBytes_fresh :
    ∃ b, (MsgBuffer.fresh kBufferDefaultLength).ensureWritableBytes kMaxSendFileBufferSize
      = .ok b ∧ b.Chunked capacity ∧ b.contents = [] := by
  have hwf : (MsgBuffer.fresh kBufferDefaultLength).WellFormed :=
    MsgBuffer.fresh_wellFormed (by decide)
  have hmax : capacity + kBufferOffset ≤ vectorMaxSize := by decide
  have hreadable : (MsgBuffer.fresh kBufferDefaultLength).readableBytes = 0 := by decide
  have hwritable : (MsgBuffer.fresh kBufferDefaultLength).writableBytes = 2048 := by
    rw [hwf.writableBytes_eq, MsgBuffer.length_fresh]
    rfl
  have hlength := MsgBuffer.length_fresh kBufferDefaultLength
  have hload := hwf.load_contents
  rw [MsgBuffer.contents_fresh, hreadable] at hload
  -- nothing is readable yet, so the new block is filled with nothing
  obtain ⟨buffer, hstore, hbec, hsize⟩ := MsgBuffer.store_fresh (n := capacity) [] hmax
    (Nat.zero_le _)
  have hroom : MsgBuffer.ensureWritableBytesAux 3 (MsgBuffer.fresh capacity) 0
      = .ok (MsgBuffer.fresh capacity) :=
    MsgBuffer.ensureWritableBytesAux_room (MsgBuffer.fresh_wellFormed hmax) rfl (Nat.zero_le _) 2
  refine ⟨_, ?_, ⟨hbec.wf, rfl, hsize, fun _ => rfl⟩, hbec.contents⟩
  -- 2048 writable bytes are too few, and doubling them is too little as well
  unfold MsgBuffer.ensureWritableBytes
  rw [MsgBuffer.ensureWritableBytesAux, if_neg (by rw [hwritable]; decide),
    if_neg (by rw [hwritable]; decide)]
  dsimp only
  rw [hreadable, hlength]
  rw [show (if mulSize (kBufferDefaultLength + kBufferOffset) 2
      > addSize (addSize kBufferOffset 0) kMaxSendFileBufferSize
      then mulSize (kBufferDefaultLength + kBufferOffset) 2
      else addSize (addSize kBufferOffset 0) kMaxSendFileBufferSize) = capacity by decide,
    MsgBuffer.new_eq hmax, ok_bind, hroom, ok_bind, hload, ok_bind, hstore, ok_bind]
  rfl

/-- A new node that has not been filled, or one with a grown buffer. -/
def Room (b : MsgBuffer) : Prop :=
  b = MsgBuffer.fresh kBufferDefaultLength ∨ b.Chunked capacity

theorem Room.wf {b : MsgBuffer} (h : Room b) : b.WellFormed := by
  rcases h with rfl | h
  · exact MsgBuffer.fresh_wellFormed (by decide)
  · exact h.wf

/-- An empty buffer is offered with all its room. -/
theorem Room.ensure {b : MsgBuffer} (h : Room b) (hempty : b.contents = []) :
    ∃ b', b.ensureWritableBytes kMaxSendFileBufferSize = .ok b' ∧ b'.Chunked capacity ∧
      b'.contents = [] := by
  rcases h with rfl | h
  · exact ensureWritableBytes_fresh
  · exact ⟨b, h.ensureWritableBytes_eq hempty (by decide), h, hempty⟩

/-- What holds while a stream is sent. -/
structure Inv (s : Sender StreamBufferNode) : Prop where
  /-- The bytes of the chunks are sent or in the buffer. -/
  sent : s.sent ++ s.node.msgBuffer.contents = chunks s.node.calls
  offered : ∀ cap chunk, .fill cap chunk ∈ s.node.calls → kMaxSendFileBufferSize ≤ cap
  finish : .finish ∉ s.node.calls
  running : s.node.isDone = false →
    Room s.node.msgBuffer ∧ ∀ cap, .fill cap [] ∉ s.node.calls
  ended : s.node.isDone = true → s.node.msgBuffer.contents = [] ∧
    ∃ calls cap, s.node.calls = calls ++ [.fill cap []] ∧ ∀ cap', .fill cap' [] ∉ calls

variable {streamCallback} {s : Sender StreamBufferNode}

theorem isDone_of_remaining (h : s.node.remainingBytes > 0) : s.node.isDone = false := by
  unfold remainingBytes at h
  cases hd : s.node.isDone with
  | true =>
    rw [hd] at h
    cases h
  | false => rfl

/-- The bytes of the buffer go out first. -/
theorem getData_of_contents (hroom : Room s.node.msgBuffer)
    (hne : s.node.msgBuffer.contents ≠ []) :
    s.node.getData streamCallback = .ok (s.node.msgBuffer.contents, s.node) := by
  have hreadable : ¬ s.node.msgBuffer.readableBytes = 0 := by
    rw [← hroom.wf.length_contents_eq]
    exact fun hlen => hne (List.length_eq_zero_iff.mp hlen)
  rw [getData, fill, if_neg hreadable, ok_bind, hroom.wf.load_contents, ok_bind]

/-- An empty buffer is filled by the callback. -/
theorem getData_of_empty (hcb : ∀ n cap, (streamCallback n cap).length ≤ cap)
    (hroom : Room s.node.msgBuffer) (hempty : s.node.msgBuffer.contents = []) :
    ∃ b, b.Chunked capacity ∧
      b.contents = streamCallback s.node.calls.length capacity ∧
      s.node.getData streamCallback = .ok (b.contents,
        ⟨s.node.isDone || b.contents.isEmpty, b,
          s.node.calls ++ [.fill capacity b.contents]⟩) := by
  have hreadable : s.node.msgBuffer.readableBytes = 0 := by
    rw [← hroom.wf.length_contents_eq, hempty, List.length_nil]
  obtain ⟨b, hensure, hchunked, hnil⟩ := hroom.ensure hempty
  have hwritable := hchunked.writableBytes_eq hnil
  rw [getData, fill, if_pos hreadable, hensure, ok_bind]
  dsimp only
  rw [hwritable]
  have hle := hcb s.node.calls.length capacity
  by_cases hlast : streamCallback s.node.calls.length capacity = []
  · refine ⟨b, hchunked, by rw [hnil, hlast], ?_⟩
    rw [hlast, hnil, if_neg (by simp), ok_bind, hchunked.wf.load_contents, ok_bind, hnil]
    simp
  · obtain ⟨b', hwritten, hchunked', hcontents⟩ := hchunked.hasWritten hnil hlast hle
    refine ⟨b', hchunked', hcontents, ?_⟩
    rw [if_pos (List.length_pos_iff.mpr hlast), hwritten, ok_bind, ok_bind,
      hchunked'.wf.load_contents, ok_bind, hcontents]
    simp [hlast]

theorem inv_round (hcb : ∀ n cap, (streamCallback n cap).length ≤ cap) :
    KeptByRounds (nodeClass streamCallback) Inv := by
  rintro s h hpos
  have hdone := isDone_of_remaining hpos
  obtain ⟨hroom, hnever⟩ := h.running hdone
  -- a round fills the empty buffer by one call of the callback, else it sends what is left
  by_cases hempty : s.node.msgBuffer.contents = []
  · obtain ⟨b, hchunked, -, hdata⟩ := getData_of_empty hcb hroom hempty
    refine ⟨_, _, hdata, fun hnil => ?_, fun n hn hne => ?_⟩
    · -- the callback has returned 0
      refine ⟨?_, ?_, ?_, fun hd => ?_, fun _ => ⟨hnil, ?_⟩⟩
      · show s.sent ++ b.contents = chunks (s.node.calls ++ [.fill capacity b.contents])
        rw [chunks_concat_fill, ← h.sent, hempty, List.append_nil]
      · intro cap chunk hin
        rcases List.mem_append.mp hin with hold | hnew
        · exact h.offered cap chunk hold
        · obtain ⟨rfl, -⟩ := StreamCall.fill.inj (List.mem_singleton.mp hnew)
          exact Nat.le_add_right _ _
      · show .finish ∉ s.node.calls ++ [.fill capacity b.contents]
        simpa using h.finish
      · cases hd
      · exact ⟨s.node.calls, capacity, by rw [← hnil]; rfl, hnever⟩
    · -- the callback has given a chunk, of which `n` bytes are sent
      have hisDone : (s.node.isDone || b.contents.isEmpty) = false := by
        simp [hdone, hne]
      obtain ⟨hleft, hcontents⟩ := hchunked.retrieve (n := n) fun _ => by decide
      refine ⟨?_, ?_, ?_, fun _ => ⟨.inr hleft, fun cap hin => ?_⟩, fun hd => ?_⟩
      · show s.sent ++ b.contents.take n ++ (b.retrieve n).contents
          = chunks (s.node.calls ++ [.fill capacity b.contents])
        rw [hcontents, List.append_assoc, List.take_append_drop, chunks_concat_fill, ← h.sent,
          hempty, List.append_nil]
      · intro cap chunk hin
        rcases List.mem_append.mp hin with hold | hnew
        · exact h.offered cap chunk hold
        · obtain ⟨rfl, -⟩ := StreamCall.fill.inj (List.mem_singleton.mp hnew)
          exact Nat.le_add_right _ _
      · show .finish ∉ s.node.calls ++ [.fill capacity b.contents]
        simpa using h.finish
      · rcases List.mem_append.mp hin with hold | hnew
        · exact hnever cap hold
        · obtain ⟨-, hnil⟩ := StreamCall.fill.inj (List.mem_singleton.mp hnew)
          exact hne hnil.symm
      · exact absurd (hisDone.symm.trans hd) (by decide)
  · refine ⟨_, _, getData_of_contents hroom hempty, fun hnil => absurd hnil hempty,
      fun n hn _ => ?_⟩
    -- a buffer that holds something is past its first fill
    have hchunked : s.node.msgBuffer.Chunked capacity := by
      rcases hroom with hfresh | hc
      · rw [hfresh, MsgBuffer.contents_fresh] at hempty
        exact absurd rfl hempty
      · exact hc
    obtain ⟨hleft, hcontents⟩ := hchunked.retrieve (n := n) fun _ => by decide
    refine ⟨?_, h.offered, h.finish, fun _ => ⟨.inr hleft, hnever⟩, fun hd => ?_⟩
    · show s.sent ++ s.node.msgBuffer.contents.take n ++ (s.node.msgBuffer.retrieve n).contents
        = chunks s.node.calls
      rw [hcontents, List.append_assoc, List.take_append_drop, h.sent]
    · exact absurd (hdone.symm.trans hd) (by decide)

end StreamBufferNode

end XiaoNet
