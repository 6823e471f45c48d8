import XiaoNet.Net.FileBufferNode

/-!
# A range of a file, on both paths

A file node is sent with `sendfile(2)` on a plain connection, and through its buffer on one with
TLS.

- `Delivers`: what either path should have sent of a range.
- `Within`: on the buffered path no byte behind the range has been read.
- `paths_deliver_iff`: both paths send the range, whatever the writes take, exactly when its
  length is at most 16 KiB or a multiple of it, or the range ends where the file does. The last
  chunk is read with the room of a full one, and all of it is written.
-/

namespace XiaoNet

/-- The bytes sent of a range, when `remaining` is what the node says. -/
structure Delivers (range sent : List Byte) (remaining : Int) : Prop where
  ended : remaining = 0 → sent = range
  counted : 0 < remaining → sent.length + remaining = range.length

namespace BufferedFileNode

/-- The bytes that were read and not retrieved. -/
def buffered (f : BufferedFileNode) : List Byte :=
  match f.msgBufferPtr with
  | none => []
  | some b => b.contents

/-- The buffer has the capacity `cap`, or will have it. -/
def HasBuffer (cap : Nat) (f : BufferedFileNode) : Prop :=
  match f.msgBufferPtr with
  | none => f.chunkSize = cap
  | some b => b.Chunked cap

variable {f : BufferedFileNode} {cap : Nat} {rest : List Byte}

theorem HasBuffer.msgBuffer (h : HasBuffer cap f) (hmax : cap + kBufferOffset ≤ vectorMaxSize) :
    ∃ b, f.msgBuffer = .ok b ∧ b.Chunked cap ∧ b.contents = f.buffered := by
  unfold HasBuffer at h
  unfold BufferedFileNode.msgBuffer buffered
  cases hptr : f.msgBufferPtr with
  | none =>
    rw [hptr] at h
    have hchunk : f.chunkSize = cap := h
    dsimp only
    rw [hchunk]
    exact ⟨_, MsgBuffer.new_eq hmax, MsgBuffer.chunked_fresh hmax, MsgBuffer.contents_fresh cap⟩
  | some b =>
    rw [hptr] at h
    exact ⟨b, rfl, h, rfl⟩

/-- Bytes that were read before come first. -/
theorem getData_of_buffered (h : HasBuffer cap f) (hmax : cap + kBufferOffset ≤ vectorMaxSize)
    (hfd : f.sendFd = some rest) (hne : f.buffered ≠ []) :
    ∃ b, b.Chunked cap ∧ b.contents = f.buffered ∧
      f.getData = .ok (b.contents, { f with msgBufferPtr := some b }) := by
  obtain ⟨b, hb, hchunked, hcontents⟩ := h.msgBuffer hmax
  have hreadable : ¬ (b.readableBytes = 0 ∧ f.fileBytesToSend > 0) := by
    rw [← hchunked.wf.length_contents_eq, hcontents]
    exact fun hboth => hne (List.length_eq_zero_iff.mp hboth.1)
  refine ⟨b, hchunked, hcontents, ?_⟩
  rw [getData, hb, ok_bind, fill, hfd]
  dsimp only
  rw [if_neg hreadable, ok_bind]
  dsimp only
  rw [hchunked.wf.load_contents, ok_bind]

/-- An empty buffer is filled as far as it has room. -/
theorem getData_of_empty (h : HasBuffer cap f) (hmax : cap + kBufferOffset ≤ vectorMaxSize)
    (hfd : f.sendFd = some rest) (hempty : f.buffered = []) (hpos : 0 < f.fileBytesToSend)
    (hchunk : f.chunkSize ≤ cap) (hcap : 0 < cap) (hrest : rest ≠ []) :
    ∃ b, b.Chunked cap ∧ b.contents = rest.take cap ∧
      f.getData = .ok (b.contents,
        { f with msgBufferPtr := some b, sendFd := some (rest.drop cap) }) := by
  obtain ⟨b, hb, hchunked, hcontents⟩ := h.msgBuffer hmax
  rw [hempty] at hcontents
  have hwritable := hchunked.writableBytes_eq hcontents
  have hlen := List.length_pos_iff.mpr hrest
  have htake : rest.take (min cap rest.length) = rest.take cap := by
    rw [List.take_eq_take_iff]
    omega
  -- whether the file ends inside the chunk does not matter to what is left of it
  have hdrop : rest.drop (min cap rest.length) = rest.drop cap := by
    rcases Nat.le_total cap rest.length with hle | hle
    · rw [Nat.min_eq_left hle]
    · rw [Nat.min_eq_right hle, List.drop_length, List.drop_eq_nil_of_le hle]
  have htaken : rest.take cap ≠ [] := by
    intro hnil
    have hzero := congrArg List.length hnil
    rw [List.length_take, List.length_nil] at hzero
    omega
  obtain ⟨b', hwritten, hchunked', hcontents'⟩ := hchunked.hasWritten hcontents htaken
    (by rw [List.length_take]; exact Nat.min_le_left _ _)
  refine ⟨b', hchunked', hcontents', ?_⟩
  -- the buffer has the room already, so nothing is moved or allocated
  rw [getData, hb, ok_bind, fill, hfd]
  dsimp only
  rw [if_pos ⟨hchunked.readableBytes_eq hcontents, hpos⟩,
    hchunked.ensureWritableBytes_eq hcontents hchunk, ok_bind]
  rw [hwritable, if_pos (by omega), htake, hwritten, ok_bind, ok_bind]
  dsimp only
  rw [hchunked'.wf.load_contents, ok_bind, hdrop]

/-! ## Nothing behind the range -/

/-- The capacity of the buffer for a range of that length. -/
def capacity (length : Nat) : Nat := min kMaxSendFileBufferSize length

theorem capacity_max (length : Nat) : capacity length + kBufferOffset ≤ vectorMaxSize := by
  have hmax : kMaxSendFileBufferSize + kBufferOffset ≤ vectorMaxSize := by decide
  unfold capacity
  omega

variable {bytes : List Byte} {length : Nat}

theorem chunkSize_eq {k : Nat} (hleft : f.fileBytesToSend = (k : Int)) (hk : k < sizeMod) :
    f.chunkSize = capacity k := by
  rw [chunkSize, hleft, intToSize_natCast hk, capacity]

/-- The buffered bytes follow those sent, and what the descriptor has left follows them. -/
structure Ahead (bytes : List Byte) (length : Nat) (sent data rest : List Byte) : Prop where
  file : sent ++ data ++ rest = bytes
  le_length : sent.length + data.length ≤ length
  /-- Only full chunks have been read. -/
  aligned : capacity length ∣ length → capacity length ∣ sent.length + data.length

/-- What holds while a range of `length` bytes is sent from a file whose bytes from the offset
on are `bytes`. -/
structure Within (bytes : List Byte) (length : Nat) (s : Sender BufferedFileNode) : Prop where
  isDone : s.node.isDone = false
  sent_le : s.sent.length ≤ length
  left : s.node.fileBytesToSend = (length - s.sent.length : Nat)
  sent : s.sent <+: bytes
  ahead : s.sent.length < length → HasBuffer (capacity length) s.node ∧
    ∃ rest, s.node.sendFd = some rest ∧ Ahead bytes length s.sent s.node.buffered rest

variable {s : Sender BufferedFileNode}

theorem Within.lt_length (h : Within bytes length s) (hpos : s.node.remainingBytes > 0) :
    s.sent.length < length := by
  unfold remainingBytes FileBufferNode.remainingBytes at hpos
  rw [h.isDone, h.left] at hpos
  simp at hpos
  omega

/-- What `getData` gives is in the range. -/
theorem Within.getData (h : Within bytes length s) (hle : length ≤ bytes.length)
    (hsize : length < sizeMod) (hcond : capacity length ∣ length ∨ length = bytes.length)
    (hpos : s.node.remainingBytes > 0) :
    ∃ b rest, b.Chunked (capacity length) ∧ b.contents ≠ [] ∧
      Ahead bytes length s.sent b.contents rest ∧
      s.node.getData = .ok (b.contents,
        { s.node with msgBufferPtr := some b, sendFd := some rest }) := by
  have hlt := h.lt_length hpos
  obtain ⟨hbuffer, rest, hfd, hahead⟩ := h.ahead hlt
  have hmax := capacity_max length
  -- read ahead when the buffer is empty
  by_cases hempty : s.node.buffered = []
  · have hfile := hahead.file
    have haligned := hahead.aligned
    rw [hempty, List.append_nil] at hfile
    rw [hempty, List.length_nil, Nat.add_zero] at haligned
    have hrest : s.sent.length + rest.length = bytes.length := by
      rw [← List.length_append, hfile]
    have hcap : 0 < capacity length := by
      unfold capacity kMaxSendFileBufferSize
      omega
    have hchunk : s.node.chunkSize ≤ capacity length := by
      rw [chunkSize_eq h.left (by omega)]
      unfold capacity
      omega
    have hbytes : (0 : Int) < s.node.fileBytesToSend := by
      rw [h.left]
      omega
    obtain ⟨b, hchunked, hcontents, hdata⟩ := getData_of_empty hbuffer hmax hfd hempty hbytes
      hchunk hcap (fun hnil => by rw [hnil, List.length_nil] at hrest; omega)
    have hlen : b.contents.length = min (capacity length) rest.length := by
      rw [hcontents, List.length_take]
    refine ⟨b, rest.drop (capacity length), hchunked, fun hnil => ?_, ⟨?_, ?_, ?_⟩, hdata⟩
    · rw [hnil, List.length_nil] at hlen
      omega
    · rw [hcontents, List.append_assoc, List.take_append_drop, hfile]
    · rw [hlen]
      rcases hcond with hdvd | heq
      · -- a chunk that is not read yet fits into the range
        have hnext := Nat.le_of_dvd (Nat.sub_pos_of_lt hlt) (Nat.dvd_sub hdvd (haligned hdvd))
        omega
      · omega
    · intro hdvd
      have hnext := Nat.le_of_dvd (Nat.sub_pos_of_lt hlt) (Nat.dvd_sub hdvd (haligned hdvd))
      rw [hlen, Nat.min_eq_left (by omega)]
      exact Nat.dvd_add (haligned hdvd) (Nat.dvd_refl _)
  · -- what was read ahead is still there
    obtain ⟨b, hchunked, hcontents, hdata⟩ := getData_of_buffered hbuffer hmax hfd hempty
    rw [← hcontents] at hahead hempty
    refine ⟨b, rest, hchunked, hempty, hahead, ?_⟩
    rw [hdata, ← hfd]

/-- A part of it is written. -/
theorem Within.retrieve (h : Within bytes length s) {b : MsgBuffer} {rest : List Byte}
    (hchunked : b.Chunked (capacity length)) (hne : b.contents ≠ [])
    (hahead : Ahead bytes length s.sent b.contents rest) {n : Nat} (hn : n ≤ b.contents.length) :
    Within bytes length
      ⟨BufferedFileNode.retrieve { s.node with msgBufferPtr := some b, sendFd := some rest } n,
        s.sent ++ b.contents.take n⟩ := by
  have hle := hahead.le_length
  have hlen : (s.sent ++ b.contents.take n).length = s.sent.length + n := by
    rw [List.length_append, List.length_take, Nat.min_eq_left hn]
  have hpos := List.length_pos_iff.mpr hne
  have hsent := h.sent_le
  refine ⟨h.isDone, by rw [hlen]; omega, ?_, ?_, fun hlt => ?_⟩
  · show (if s.node.fileBytesToSend - n < 0 then 0 else s.node.fileBytesToSend - n) = _
    rw [h.left, hlen, if_neg (by omega)]
    omega
  · refine ⟨b.contents.drop n ++ rest, ?_⟩
    rw [List.append_assoc, ← List.append_assoc (b.contents.take n), List.take_append_drop,
      ← List.append_assoc, hahead.file]
  · rw [hlen] at hlt
    obtain ⟨hretrieved, hcontents⟩ := hchunked.retrieve (n := n) fun hall => by
      -- a buffer of less than 8 bytes holds the whole range
      by_contra hsmall
      have hcap : capacity length = length := by
        unfold capacity kMaxSendFileBufferSize kBufferOffset at *
        omega
      have hdvd := hahead.aligned (by rw [hcap])
      rw [hcap] at hdvd
      have := Nat.le_of_dvd (by omega) hdvd
      omega
    refine ⟨hretrieved, rest, rfl, ⟨?_, ?_, ?_⟩⟩
    · show s.sent ++ b.contents.take n ++ (b.retrieve n).contents ++ rest = bytes
      rw [hcontents, List.append_assoc s.sent, List.take_append_drop, hahead.file]
    · show (s.sent ++ b.contents.take n).length + (b.retrieve n).contents.length ≤ length
      rw [hlen, hcontents, List.length_drop]
      omega
    · show capacity length ∣ length → capacity length ∣
        (s.sent ++ b.contents.take n).length + (b.retrieve n).contents.length
      rw [hlen, hcontents, List.length_drop, Nat.add_assoc, Nat.add_sub_cancel' hn]
      exact hahead.aligned

theorem within_round (hle : length ≤ bytes.length) (hsize : length < sizeMod)
    (hcond : capacity length ∣ length ∨ length = bytes.length) :
    KeptByRounds nodeClass (Within bytes length) := by
  rintro s h hpos
  obtain ⟨b, rest, hchunked, hne, hahead, hdata⟩ := h.getData hle hsize hcond hpos
  exact ⟨_, _, hdata, fun hnil => absurd hnil hne,
    fun n hn _ => h.retrieve hchunked hne hahead hn⟩

/-- What has been sent so far. -/
theorem Within.delivers (h : Within bytes length s) (hle : length ≤ bytes.length) :
    Delivers (bytes.take length) s.sent s.node.remainingBytes := by
  have hrem : s.node.remainingBytes = (length - s.sent.length : Nat) := by
    unfold remainingBytes FileBufferNode.remainingBytes
    rw [h.isDone, h.left]
    rfl
  have hsent := h.sent_le
  rw [hrem]
  constructor
  · intro hzero
    have hlen : s.sent.length = length := by omega
    rw [← hlen]
    exact List.prefix_iff_eq_take.mp h.sent
  · intro _
    rw [List.length_take, Nat.min_eq_left hle]
    omega

/-! ## The last chunk of a range that ends inside the file -/

/-- `k` full chunks of size `cap` have been read and written. -/
structure Chunks (bytes : List Byte) (length cap k : Nat) (s : Sender BufferedFileNode) : Prop where
  isDone : s.node.isDone = false
  lt_length : k * cap < length
  left : s.node.fileBytesToSend = (length - k * cap : Nat)
  sent : s.sent.length = k * cap
  buffer : HasBuffer cap s.node
  buffered : s.node.buffered = []
  sendFd : s.node.sendFd = some (bytes.drop (k * cap))

/-- Nothing is left to do. -/
theorem sendNodeInLoop_of_none (h : s.node.remainingBytes ≤ 0) (taken : List Nat) :
    sendNodeInLoop nodeClass taken s = .ok s := by
  cases taken <;> exact if_neg (Int.not_lt.mpr h)

/-- The chunk after that is written whole. -/
theorem Chunks.round {k : Nat} (h : Chunks bytes length cap k s) (hlt : length < bytes.length)
    (hcap : cap = kMaxSendFileBufferSize) :
    ∃ s', sendRound nodeClass s cap = .ok (s', true) ∧
      (Chunks bytes length cap (k + 1) s' ∨ length ≤ (k + 1) * cap ∧
        s'.node.remainingBytes = 0 ∧
        s'.sent.length = min ((k + 1) * cap) bytes.length) := by
  have hk := h.lt_length
  have hmul : (k + 1) * cap
      = k * cap + cap := Nat.succ_mul _ _
  have hmax : cap + kBufferOffset ≤ vectorMaxSize := by
    rw [hcap]
    decide
  have hroom : kBufferOffset ≤ cap := by
    rw [hcap]
    decide
  have hone : 0 < cap := Nat.lt_of_lt_of_le (by decide) hroom
  have hrest : bytes.drop (k * cap) ≠ [] := by
    rw [ne_eq, List.drop_eq_nil_iff]
    omega
  have hchunk : s.node.chunkSize ≤ cap := hcap ▸ Nat.min_le_left _ _
  obtain ⟨b, hchunked, hcontents, hdata⟩ := getData_of_empty h.buffer hmax h.sendFd h.buffered
    (by rw [h.left]; omega) hchunk hone hrest
  have hlen : b.contents.length
      = min cap (bytes.length - k * cap) := by
    rw [hcontents, List.length_take, List.length_drop]
  have hpos : 0 < b.contents.length := by
    rw [hlen]
    omega
  have hmin : min cap b.contents.length = b.contents.length := by
    omega
  -- the round sends a whole chunk, whatever is left of the range
  have hround : sendRound nodeClass s cap = .ok
      (⟨BufferedFileNode.retrieve { s.node with
          msgBufferPtr := some b
          sendFd := some ((bytes.drop (k * cap)).drop cap) }
          b.contents.length, s.sent ++ b.contents⟩, true) := by
    rw [sendRound, show nodeClass.getData s.node = _ from hdata, ok_bind]
    dsimp only
    rw [if_neg (Nat.ne_of_gt hpos), hmin, List.take_length]
    simp [nodeClass]
  refine ⟨_, hround, ?_⟩
  have hsent : (s.sent ++ b.contents).length
      = min ((k + 1) * cap) bytes.length := by
    rw [List.length_append, h.sent, hlen, hmul]
    omega
  by_cases hnext : (k + 1) * cap < length
  · -- the next chunk starts inside the range
    left
    obtain ⟨hretrieved, hempty⟩ := hchunked.retrieve (n := b.contents.length) fun _ => hroom
    refine ⟨h.isDone, hnext, ?_, by rw [hsent]; omega, hretrieved, ?_, ?_⟩
    · show (if s.node.fileBytesToSend - b.contents.length < 0 then 0
        else s.node.fileBytesToSend - b.contents.length) = _
      rw [h.left, hlen, if_neg (by omega)]
      omega
    · show (b.retrieve b.contents.length).contents = []
      rw [hempty, List.drop_length]
    · show some _ = some _
      rw [List.drop_drop, hmul]
  · -- this one went to the end of the range, or beyond it
    right
    refine ⟨Nat.not_lt.mp hnext, ?_, hsent⟩
    show (if s.node.isDone then 0 else if s.node.fileBytesToSend - b.contents.length < 0 then 0
        else s.node.fileBytesToSend - b.contents.length) = (0 : Int)
    rw [h.isDone, h.left, hlen]
    simp only [Bool.false_eq_true, if_false]
    split <;> omega

/-- Every chunk is written whole: the last one goes beyond the range. -/
theorem Chunks.overrun (hlt : length < bytes.length) (hcap : cap = kMaxSendFileBufferSize)
    (hndvd : ¬ cap ∣ length) {m k : Nat} (h : Chunks bytes length cap k s)
    (hm : length ≤ (k + m) * cap) :
    ∃ s', sendNodeInLoop nodeClass (List.replicate m cap) s = .ok s' ∧
      s'.node.remainingBytes = 0 ∧ length < s'.sent.length := by
  induction m generalizing k s with
  | zero =>
    have hk := h.lt_length
    rw [Nat.add_zero] at hm
    omega
  | succ m ih =>
    obtain ⟨s', hround, hnext⟩ := h.round hlt hcap
    have hpos : nodeClass.remainingBytes s.node > 0 := by
      show (if s.node.isDone then 0 else s.node.fileBytesToSend) > (0 : Int)
      have hk := h.lt_length
      rw [h.isDone, h.left]
      simp only [Bool.false_eq_true, if_false]
      omega
    rw [List.replicate_succ, sendNodeInLoop, if_pos hpos, hround, ok_bind]
    dsimp only
    rw [if_pos rfl]
    rcases hnext with hchunks | ⟨hend, hzero, hsent⟩
    · exact ih hchunks (by rw [Nat.add_assoc, Nat.add_comm 1 m]; exact hm)
    · refine ⟨s', sendNodeInLoop_of_none (Int.le_of_eq hzero) _, hzero, ?_⟩
      -- the range does not end with a chunk
      have hne : length ≠ (k + 1) * cap := fun heq =>
        hndvd ⟨k + 1, by rw [heq, Nat.mul_comm]⟩
      rw [hsent]
      omega

end BufferedFileNode

/-! ## Both paths -/

namespace TcpConnectionImpl

/-- The connection sends the node, call by call. -/
def sendCalls (id : NodeId) (c : TcpConnectionImpl) (rs : List SysRet) : TcpConnectionImpl :=
  (c.sendNodeInLoop rs id).1

/-- What holds while `sendfile(2)` sends the range; `start` is what was sent before. -/
structure SendsRange (bytes : List Byte) (length : Nat) (id : NodeId) (start : List Byte)
    (c : TcpConnectionImpl) : Prop where
  state : ∃ f sent rest, c.nodes id = .file f ∧ c.socket.output = start ++ sent ∧
    f.isDone = false ∧ f.sendFd = some rest ∧ sent ++ rest = bytes ∧
    sent.length ≤ length ∧ f.fileBytesToSend = (length - sent.length : Nat)

theorem sendsRange_step {bytes : List Byte} {length : Nat} {id : NodeId} {start : List Byte}
    (c : TcpConnectionImpl) (rs : List SysRet) (h : SendsRange bytes length id start c) :
    SendsRange bytes length id start (sendCalls id c rs) := by
  obtain ⟨f, sent, rest, hnode, hout, hdone, hfd, hfile, hle, hleft⟩ := h.state
  have hrem : f.remainingBytes = (length - sent.length : Nat) := by
    rw [FileBufferNode.remainingBytes, hdone, hleft]
    rfl
  rw [sendCalls, sendNodeInLoop, hnode]
  dsimp only
  by_cases hpos : f.remainingBytes > 0
  · rcases sendFileNode_cases (c := c) (rs.headD .again) id hpos with
      heq | ⟨taken, n, heq, hpart, hlen⟩
    · rw [heq]
      exact ⟨f, sent, rest, hnode, hout, hdone, hfd, hfile, hle, hleft⟩
    · rw [heq]
      rw [hfd, Option.getD_some] at hpart
      obtain ⟨later, hrest⟩ := hpart
      have houtput : (c.fileSent (rs.headD .again) id f taken).socket.output
          = c.socket.output ++ taken := output_fileSent (rs.headD .again) f taken
      by_cases hnil : taken = []
      · -- the socket took nothing
        refine ⟨f, sent, rest, ?_, ?_, hdone, hfd, hfile, hle, hleft⟩
        · rw [fileSent, if_pos hnil]
          exact hnode
        · rw [houtput, hnil, List.append_nil, hout]
      · -- it took some, and the offset of the file moved with it
        refine ⟨f.retrieve taken.length, sent ++ taken, later, ?_, ?_, hdone, ?_, ?_, ?_, ?_⟩
        · rw [fileSent, if_neg hnil]
          exact nodes_setNode_self _ _
        · rw [houtput, hout, List.append_assoc]
        · show f.sendFd.map (·.drop taken.length) = some later
          rw [hfd, ← hrest, Option.map_some, List.drop_left]
        · rw [List.append_assoc, hrest, hfile]
        · rw [List.length_append]
          omega
        · show (if f.fileBytesToSend - taken.length < 0 then 0
            else f.fileBytesToSend - taken.length) = _
          rw [hleft, List.length_append, if_neg (by omega)]
          omega
  · have hnone : (c.sendFileNode (rs.headD .again) id f).1 = c := by
      rw [sendFileNode]
      dsimp only
      rw [if_pos (Int.not_lt.mp hpos)]
    rw [hnone]
    exact h

end TcpConnectionImpl

/-- On the `sendfile(2)` path: on any connection, whatever the calls take. -/
def SendfileDelivers (f : FileBufferNode) (range : List Byte) : Prop :=
  ∀ (c : TcpConnectionImpl) (id : NodeId) (rss : List (List SysRet)), c.nodes id = .file f →
    ∃ sent, (Runs.run (TcpConnectionImpl.sendCalls id) c rss).socket.output
      = c.socket.output ++ sent ∧
        Delivers range sent ((Runs.run (TcpConnectionImpl.sendCalls id) c rss).remainingBytes id)

/-- On the path through the buffer: whatever the writes take. -/
def BufferDelivers (f : FileBufferNode) (range : List Byte) : Prop :=
  ∀ calls : List (List Nat), ∃ s,
    sendNodeCalls BufferedFileNode.nodeClass calls ⟨⟨f, none⟩, []⟩ = .ok s ∧
      Delivers range s.sent s.node.remainingBytes

theorem sendfileDelivers {bytes : List Byte} {length : Nat} (hle : length ≤ bytes.length) :
    SendfileDelivers ⟨false, some bytes, length⟩ (bytes.take length) := by
  intro c id rss hnode
  have hstart : c.SendsRange bytes length id c.socket.output :=
    ⟨_, [], bytes, hnode, (List.append_nil _).symm, rfl, rfl, rfl, Nat.zero_le _, rfl⟩
  obtain ⟨f, sent, rest, hnode', hout, hdone, -, hfile, hsent, hleft⟩ :=
    (Runs.always_of_step TcpConnectionImpl.sendsRange_step hstart rss).last.state
  refine ⟨sent, hout, ?_⟩
  rw [TcpConnectionImpl.remainingBytes, hnode']
  have hrem : BufferNode.remainingBytes (.file f) = (length - sent.length : Nat) := by
    show (if f.isDone then 0 else f.fileBytesToSend) = _
    rw [hdone, hleft]
    rfl
  rw [hrem]
  constructor
  · intro hzero
    have hlen : sent.length = length := by omega
    rw [← hfile, ← hlen, List.take_left]
  · intro _
    rw [List.length_take, Nat.min_eq_left hle]
    omega

theorem bufferDelivers_iff {bytes : List Byte} {length : Nat} (hpos : 0 < length)
    (hle : length ≤ bytes.length) (hsize : length < sizeMod) :
    BufferDelivers ⟨false, some bytes, length⟩ (bytes.take length) ↔
      length ≤ kMaxSendFileBufferSize ∨ kMaxSendFileBufferSize ∣ length ∨
        length = bytes.length := by
  constructor
  · -- a length that is neither: the last chunk goes beyond the range
    intro h
    by_contra hcond
    rw [not_or, not_or] at hcond
    obtain ⟨hbig, hndvd, hinside⟩ := hcond
    have hchunks : BufferedFileNode.Chunks bytes length kMaxSendFileBufferSize 0
        ⟨⟨⟨false, some bytes, length⟩, none⟩, []⟩ := by
      refine ⟨rfl, by omega, by simp, by simp, ?_, rfl, by simp⟩
      show min kMaxSendFileBufferSize (intToSize (length : Int)) = _
      rw [intToSize_natCast hsize]
      omega
    have hm : length ≤ (0 + length) * kMaxSendFileBufferSize := by
      rw [Nat.zero_add]
      exact Nat.le_mul_of_pos_right _ (by decide)
    obtain ⟨s, hcall, hzero, hover⟩ := hchunks.overrun (by omega) rfl hndvd hm
    obtain ⟨s', hcalls, hdelivers⟩ := h [List.replicate length kMaxSendFileBufferSize]
    rw [sendNodeCalls, List.foldlM_cons, hcall, ok_bind, List.foldlM_nil] at hcalls
    obtain rfl := Except.ok.inj hcalls
    have hlen := congrArg List.length (hdelivers.ended hzero)
    rw [List.length_take] at hlen
    omega
  · -- the chunks end where the range or the file ends
    intro hcond calls
    have hcap : BufferedFileNode.capacity length ∣ length ∨ length = bytes.length := by
      unfold BufferedFileNode.capacity
      rcases hcond with hsmall | hdvd | hall
      · rw [Nat.min_eq_right hsmall]
        exact .inl (Nat.dvd_refl _)
      · rw [Nat.min_eq_left (Nat.le_of_dvd hpos hdvd)]
        exact .inl hdvd
      · exact .inr hall
    have hstart : BufferedFileNode.Within bytes length
        ⟨⟨⟨false, some bytes, length⟩, none⟩, []⟩ := by
      refine ⟨rfl, Nat.zero_le _, rfl, List.nil_prefix, fun _ => ⟨?_, bytes, rfl, ?_⟩⟩
      · exact BufferedFileNode.chunkSize_eq rfl hsize
      · exact ⟨rfl, Nat.zero_le _, fun _ => Nat.dvd_zero _⟩
    obtain ⟨s, hcalls, hwithin⟩ :=
      sendNodeCalls_rule (BufferedFileNode.within_round hle hsize hcap) calls hstart
    exact ⟨s, hcalls, hwithin.delivers hle⟩

/-- The node of an accepted range with bytes to send. -/
theorem FileBufferNode.new_eq {bytes : List Byte} {offset length : Int}
    (hfd : (FileBufferNode.new (some bytes) offset length).sendFd.isSome)
    (hpos : 0 < (FileBufferNode.new (some bytes) offset length).remainingBytes) :
    ∃ n : Nat, 0 < n ∧ offset.toNat + n ≤ bytes.length ∧
      FileBufferNode.new (some bytes) offset length
        = ⟨false, some (bytes.drop offset.toNat), n⟩ := by
  unfold FileBufferNode.new at hfd hpos ⊢
  by_cases hoffset : offset < 0
  · simp [hoffset] at hfd
  · rw [if_neg hoffset] at hfd hpos ⊢
    dsimp only at hfd hpos ⊢
    -- a length of 0 stands for all from the offset on
    by_cases hlength : length = 0
    · rw [if_pos hlength] at hfd hpos ⊢
      by_cases hbig : offset > bytes.length
      · simp [hbig] at hfd
      · rw [if_neg hbig] at hpos ⊢
        simp [FileBufferNode.remainingBytes] at hpos
        refine ⟨bytes.length - offset.toNat, by omega, by omega, ?_⟩
        congr 1
        omega
    · rw [if_neg hlength] at hfd hpos ⊢
      by_cases hbig : length > bytes.length - offset
      · simp [hbig] at hfd
      · rw [if_neg hbig] at hpos ⊢
        simp [FileBufferNode.remainingBytes] at hpos
        refine ⟨length.toNat, by omega, by omega, ?_⟩
        congr 1
        omega

/-- **A range of a file**: for every file, offset and length that the constructor accepts with
bytes to send, both paths send exactly the range, whatever their writes take, exactly when it has
at most 16 KiB or a multiple of it, or ends at the end of the file. -/
theorem paths_deliver_iff (bytes : List Byte) (offset length : Int)
    (hsize : bytes.length < 2 ^ 63)
    (hfd : (FileBufferNode.new (some bytes) offset length).sendFd.isSome)
    (hpos : 0 < (FileBufferNode.new (some bytes) offset length).remainingBytes) :
    let f := FileBufferNode.new (some bytes) offset length
    let n := f.remainingBytes.toNat
    let range := (bytes.drop offset.toNat).take n
    SendfileDelivers f range ∧ BufferDelivers f range ↔
      n ≤ kMaxSendFileBufferSize ∨ kMaxSendFileBufferSize ∣ n ∨
        offset.toNat + n = bytes.length := by
  obtain ⟨n, hn, hle, heq⟩ := FileBufferNode.new_eq hfd hpos
  rw [heq]
  have hrem : (FileBufferNode.remainingBytes
      ⟨false, some (bytes.drop offset.toNat), n⟩).toNat = n := rfl
  dsimp only
  rw [hrem]
  have hrest : n ≤ (bytes.drop offset.toNat).length := by
    rw [List.length_drop]
    omega
  have hmod : n < sizeMod := by
    have : 2 ^ 63 < sizeMod := by decide
    omega
  rw [and_iff_right (sendfileDelivers hrest), bufferDelivers_iff hn hrest hmod, List.length_drop]
  have hend : n = bytes.length - offset.toNat ↔ offset.toNat + n = bytes.length := by omega
  rw [hend]

/-- Two bytes of three. -/
theorem paths_deliver_part :
    SendfileDelivers (.new (some [1, 2, 3]) 0 2) [1, 2] ∧
      BufferDelivers (.new (some [1, 2, 3]) 0 2) [1, 2] :=
  (paths_deliver_iff [1, 2, 3] 0 2 (by decide) (by decide) (by decide)).mpr (.inl (by decide))

/-- The first 16385 bytes of a file of 16386. -/
theorem not_bufferDelivers_inside :
    ¬ BufferDelivers (.new (some (List.replicate 16386 0)) 0 16385)
      ((List.replicate 16386 0).take 16385) := by
  have hlen : (List.replicate 16386 (0 : Byte)).length = 16386 := List.length_replicate
  have hnode : FileBufferNode.new (some (List.replicate 16386 0)) 0 16385
      = ⟨false, some (List.replicate 16386 0), (16385 : Nat)⟩ := by
    simp only [FileBufferNode.new, hlen]
    rfl
  rw [hnode, bufferDelivers_iff (by decide) (by rw [hlen]; decide) (by decide), hlen]
  decide

end XiaoNet
