import XiaoNet.Net.SendFile
import XiaoNet.Net.SendNode
import XiaoNet.Utils.MsgBufferChunk

/-!
# `FileBufferNode`

What the constructor of `net/inner/FileBufferNodeUnix.cpp` accepts, and the node with its
`msgBufferPtr_`, as `sendNodeInLoop` uses it on a connection with TLS.

- `Announces`: a node that is available has bytes to send, all of them in the file.
- `announces_iff`: the arguments for which it does. The range of length 0 at the end of the file
  and a negative length get past the checks.
- `BufferedFileNode`: `getData` reads ahead into a `MsgBuffer`, with as much as it has room for;
  `fileBytesToSend_` only counts what is retrieved.

File offsets and lengths are `off_t` and `long long`; no sum or difference of the constructor
leaves their range.
-/

namespace XiaoNet

namespace FileBufferNode

/-- What `sendFile(BufferNodePtr &&)` asserts of a node that is available, and that the range
lies in the file. -/
def Announces (bytes : List Byte) (offset length : Int) : Prop :=
  (new (some bytes) offset length).sendFd.isSome →
    0 < (new (some bytes) offset length).remainingBytes ∧
      offset + (new (some bytes) offset length).remainingBytes ≤ bytes.length

/-- **Accepted ranges**: for every file, offset and length, the node that the constructor makes
satisfies the assertion of its sender exactly when the range is not the empty one at the end of
the file and the length is not negative, or so far below 0 that it is refused. -/
theorem announces_iff (bytes : List Byte) {offset : Int} (hoffset : 0 ≤ offset) (length : Int) :
    Announces bytes offset length ↔
      ¬ (length = 0 ∧ offset = bytes.length) ∧
        ¬ (length < 0 ∧ length ≤ bytes.length - offset) := by
  unfold Announces new remainingBytes
  rw [if_neg (Int.not_lt.mpr hoffset)]
  dsimp only
  by_cases hlength : length = 0
  · by_cases hbig : offset > bytes.length
    · simp [hlength, hbig]
      omega
    · simp [hlength, hbig]
      omega
  · by_cases hbig : length > bytes.length - offset
    · simp [hlength, hbig]
    · simp [hlength, hbig]
      omega

/-- A part of a file of three bytes. -/
theorem announces_part : Announces [1, 2, 3] 1 2 :=
  (announces_iff [1, 2, 3] (by decide) 2).mpr (by decide)

/-- The whole of an empty file: there is nothing to send, and the node is available. -/
theorem not_announces_empty : ¬ Announces [] 0 0 := by
  rintro h
  exact absurd (h rfl).1 (by decide)

end FileBufferNode

/-- The assertion at the start of `sendFile(BufferNodePtr &&)`. -/
theorem TcpConnectionImpl.sendFile_asserts {c : TcpConnectionImpl} (hc : c.failed = false)
    (inLoop : Bool) {file : FileBufferNode} (hfd : file.sendFd.isSome = true)
    (hnone : file.remainingBytes ≤ 0) (rs : List SysRet) :
    (c.step (.sendFile inLoop file, rs)).failed = true := by
  have hsome : file.sendFd.isNone = false := by simpa [Option.isSome_iff_ne_none] using hfd
  simp [TcpConnectionImpl.step, hc, hsome, Int.not_lt.mpr hnone, TcpConnectionImpl.assert]

/-! ## With its buffer -/

structure BufferedFileNode extends FileBufferNode where
  msgBufferPtr : Option MsgBuffer

namespace BufferedFileNode

def remainingBytes (f : BufferedFileNode) : Int := f.toFileBufferNode.remainingBytes

/-- `std::min(kMaxSendFileBufferSize, static_cast<size_t>(fileBytesToSend_))`. -/
def chunkSize (f : BufferedFileNode) : Nat :=
  min kMaxSendFileBufferSize (intToSize f.fileBytesToSend)

/-- The buffer, made when it is needed first. -/
def msgBuffer (f : BufferedFileNode) : Except Fault MsgBuffer :=
  match f.msgBufferPtr with
  | none => MsgBuffer.new f.chunkSize
  | some b => .ok b

/-- Fill the buffer when it is empty. `read(2)` gives as many bytes as it is asked for, up to
the end of the file. -/
def fill (f : BufferedFileNode) (b : MsgBuffer) : Except Fault (MsgBuffer × BufferedFileNode) :=
  match f.sendFd with
  | none => .ok (b, f)
  | some rest =>
    if b.readableBytes = 0 ∧ f.fileBytesToSend > 0 then do
      let b ← b.ensureWritableBytes f.chunkSize
      let n := min b.writableBytes rest.length
      let f := { f with sendFd := some (rest.drop n) }
      if n > 0 then do
        let b ← b.hasWritten (rest.take n)
        .ok (b, f)
      else .ok (b, f)
    else .ok (b, f)

def getData (f : BufferedFileNode) : Except Fault (List Byte × BufferedFileNode) := do
  let b ← f.msgBuffer
  let (b, f) ← f.fill b
  let data ← load b.buffer b.head b.readableBytes
  .ok (data, { f with msgBufferPtr := some b })

def retrieve (f : BufferedFileNode) (len : Nat) : BufferedFileNode :=
  { f with
    msgBufferPtr := f.msgBufferPtr.map (·.retrieve len)
    fileBytesToSend := if f.fileBytesToSend - len < 0 then 0 else f.fileBytesToSend - len }

def done (f : BufferedFileNode) : BufferedFileNode := { f with isDone := true }

def nodeClass : NodeClass BufferedFileNode := ⟨getData, retrieve, remainingBytes, done⟩

end BufferedFileNode

end XiaoNet
