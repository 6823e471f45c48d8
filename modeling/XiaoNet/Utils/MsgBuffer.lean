import XiaoNet.Lib.Block
import XiaoNet.Utils.SizeT

/-!
# `MsgBuffer`

The byte buffer of `utils/MsgBuffer.{h,cpp}`: a vector `buffer`, the readable
range `[head, tail)` and `initCap`, the capacity `retrieveAll` shrinks back to.
Every index is a `size_t` and every sum and difference wraps as it does there.

A `memcpy`, `std::copy` or `readv` goes through `load` and `store`, which check
that the range lies inside the block it touches; an access outside ends the
operation with `Fault.outOfBounds`. `std::copy` on overlapping ranges behaves as
`memmove`. A vector of more than `PTRDIFF_MAX` bytes ends the operation with
`Fault.lengthError`, a failed `assert` with `Fault.assertion`.
-/

namespace XiaoNet

abbrev Byte := UInt8

/-- What stops an operation. -/
inductive Fault where
  | outOfBounds
  | lengthError
  | assertion
  | callDepth
  deriving DecidableEq, Repr

@[simp] theorem ok_bind {α β : Type} (a : α) (f : α → Except Fault β) :
    (Except.ok a >>= f) = f a := rfl

theorem error_bind_ne {α β : Type} (e : Fault) (f : α → Except Fault β) (r : β) :
    (Except.error e >>= f) ≠ .ok r := by
  intro h
  cases h

/-- A computation that returns ran through. -/
theorem bind_eq_ok {α β : Type} {x : Except Fault α} {f : α → Except Fault β} {r : β}
    (h : (x >>= f) = .ok r) : ∃ a, x = .ok a ∧ f a = .ok r := by
  cases x with
  | error e => cases h
  | ok a => exact ⟨a, rfl, h⟩

/-- Read `n` bytes of a block from position `i` on. -/
def load (block : List Byte) (i n : Nat) : Except Fault (List Byte) :=
  if i + n ≤ block.length then .ok (Block.slice block i n) else .error .outOfBounds

/-- Overwrite a block from position `i` on. -/
def store (block : List Byte) (i : Nat) (src : List Byte) : Except Fault (List Byte) :=
  if i + src.length ≤ block.length then .ok (Block.splice block i src)
  else .error .outOfBounds

theorem load_eq {block : List Byte} {i n : Nat} (h : i + n ≤ block.length) :
    load block i n = .ok (Block.slice block i n) := if_pos h

theorem store_eq {block : List Byte} {i : Nat} {src : List Byte}
    (h : i + src.length ≤ block.length) :
    store block i src = .ok (Block.splice block i src) := if_pos h

theorem length_of_load {block bytes : List Byte} {i n : Nat} (h : load block i n = .ok bytes) :
    bytes.length = n := by
  by_cases hin : i + n ≤ block.length
  · rw [load_eq hin] at h
    cases h
    exact Block.length_slice hin
  · rw [load, if_neg hin] at h
    cases h

/-- A store that succeeds is inside the block. -/
theorem le_of_store {block buffer : List Byte} {i : Nat} {src : List Byte}
    (h : store block i src = .ok buffer) : i + src.length ≤ block.length := by
  by_contra hin
  rw [store, if_neg hin] at h
  cases h

/-- A block keeps its length. -/
theorem length_of_store {block buffer : List Byte} {i : Nat} {src : List Byte}
    (h : store block i src = .ok buffer) : buffer.length = block.length := by
  by_cases hin : i + src.length ≤ block.length
  · rw [store_eq hin] at h
    cases h
    exact Block.length_splice hin
  · rw [store, if_neg hin] at h
    cases h

def kBufferOffset : Nat := 8

def kBufferDefaultLength : Nat := 2048

/-- `std::vector<char>::max_size()`. -/
def vectorMaxSize : Nat := 2 ^ 63 - 1

structure MsgBuffer where
  head : Nat
  initCap : Nat
  buffer : List Byte
  tail : Nat
  deriving DecidableEq, Repr

namespace MsgBuffer

/-- `MsgBuffer::MsgBuffer(len)`: `buffer_(len + head_)`. -/
def new (len : Nat) : Except Fault MsgBuffer :=
  let size := addSize len kBufferOffset
  if size ≤ vectorMaxSize then
    .ok ⟨kBufferOffset, len, List.replicate size 0, kBufferOffset⟩
  else .error .lengthError

def readableBytes (b : MsgBuffer) : Nat := subSize b.tail b.head

def writableBytes (b : MsgBuffer) : Nat := subSize b.buffer.length b.tail

/-- `ensureWritableBytes`, with a bound on the depth of the calls it makes of
itself through `newbuffer.append(*this)`; `swap(newbuffer)` is the last step. -/
def ensureWritableBytesAux : Nat → MsgBuffer → Nat → Except Fault MsgBuffer
  | 0, _, _ => .error .callDepth
  | depth + 1, b, len =>
    if b.writableBytes > len then .ok b
    else if addSize b.head b.writableBytes ≥ addSize len kBufferOffset then do
      -- move readable bytes
      let bytes ← load b.buffer b.head b.readableBytes
      let buffer ← store b.buffer kBufferOffset bytes
      .ok { b with
        buffer := buffer
        tail := addSize kBufferOffset (subSize b.tail b.head)
        head := kBufferOffset }
    else do
      -- create new buffer
      let needed := addSize (addSize kBufferOffset b.readableBytes) len
      let doubled := mulSize b.buffer.length 2
      let newbuffer ← new (if doubled > needed then doubled else needed)
      let newbuffer ← ensureWritableBytesAux depth newbuffer b.readableBytes
      let bytes ← load b.buffer b.head b.readableBytes
      let buffer ← store newbuffer.buffer newbuffer.tail bytes
      .ok { newbuffer with
        buffer := buffer
        tail := addSize newbuffer.tail b.readableBytes }

/-- `MsgBuffer::ensureWritableBytes(len)`. -/
def ensureWritableBytes (b : MsgBuffer) (len : Nat) : Except Fault MsgBuffer :=
  ensureWritableBytesAux 4 b len

/-- `MsgBuffer::append(const char *buf, size_t len)`. -/
def append (b : MsgBuffer) (buf : List Byte) : Except Fault MsgBuffer := do
  let b ← b.ensureWritableBytes buf.length
  let buffer ← store b.buffer b.tail buf
  .ok { b with buffer := buffer, tail := addSize b.tail buf.length }

/-- `MsgBuffer::append(const MsgBuffer &buf)` for another buffer. -/
def appendBuffer (b buf : MsgBuffer) : Except Fault MsgBuffer := do
  let b ← b.ensureWritableBytes buf.readableBytes
  let bytes ← load buf.buffer buf.head buf.readableBytes
  let buffer ← store b.buffer b.tail bytes
  .ok { b with buffer := buffer, tail := addSize b.tail buf.readableBytes }

/-- `MsgBuffer::append(const MsgBuffer &buf)` for the buffer itself: `buf` is
read after the buffer has made room. -/
def appendSelf (b : MsgBuffer) : Except Fault MsgBuffer := do
  let b ← b.ensureWritableBytes b.readableBytes
  let bytes ← load b.buffer b.head b.readableBytes
  let buffer ← store b.buffer b.tail bytes
  .ok { b with buffer := buffer, tail := addSize b.tail b.readableBytes }

/-- `MsgBuffer::retrieveAll()`. -/
def retrieveAll (b : MsgBuffer) : MsgBuffer :=
  let buffer :=
    if b.buffer.length > mulSize b.initCap 2 then b.buffer.take b.initCap else b.buffer
  { b with buffer := buffer, tail := kBufferOffset, head := kBufferOffset }

/-- `MsgBuffer::retrieve(len)`. -/
def retrieve (b : MsgBuffer) (len : Nat) : MsgBuffer :=
  if len ≥ b.readableBytes then b.retrieveAll
  else { b with head := addSize b.head len }

/-- `MsgBuffer::retrieveUntil(end)`, for the position `pos` of `end` in the block. -/
def retrieveUntil (b : MsgBuffer) (pos : Nat) : Except Fault MsgBuffer :=
  if b.head ≤ pos ∧ pos ≤ b.tail then .ok (b.retrieve (subSize pos b.head))
  else .error .assertion

/-- `MsgBuffer::read(len)`: the bytes read and the buffer left. -/
def read (b : MsgBuffer) (len : Nat) : Except Fault (List Byte × MsgBuffer) := do
  let len := if len > b.readableBytes then b.readableBytes else len
  let ret ← load b.buffer b.head len
  .ok (ret, b.retrieve len)

/-- `MsgBuffer::hasWritten(len)` once the caller has put the `len` bytes of
`data` at `beginWrite()`. -/
def hasWritten (b : MsgBuffer) (data : List Byte) : Except Fault MsgBuffer :=
  if data.length ≤ b.writableBytes then do
    let buffer ← store b.buffer b.tail data
    .ok { b with buffer := buffer, tail := addSize b.tail data.length }
  else .error .assertion

/-- `MsgBuffer::unwrite(offset)`. -/
def unwrite (b : MsgBuffer) (offset : Nat) : Except Fault MsgBuffer :=
  if b.readableBytes ≥ offset then .ok { b with tail := subSize b.tail offset }
  else .error .assertion

/-- `MsgBuffer::addInFront(buf, len)`. -/
def addInFront (b : MsgBuffer) (buf : List Byte) : Except Fault MsgBuffer :=
  if b.head ≥ buf.length then do
    let buffer ← store b.buffer (subSize b.head buf.length) buf
    .ok { b with buffer := buffer, head := subSize b.head buf.length }
  else if buf.length ≤ b.writableBytes then do
    let bytes ← load b.buffer b.head b.readableBytes
    let buffer ← store b.buffer (addSize b.head buf.length) bytes
    let buffer ← store buffer b.head buf
    .ok { b with buffer := buffer, tail := addSize b.tail buf.length }
  else do
    let needed := addSize buf.length b.readableBytes
    let newBuf ← new (if needed < b.initCap then b.initCap else needed)
    let newBuf ← newBuf.append buf
    newBuf.appendBuffer b

/-- Size of the stack buffer of `readFd`. -/
def extBufferSize : Nat := 8192

/-- `vec[0].iov_len`. -/
def iovLen (b : MsgBuffer) : Nat := intToSize (toInt32 b.writableBytes)

/-- What `readv` can take at most: one `iovec`, or two for a buffer with little room. -/
def readvCapacity (b : MsgBuffer) : Nat :=
  if b.writableBytes < extBufferSize then b.iovLen + extBufferSize else b.iovLen

/-- `MsgBuffer::readFd`: `data` is what `readv` delivers, `none` an error; the
result is the buffer and the value returned. -/
def readFd (b : MsgBuffer) (data : Option (List Byte)) : Except Fault (MsgBuffer × Int) :=
  match data with
  | none => .ok (b, -1)
  | some data => do
    let writable := b.writableBytes
    let buffer ← store b.buffer b.tail (data.take b.iovLen)
    let extBuffer ← store (List.replicate extBufferSize 0) 0 (data.drop b.iovLen)
    let b := { b with buffer := buffer }
    if data.length ≤ writable then
      .ok ({ b with tail := addSize b.tail data.length }, data.length)
    else do
      let rest ← load extBuffer 0 (subSize data.length writable)
      let b ← { b with tail := b.buffer.length }.append rest
      .ok (b, data.length)

end MsgBuffer

/-! ## Integers in network order -/

/-- The bytes of a 16-bit object, in the order the (little-endian) host stores them. -/
def memory16 (v : UInt16) : List Byte := [v.toUInt8, (v >>> 8).toUInt8]

/-- The bytes of a 32-bit object in memory. -/
def memory32 (v : UInt32) : List Byte :=
  [v.toUInt8, (v >>> 8).toUInt8, (v >>> 16).toUInt8, (v >>> 24).toUInt8]

/-- The bytes of a 64-bit object in memory. -/
def memory64 (v : UInt64) : List Byte :=
  [v.toUInt8, (v >>> 8).toUInt8, (v >>> 16).toUInt8, (v >>> 24).toUInt8,
    (v >>> 32).toUInt8, (v >>> 40).toUInt8, (v >>> 48).toUInt8, (v >>> 56).toUInt8]

/-- `htons`. -/
def htons (v : UInt16) : UInt16 := (v <<< 8) ||| (v >>> 8)

/-- `htonl`. -/
def htonl (v : UInt32) : UInt32 :=
  (v <<< 24) ||| ((v &&& (0xff00 : UInt32)) <<< 8) ||| ((v >>> 8) &&& (0xff00 : UInt32)) ||| (v >>> 24)

namespace MsgBuffer

/-- `hton64` comes from the logging library the project links. -/
structure ByteOrder where
  hton64 : UInt64 → UInt64

def appendInt8 (b : MsgBuffer) (v : UInt8) : Except Fault MsgBuffer := b.append [v]

def appendInt16 (b : MsgBuffer) (s : UInt16) : Except Fault MsgBuffer :=
  b.append (memory16 (htons s))

def appendInt32 (b : MsgBuffer) (i : UInt32) : Except Fault MsgBuffer :=
  b.append (memory32 (htonl i))

def appendInt64 (order : ByteOrder) (b : MsgBuffer) (l : UInt64) : Except Fault MsgBuffer :=
  b.append (memory64 (order.hton64 l))

def addInFrontInt8 (b : MsgBuffer) (v : UInt8) : Except Fault MsgBuffer := b.addInFront [v]

def addInFrontInt16 (b : MsgBuffer) (s : UInt16) : Except Fault MsgBuffer :=
  b.addInFront (memory16 (htons s))

def addInFrontInt32 (b : MsgBuffer) (i : UInt32) : Except Fault MsgBuffer :=
  b.addInFront (memory32 (htonl i))

def addInFrontInt64 (order : ByteOrder) (b : MsgBuffer) (l : UInt64) :
    Except Fault MsgBuffer :=
  b.addInFront (memory64 (order.hton64 l))

end MsgBuffer

end XiaoNet
