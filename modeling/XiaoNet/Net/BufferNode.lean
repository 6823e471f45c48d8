import Mathlib.Data.List.Basic
import XiaoNet.Utils.MsgBuffer

/-!
# `BufferNode`

The nodes of a connection's write list, `net/inner/BufferNode.h` and the four
files that implement it. A `MsgBuffer` inside a node is the list of its readable
bytes, an unbounded queue, and the bytes of an open file are those from the descriptor's
offset on.

`getData`, `append` and a stream's callback only exist for the nodes in memory:
on Linux and without TLS a file node is sent with `sendfile(2)`.
-/

namespace XiaoNet

structure FileBufferNode where
  isDone : Bool
  /-- The bytes from the offset of `sendFd_` to the end of the file; `none` for -1. -/
  sendFd : Option (List Byte)
  fileBytesToSend : Int
  deriving DecidableEq, Repr

/-- A node whose bytes are in memory: `MemBufferNode`, `StreamBufferNode` and
`AsyncBufferNode`. Whatever size its `MsgBuffer` was made with, appending to it always works. -/
inductive DataNode where
  | mem (isDone : Bool) (buffer : List Byte)
  /-- `streamCallback k` is what the callback writes at its call number `k`. -/
  | stream (isDone : Bool) (streamCallback : Nat → List Byte) (calls : Nat)
      (msgBuffer : List Byte)
  | async (isDone : Bool) (msgBufferPtr : Option (List Byte))

inductive BufferNode where
  | file (node : FileBufferNode)
  | data (node : DataNode)

/-- `FileBufferNode::FileBufferNode`; `file` is `none` when `open` or `stat` fails. The branch of a
negative offset is that of a build without `assert`. -/
def FileBufferNode.new (file : Option (List Byte)) (offset length : Int) : FileBufferNode :=
  if offset < 0 then ⟨true, none, 0⟩
  else
    match file with
    | none => ⟨true, none, 0⟩
    | some bytes =>
      if length = 0 then
        if offset > bytes.length then ⟨true, none, 0⟩
        else ⟨false, some (bytes.drop offset.toNat), bytes.length - offset⟩
      else if length > bytes.length - offset then ⟨true, none, 0⟩
      else ⟨false, some (bytes.drop offset.toNat), length⟩

namespace FileBufferNode

def remainingBytes (f : FileBufferNode) : Int := if f.isDone then 0 else f.fileBytesToSend

/-- `retrieve`, once the kernel has moved the offset over the same bytes. -/
def retrieve (f : FileBufferNode) (len : Nat) : FileBufferNode :=
  { f with
    sendFd := f.sendFd.map (·.drop len)
    fileBytesToSend := if f.fileBytesToSend - len < 0 then 0 else f.fileBytesToSend - len }

end FileBufferNode

namespace DataNode

def newMemBufferNode : DataNode := .mem false []

def newStreamBufferNode (callback : Nat → List Byte) : DataNode := .stream false callback 0 []

def newAsyncStreamBufferNode : DataNode := .async false none

def isStream : DataNode → Bool
  | .mem _ _ => false
  | .stream _ _ _ _ => true
  | .async _ _ => true

def isAsync : DataNode → Bool
  | .async _ _ => true
  | _ => false

def available : DataNode → Bool
  | .async isDone _ => !isDone
  | _ => true

def done : DataNode → DataNode
  | .mem _ buffer => .mem true buffer
  | .stream _ callback calls buffer => .stream true callback calls buffer
  | .async _ buffer => .async true buffer

def remainingBytes : DataNode → Int
  | .mem isDone buffer => if isDone then 0 else buffer.length
  | .stream isDone _ _ _ => if isDone then 0 else 1
  | .async _ msgBufferPtr => (msgBufferPtr.getD []).length

/-- `getData`: the bytes, and the node it leaves. -/
def getData : DataNode → List Byte × DataNode
  | .mem isDone buffer => (buffer, .mem isDone buffer)
  | .stream isDone callback calls [] =>
    match callback calls with
    | [] => ([], .stream true callback (calls + 1) [])
    | b :: bs => (b :: bs, .stream isDone callback (calls + 1) (b :: bs))
  | .stream isDone callback calls (b :: bs) => (b :: bs, .stream isDone callback calls (b :: bs))
  | .async isDone msgBufferPtr => (msgBufferPtr.getD [], .async isDone msgBufferPtr)

def retrieve (len : Nat) : DataNode → DataNode
  | .mem isDone buffer => .mem isDone (buffer.drop len)
  | .stream isDone callback calls buffer => .stream isDone callback calls (buffer.drop len)
  | .async isDone msgBufferPtr => .async isDone (msgBufferPtr.map (·.drop len))

/-- `append`; a stream node has none. -/
def append (data : List Byte) : DataNode → DataNode
  | .mem isDone buffer => .mem isDone (buffer ++ data)
  | .stream isDone callback calls buffer => .stream isDone callback calls buffer
  | .async isDone msgBufferPtr => .async isDone (some (msgBufferPtr.getD [] ++ data))

end DataNode

namespace BufferNode

def isFile : BufferNode → Bool
  | .file _ => true
  | .data _ => false

def isStream : BufferNode → Bool
  | .file _ => false
  | .data d => d.isStream

def isAsync : BufferNode → Bool
  | .file _ => false
  | .data d => d.isAsync

def available : BufferNode → Bool
  | .file f => f.sendFd.isSome
  | .data d => d.available

def done : BufferNode → BufferNode
  | .file f => .file { f with isDone := true }
  | .data d => .data d.done

def remainingBytes : BufferNode → Int
  | .file f => f.remainingBytes
  | .data d => d.remainingBytes

/-- `append`; a file node has none. -/
def append (data : List Byte) : BufferNode → BufferNode
  | .file f => .file f
  | .data d => .data (d.append data)

end BufferNode

end XiaoNet
