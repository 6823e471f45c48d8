import Mathlib.Logic.Function.Basic
import XiaoNet.Lib.Runs
import XiaoNet.Net.BufferNode
import XiaoNet.Net.Channel
import XiaoNet.Net.Kickoff

/-!
# `TcpConnectionImpl`

A connection of `net/inner/TcpConnectionImpl.{h,cpp}` on Linux without TLS.

- Buffer nodes are shared objects: `nodes` is the heap they live in,
  `writeBufferList` holds their names, an `AsyncStream` keeps the name of its node.
- A system call takes its result from a list of `SysRet`; when the list is used up,
  the call would block.
- `Func` is a closure queued in the connection's loop, `Op` what happens to the
  connection in one loop callback or by a call from another thread.
- User callbacks are recorded in `calls`; what they do are further operations.
- A failed `assert` sets `failed` and ends the run.

`bytesSent` and `bytesReceived` do not wrap.
-/

namespace XiaoNet

inductive ConnStatus where
  | disconnected
  | connecting
  | connected
  | disconnecting
  deriving DecidableEq, Repr

inductive Errno where
  | success
  | EAGAIN
  | EPIPE
  | ECONNRESET
  | other
  deriving DecidableEq, Repr

/-- `isEAGAIN()`. -/
def isEAGAIN (errno : Errno) : Bool :=
  match errno with
  | .success | .EAGAIN => true
  | .EPIPE | .ECONNRESET | .other => false

/-- The result of a `write(2)` or `sendfile(2)`: how many bytes the kernel would
take (`none` for an error), `errno` after it, and the time read next. -/
structure SysRet where
  taken : Option Nat
  errno : Errno
  now : Nat
  deriving DecidableEq, Repr

/-- The socket buffer is full. -/
def SysRet.again : SysRet := ⟨none, .EAGAIN, 0⟩

/-- The most a `write(2)` or `sendfile(2)` transfers. -/
@[irreducible] def kMaxSendBytes : Nat := 0x7ffff000

structure Socket where
  /-- The bytes the kernel has accepted. -/
  output : List Byte
  /-- The `write(2)` and `sendfile(2)` calls issued. -/
  calls : Nat
  writeClosed : Bool
  deriving DecidableEq, Repr

namespace Socket

def write (s : Socket) (r : SysRet) (buffer : List Byte) : Socket × Int :=
  match r.taken with
  | some k =>
    let n := min k (min buffer.length kMaxSendBytes)
    ({ s with output := s.output ++ buffer.take n, calls := s.calls + 1 }, n)
  | none => ({ s with calls := s.calls + 1 }, -1)

/-- `file` is what the descriptor holds from its offset on. -/
def sendfile (s : Socket) (r : SysRet) (file : List Byte) (count : Nat) : Socket × Int :=
  match r.taken with
  | some k =>
    let n := min k (min file.length count)
    ({ s with output := s.output ++ file.take n, calls := s.calls + 1 }, n)
  | none => ({ s with calls := s.calls + 1 }, -1)

def closeWrite (s : Socket) : Socket := { s with writeClosed := true }

end Socket

abbrev NodeId := Nat

/-- A call of user code. -/
inductive UserCall where
  | connection
  | close
  | recvMsg (readable : List Byte)
  | highWaterMark (remaining : Int)
  deriving DecidableEq, Repr

/-- A closure queued in the loop of the connection. -/
inductive Func where
  | sendInLoop (msg : List Byte)
  | sendFile (node : NodeId)
  | sendStream (node : NodeId)
  | sendAsyncStream (node : NodeId) (disableKickoff : Bool)
  | sendAsyncData (node : NodeId) (data : Option (List Byte))
  | shutdown
  | forceClose
  | connectDestroyed
  deriving DecidableEq, Repr

structure TcpConnectionImpl where
  status : ConnStatus
  ioChannel : Channel
  socket : Socket
  readBuffer : List Byte
  nodes : NodeId → BufferNode
  nextNode : NodeId
  writeBufferList : List NodeId
  /-- The `AsyncStream` objects that still have their callback. -/
  streams : List NodeId
  closeOnEmpty : Bool
  bytesSent : Nat
  bytesReceived : Nat
  /-- `highWaterMarkLen_`, when there is a `highWaterMarkCallback_`. -/
  highWaterMark : Option Nat
  kickoff : Kickoff
  /-- The closures queued in the loop. -/
  funcs : List Func
  /-- Runs of `closeCallback_` for which the owner has yet to queue `connectDestroyed`. -/
  closing : Nat
  calls : List UserCall
  failed : Bool

namespace TcpConnectionImpl

/-- As constructed. -/
def new : TcpConnectionImpl where
  status := .connecting
  ioChannel := .new
  socket := ⟨[], 0, false⟩
  readBuffer := []
  nodes := fun _ => .data .newMemBufferNode
  nextNode := 0
  writeBufferList := []
  streams := []
  closeOnEmpty := false
  bytesSent := 0
  bytesReceived := 0
  highWaterMark := none
  kickoff := .new
  funcs := []
  closing := 0
  calls := []
  failed := false

/-- `assert(p)`. -/
def assert (c : TcpConnectionImpl) (p : Bool) : TcpConnectionImpl :=
  { c with failed := c.failed || !p }

/-- The closure `connectEstablished` runs in the loop. -/
def connectEstablished (c : TcpConnectionImpl) : TcpConnectionImpl :=
  let c := c.assert (c.status == .connecting)
  { c with
    ioChannel := c.ioChannel.enableReading
    status := .connected
    calls := c.calls ++ [.connection] }

/-- A connection of which `connectEstablished` has run, with what its owner sets. -/
def established (highWaterMark : Option Nat) (kickoff : Kickoff) : TcpConnectionImpl :=
  { new with highWaterMark := highWaterMark, kickoff := kickoff }.connectEstablished

def setNode (c : TcpConnectionImpl) (id : NodeId) (node : BufferNode) : TcpConnectionImpl :=
  { c with nodes := Function.update c.nodes id node }

/-- Make a node. -/
def newNode (c : TcpConnectionImpl) (node : BufferNode) : TcpConnectionImpl :=
  { c.setNode c.nextNode node with nextNode := c.nextNode + 1 }

def pushBack (c : TcpConnectionImpl) (id : NodeId) : TcpConnectionImpl :=
  { c with writeBufferList := c.writeBufferList ++ [id] }

def remainingBytes (c : TcpConnectionImpl) (id : NodeId) : Int := (c.nodes id).remainingBytes

def enableWriting (c : TcpConnectionImpl) : TcpConnectionImpl :=
  { c with ioChannel := c.ioChannel.enableWriting }

def extendLife (c : TcpConnectionImpl) (now : Nat) : TcpConnectionImpl :=
  { c with kickoff := c.kickoff.extendLife now }

/-! ## Writing to the socket -/

/-- `TcpConnectionImpl::writeRaw`. -/
def writeRaw (c : TcpConnectionImpl) (r : SysRet) (buffer : List Byte) :
    TcpConnectionImpl × Int :=
  let (socket, nWritten) := c.socket.write r buffer
  let c := { c with socket := socket }
  -- `!isEAGAIN` tests the address of the function: the branch after it is never taken
  let c := if nWritten > 0 then { c with bytesSent := c.bytesSent + nWritten.toNat } else c
  let nWritten := if nWritten < 0 then 0 else nWritten
  let c :=
    if nWritten < toInt32 buffer.length then
      if c.ioChannel.isWriting then c else { c with ioChannel := c.ioChannel.enableReading }
    else c
  (c.extendLife r.now, nWritten)

/-- `TcpConnectionImpl::writeInLoop`, without TLS. -/
def writeInLoop (c : TcpConnectionImpl) (r : SysRet) (buffer : List Byte) :
    TcpConnectionImpl × Int :=
  c.writeRaw r buffer

/-- `sendNodeInLoop` for a file node. -/
def sendFileNode (c : TcpConnectionImpl) (r : SysRet) (id : NodeId) (f : FileBufferNode) :
    TcpConnectionImpl × Int :=
  let toSend := f.remainingBytes
  if toSend ≤ 0 then (c, -1)
  else
    let count := if toSend < kMaxSendBytes then toSend.toNat else kMaxSendBytes
    let (socket, bytesSent) := c.socket.sendfile r (f.sendFd.getD []) count
    let c := { c with socket := socket }
    if ¬ bytesSent > 0 ∧ ¬ isEAGAIN r.errno then (c, -1)
    else
      let c :=
        if bytesSent > 0 then
          { c.setNode id (.file (f.retrieve bytesSent.toNat)) with
            bytesSent := c.bytesSent + bytesSent.toNat }
        else c
      let c := c.extendLife r.now
      let c :=
        if bytesSent < toSend then if c.ioChannel.isWriting then c else c.enableWriting
        else c
      (c, bytesSent)

/-- What one round of the loop of `sendNodeInLoop` leaves to do. -/
inductive Round where
  | stop (hasSent : Int)
  | next (hasSent : Int)

/-- One round of the loop of `sendNodeInLoop` for a node that is not a file. -/
def sendDataRound (c : TcpConnectionImpl) (r : SysRet) (id : NodeId) (d : DataNode)
    (hasSent : Int) : TcpConnectionImpl × Round :=
  let (data, d) := d.getData
  let c := c.setNode id (.data d)
  if data.length = 0 then (c.setNode id (.data d.done), .stop hasSent)
  else
    let (c, nWritten) := c.writeInLoop r data
    if nWritten ≥ 0 then
      let c := c.setNode id (.data (d.retrieve nWritten.toNat))
      if nWritten < data.length then (c, .stop (hasSent + nWritten))
      else (c, .next (hasSent + nWritten))
    else (c, .stop (-1))

/-- The loop of `sendNodeInLoop` for a node that is not a file: the connection, the
value returned and the results not used. A call that would block ends it. -/
def sendDataLoop (id : NodeId) :
    List SysRet → TcpConnectionImpl → Int → TcpConnectionImpl × Int × List SysRet
  | rs, c, hasSent =>
    match c.nodes id with
    | .file _ => (c, hasSent, rs)
    | .data d =>
      if d.remainingBytes > 0 then
        match rs with
        | [] =>
          match c.sendDataRound .again id d hasSent with
          | (c, .stop n) => (c, n, [])
          | (c, .next n) => (c, n, [])
        | r :: rs =>
          match c.sendDataRound r id d hasSent with
          | (c, .stop n) => (c, n, rs)
          | (c, .next n) => sendDataLoop id rs c n
      else (c, hasSent, rs)

/-- `TcpConnectionImpl::sendNodeInLoop`. -/
def sendNodeInLoop (c : TcpConnectionImpl) (rs : List SysRet) (id : NodeId) :
    TcpConnectionImpl × Int × List SysRet :=
  match c.nodes id with
  | .file f =>
    let (c, n) := c.sendFileNode (rs.headD .again) id f
    (c, n, rs.tail)
  | .data _ => sendDataLoop id rs c 0

/-! ## Sending -/

/-- The last node takes bytes that are sent after it. -/
def backIsMem (c : TcpConnectionImpl) : Bool :=
  match c.writeBufferList.getLast? with
  | none => false
  | some back => !((c.nodes back).isFile || (c.nodes back).isStream)

/-- `writeBufferList_.back()->append(..)`, with the high water mark. -/
def appendBack (c : TcpConnectionImpl) (data : List Byte) : TcpConnectionImpl :=
  match c.writeBufferList.getLast? with
  | none => c
  | some back =>
    let c := c.setNode back ((c.nodes back).append data)
    match c.highWaterMark with
    | some markLen =>
      if c.remainingBytes back > markLen then
        { c with calls := c.calls ++ [.highWaterMark (c.remainingBytes back)] }
      else c
    | none => c

/-- `TcpConnectionImpl::sendInLoop`. -/
def sendInLoop (c : TcpConnectionImpl) (rs : List SysRet) (buffer : List Byte) :
    TcpConnectionImpl :=
  if c.status ≠ .connected then c
  else
    let (c, sendLen) :=
      if !c.ioChannel.isWriting && c.writeBufferList.isEmpty then
        -- send directly
        c.writeInLoop (rs.headD .again) buffer
      else (c, 0)
    if sendLen < 0 then c
    else
      let rest := buffer.drop sendLen.toNat
      if rest.length > 0 ∧ c.status = .connected then
        let c :=
          if c.backIsMem then c
          else (c.newNode (.data .newMemBufferNode)).pushBack c.nextNode
        c.appendBack rest
      else c

/-- The body of `sendFile(BufferNodePtr &&)`, direct and queued. -/
def sendFileInLoop (c : TcpConnectionImpl) (rs : List SysRet) (id : NodeId) :
    TcpConnectionImpl :=
  if c.writeBufferList.isEmpty then
    let (c, n, _) := c.sendNodeInLoop rs id
    if c.remainingBytes id > 0 ∧ n ≥ 0 then c.pushBack id else c
  else c.pushBack id

/-- `sendStream` in the loop thread; with bytes waiting the node is dropped. -/
def sendStreamInLoop (c : TcpConnectionImpl) (rs : List SysRet) (id : NodeId) :
    TcpConnectionImpl :=
  if c.writeBufferList.isEmpty then
    let (c, n, _) := c.sendNodeInLoop rs id
    if c.remainingBytes id > 0 ∧ n ≥ 0 then c.pushBack id else c
  else c

/-- The closure `sendStream` queues. -/
def sendStreamQueued (c : TcpConnectionImpl) (rs : List SysRet) (id : NodeId) :
    TcpConnectionImpl :=
  if c.writeBufferList.isEmpty then
    let (c, n, _) := c.sendNodeInLoop rs id
    if c.remainingBytes id > 0 ∧ n ≥ 0 then c.pushBack id else c
  else c.pushBack id

def disableKickoff (c : TcpConnectionImpl) : TcpConnectionImpl :=
  { c with kickoff := c.kickoff.disableKickoff }

/-- `sendAsyncStream` in the loop thread. -/
def sendAsyncStreamInLoop (c : TcpConnectionImpl) (id : NodeId) (disableKickoff : Bool) :
    TcpConnectionImpl :=
  let c := if disableKickoff then c.disableKickoff else c
  c.pushBack id

/-- The closure `sendAsyncStream` queues. -/
def sendAsyncStreamQueued (c : TcpConnectionImpl) (rs : List SysRet) (id : NodeId)
    (disableKickoff : Bool) : TcpConnectionImpl :=
  let c := if disableKickoff then c.disableKickoff else c
  if c.writeBufferList.isEmpty ∧ c.remainingBytes id > 0 then
    let (c, n, _) := c.sendNodeInLoop rs id
    if n ≥ 0 ∧ (c.remainingBytes id > 0 ∨ (c.nodes id).available) then c.pushBack id else c
  else c.pushBack id

/-- `TcpConnectionImpl::sendAsyncDataInLoop`; `none` is the null pointer that closes
the stream. -/
def sendAsyncDataInLoop (c : TcpConnectionImpl) (rs : List SysRet) (id : NodeId) :
    Option (List Byte) → TcpConnectionImpl
  | some data =>
    if data.length > 0 then
      if c.writeBufferList.head? = some id ∧ c.remainingBytes id = 0 then
        let (c, nWritten) := c.writeInLoop (rs.headD .again) data
        if nWritten < 0 then c
        else if nWritten.toNat < data.length then
          c.setNode id ((c.nodes id).append (data.drop nWritten.toNat))
        else c
      else c.setNode id ((c.nodes id).append data)
    else c
  | none =>
    let c := c.setNode id (c.nodes id).done
    let c :=
      if c.writeBufferList.head? = some id ∧ !c.ioChannel.isWriting then c.enableWriting
      else c
    { c with kickoff := c.kickoff.restoreKickoff }

/-! ## Closing -/

/-- The closure `shutdown` runs in the loop. -/
def shutdownInLoop (c : TcpConnectionImpl) : TcpConnectionImpl :=
  if c.status = .connected then
    -- `closeOnEmpty_ - true;` has no effect
    if !c.writeBufferList.isEmpty then c
    else
      let c := { c with status := .disconnecting }
      if !c.ioChannel.isWriting then { c with socket := c.socket.closeWrite } else c
  else c

/-- `TcpConnectionImpl::handleClose`. -/
def handleClose (c : TcpConnectionImpl) : TcpConnectionImpl :=
  { c with
    status := .disconnected
    ioChannel := c.ioChannel.disableAll
    calls := c.calls ++ [.connection, .close]
    closing := c.closing + 1 }

/-- The closure `forceClose` runs in the loop. -/
def forceCloseInLoop (c : TcpConnectionImpl) : TcpConnectionImpl :=
  if c.status = .connected ∨ c.status = .disconnecting then
    handleClose { c with status := .disconnecting }
  else c

/-- `TcpConnectionImpl::connectDestroyed`. -/
def connectDestroyed (c : TcpConnectionImpl) : TcpConnectionImpl :=
  let c :=
    if c.status = .connected then
      { c with
        status := .disconnected
        ioChannel := c.ioChannel.disableAll
        calls := c.calls ++ [.connection] }
    else c
  c.assert c.ioChannel.removable

/-! ## Poll events -/

/-- What `readv` returns to `readCallback`. -/
inductive ReadRet where
  | bytes (data : List Byte)
  | error (errno : Errno)
  deriving DecidableEq, Repr

/-- `TcpConnectionImpl::readCallback`. -/
def readCallback (c : TcpConnectionImpl) (now : Nat) : ReadRet → TcpConnectionImpl
  | .bytes [] => c.handleClose.extendLife now
  | .bytes (b :: bs) =>
    let c := { c with readBuffer := c.readBuffer ++ (b :: bs) }.extendLife now
    { c with
      bytesReceived := c.bytesReceived + (b :: bs).length
      calls := c.calls ++ [.recvMsg c.readBuffer] }
  | .error .EPIPE | .error .ECONNRESET | .error .EAGAIN => c
  | .error .success | .error .other => c.handleClose

/-- The loop of `writeCallback`; the second component says that it ended with an
empty list. -/
def writeLoop : Nat → List SysRet → TcpConnectionImpl → TcpConnectionImpl × Bool
  | 0, _, c => (c, false)
  | fuel + 1, rs, c =>
    match c.writeBufferList with
    | [] => (c, true)
    | id :: rest =>
      if c.remainingBytes id = 0 then
        if !(c.nodes id).isAsync || !(c.nodes id).available then
          writeLoop fuel rs { c with writeBufferList := rest }
        else ({ c with ioChannel := c.ioChannel.disableWriting }, false)
      else
        let (c, n, rs) := c.sendNodeInLoop rs id
        if c.remainingBytes id > 0 ∨ n < 0 then (c, false) else writeLoop fuel rs c

/-- `TcpConnectionImpl::writeCallback`. Every node takes at most two rounds of the loop. -/
def writeCallback (c : TcpConnectionImpl) (rs : List SysRet) : TcpConnectionImpl :=
  if c.ioChannel.isWriting then
    let (c, emptied) := writeLoop (2 * c.writeBufferList.length + 1) rs c
    if emptied then
      let c := { c with ioChannel := c.ioChannel.disableWriting }
      if c.closeOnEmpty then c.shutdownInLoop else c
    else c
  else c

/-! ## Operations -/

/-- What happens to a connection. A call with `inLoop` is made in the loop thread,
another queues its closure. -/
inductive Op where
  | send (inLoop : Bool) (msg : List Byte)
  /-- `sendFile` once it has made the file node. -/
  | sendFile (inLoop : Bool) (file : FileBufferNode)
  | sendStream (inLoop : Bool) (callback : Nat → List Byte)
  | sendAsyncStream (inLoop : Bool) (disableKickoff : Bool)
  /-- `AsyncStream::send` on the stream with node `id`. -/
  | asyncSend (inLoop : Bool) (id : NodeId) (data : List Byte)
  /-- `AsyncStream::close`, or the destruction of an open stream. -/
  | asyncClose (inLoop : Bool) (id : NodeId)
  | shutdown (inLoop : Bool)
  | forceClose (inLoop : Bool)
  /-- The loop runs the next queued closure. -/
  | runFunc
  /-- The owner of the connection handles its `closeCallback_`. -/
  | queueDestroyed
  | readCallback (now : Nat) (ret : ReadRet)
  | writeCallback
  /-- The hang-up event. -/
  | closeCallback
  | keepAlive
  | enableKickingOff (timeout : Nat)
  /-- The timing wheel drops the last reference to an entry. -/
  | destroyEntry (i : Nat)

def queue (c : TcpConnectionImpl) (f : Func) : TcpConnectionImpl :=
  { c with funcs := c.funcs ++ [f] }

/-- Run a queued closure. -/
def call (c : TcpConnectionImpl) (rs : List SysRet) : Func → TcpConnectionImpl
  | .sendInLoop msg => c.sendInLoop rs msg
  | .sendFile id => c.sendFileInLoop rs id
  | .sendStream id => c.sendStreamQueued rs id
  | .sendAsyncStream id disableKickoff => c.sendAsyncStreamQueued rs id disableKickoff
  | .sendAsyncData id data => c.sendAsyncDataInLoop rs id data
  | .shutdown => c.shutdownInLoop
  | .forceClose => c.forceCloseInLoop
  | .connectDestroyed => c.connectDestroyed

/-- The callback of the stream with node `id`. -/
def streamCallback (c : TcpConnectionImpl) (rs : List SysRet) (inLoop : Bool) (id : NodeId)
    (data : Option (List Byte)) : TcpConnectionImpl :=
  if c.status ≠ .connected then c
  else if inLoop then c.sendAsyncDataInLoop rs id data
  else c.queue (.sendAsyncData id data)

/-- One operation; `rs` are the results of the system calls it makes. -/
def step (c : TcpConnectionImpl) : Op × List SysRet → TcpConnectionImpl
  | (op, rs) =>
    if c.failed then c
    else
      match op with
      | .send inLoop msg => if inLoop then c.sendInLoop rs msg else c.queue (.sendInLoop msg)
      | .sendFile inLoop file =>
        if file.sendFd.isNone then c
        else if file.remainingBytes > 0 then
          let id := c.nextNode
          let c := c.newNode (.file file)
          if inLoop then c.sendFileInLoop rs id else c.queue (.sendFile id)
        else c.assert false
      | .sendStream inLoop callback =>
        let id := c.nextNode
        let c := c.newNode (.data (.newStreamBufferNode callback))
        if inLoop then c.sendStreamInLoop rs id else c.queue (.sendStream id)
      | .sendAsyncStream inLoop disableKickoff =>
        let id := c.nextNode
        let c := c.newNode (.data .newAsyncStreamBufferNode)
        let c := { c with streams := c.streams ++ [id] }
        if inLoop then c.sendAsyncStreamInLoop id disableKickoff
        else c.queue (.sendAsyncStream id disableKickoff)
      | .asyncSend inLoop id data =>
        if id ∈ c.streams then c.streamCallback rs inLoop id (some data) else c
      | .asyncClose inLoop id =>
        if id ∈ c.streams then
          let c := c.streamCallback rs inLoop id none
          { c with streams := c.streams.filter (· ≠ id) }
        else c
      | .shutdown inLoop => if inLoop then c.shutdownInLoop else c.queue .shutdown
      | .forceClose inLoop => if inLoop then c.forceCloseInLoop else c.queue .forceClose
      | .runFunc =>
        match c.funcs with
        | [] => c
        | f :: funcs => { c with funcs := funcs }.call rs f
      | .queueDestroyed =>
        if c.closing > 0 then
          { c with closing := c.closing - 1 }.queue .connectDestroyed
        else c
      | .readCallback now ret => c.readCallback now ret
      | .writeCallback => c.writeCallback rs
      | .closeCallback => c.handleClose
      | .keepAlive => { c with kickoff := c.kickoff.keepAlive }
      | .enableKickingOff timeout =>
        if timeout > 0 then { c with kickoff := c.kickoff.enableKickingOff timeout }
        else c.assert false
      | .destroyEntry i =>
        let (kickoff, kick) := c.kickoff.destroyEntry i
        let c := { c with kickoff := kickoff }
        if kick then c.forceCloseInLoop else c

end TcpConnectionImpl

end XiaoNet
