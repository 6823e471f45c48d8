import XiaoNet.Lib.Runs
import XiaoNet.Net.Channel

/-!
# `Connector`

Connection attempts, from `net/inner/Connector.{h,cpp}`.

- An attempt is known by the number of its socket; `sockets` says what became of each, `closes`
  and `handed` how often, and `channelPtr` whose channel is registered.
- `Reaction` is what a call of `errorCallback_` does: nothing, or start the next attempt, whose
  `connect(2)` ends with the given `errno`. A list of them is consumed call by call, also by the
  calls that a `connect` that fails at once makes.
- `callbacks` are those of one event of the channel, called one after the other.
- `step` is what happens in the loop thread, before `destroy`.

When an assertion fails the program ends (`failed`).
-/

namespace XiaoNet

/-- What `connect(2)` leaves in `errno`; 0 when it succeeds. -/
inductive Connector.Errno where
  | ok
  | EINPROGRESS
  | EINTR
  | EISCONN
  | EAGAIN
  | EADDRINUSE
  | EADDRNOTAVAIL
  | ECONNREFUSED
  | ENETUNREACH
  | EACCES
  | EPERM
  | EAFNOSUPPORT
  | EALREADY
  | EBADF
  | EFAULT
  | ENOTSOCK
  | other
  deriving DecidableEq, Repr

/-- The cases of the `switch` in `connect`. -/
inductive ConnectCase where
  | connecting
  | retry
  | error
  deriving DecidableEq, Repr

def Connector.Errno.connectCase : Connector.Errno → ConnectCase
  | .ok | .EINPROGRESS | .EINTR | .EISCONN => .connecting
  | .EAGAIN | .EADDRINUSE | .EADDRNOTAVAIL | .ECONNREFUSED | .ENETUNREACH => .retry
  | .EACCES | .EPERM | .EAFNOSUPPORT | .EALREADY | .EBADF | .EFAULT | .ENOTSOCK => .error
  | .other => .error

inductive ConnectorStatus where
  | Disconnected
  | Connecting
  | Connected
  deriving DecidableEq, Repr

inductive SocketState where
  | opened
  | closed
  /-- Given to `newConnectionCallback_`. -/
  | handed
  deriving DecidableEq, Repr

/-- What a call of `errorCallback_` does. -/
inductive Reaction where
  | nothing
  /-- Call `start`. -/
  | start (errno : Connector.Errno)
  deriving DecidableEq, Repr

/-- What the system says of the socket in `handleWrite`. -/
structure SocketReport where
  error : Bool
  selfConnect : Bool
  deriving DecidableEq, Repr

structure Connector where
  connect : Bool
  retry : Bool
  status : ConnectorStatus
  channelPtr : Option Nat
  fd : Option Nat
  socketHanded : Bool
  /-- In milliseconds. -/
  retryInterval : Nat
  /-- The delays of the calls of `runAfter`. -/
  scheduled : List Nat
  sockets : List SocketState
  /-- The sockets passed to `::close`, and to `newConnectionCallback_`, in order. -/
  closes : List Nat
  handed : List Nat
  failed : Bool
  deriving DecidableEq, Repr

namespace Connector

def kMaxRetryDelayMs : Nat := 30 * 1000
def kInitRetryDelayMs : Nat := 500

def new (retry : Bool) : Connector where
  connect := false
  retry := retry
  status := .Disconnected
  channelPtr := none
  fd := none
  socketHanded := false
  retryInterval := kInitRetryDelayMs
  scheduled := []
  sockets := []
  closes := []
  handed := []
  failed := false

/-- `assert(p)`. -/
def assert (c : Connector) (p : Bool) : Connector := if p then c else { c with failed := true }

def closeSocket (c : Connector) (sockfd : Option Nat) : Connector :=
  match sockfd with
  | some fd => { c with sockets := c.sockets.set fd .closed, closes := c.closes ++ [fd] }
  | none => c

/-- `retry(sockfd)`. -/
def retrySocket (c : Connector) (sockfd : Option Nat) : Connector :=
  let c := { (c.assert c.retry).closeSocket sockfd with status := .Disconnected }
  if c.connect then
    { c with
      scheduled := c.scheduled ++ [c.retryInterval]
      retryInterval := min (c.retryInterval * 2) kMaxRetryDelayMs }
  else c

/-- `connecting(sockfd)`. -/
def connecting (c : Connector) (sockfd : Nat) : Connector :=
  { { c with status := .Connecting }.assert c.channelPtr.isNone with channelPtr := some sockfd }

/-- `removeAndResetChannel`, with what it returns. -/
def removeAndResetChannel (c : Connector) : Connector × Option Nat :=
  ({ c with channelPtr := none }, c.channelPtr)

/-- The first lines of `connect`: a new socket. -/
def newSocket (c : Connector) : Connector :=
  { c with
    socketHanded := false
    fd := some c.sockets.length
    sockets := c.sockets ++ [.opened] }

/-- `connect` up to the call of `errorCallback_`, which the last case makes. -/
def connectTo (c : Connector) (errno : Errno) : Connector :=
  match errno.connectCase with
  | .connecting => c.newSocket.connecting c.sockets.length
  | .retry => if c.retry then c.newSocket.retrySocket c.newSocket.fd else c.newSocket
  | .error => { c.newSocket with socketHanded := true }.closeSocket c.newSocket.fd

/-- `startInLoop` up to that call. -/
def startInLoop (c : Connector) (errno : Errno) : Connector :=
  let c := c.assert (c.status = .Disconnected)
  if !c.failed && c.connect then c.connectTo errno else c

/-- A call of `errorCallback_`, with the calls that it leads to. -/
def errorCallback : List Reaction → Connector → Connector × List Reaction
  | [], c => (c, [])
  | .nothing :: rs, c => (c, rs)
  | .start errno :: rs, c =>
    let c' := { c with connect := true }.startInLoop errno
    if !c'.failed && errno.connectCase = .error then errorCallback rs c' else (c', rs)

/-- `start` or the timer of a retry, in the loop thread. -/
def startWith (c : Connector) (errno : Errno) (rs : List Reaction) : Connector :=
  let c' := c.startInLoop errno
  if !c'.failed && c'.connect && errno.connectCase = .error then (errorCallback rs c').1 else c'

def handleError (c : Connector) (rs : List Reaction) : Connector × List Reaction :=
  let c := { c with socketHanded := true }
  if c.status = .Connecting then
    -- the attempt is over before `errorCallback_` runs, which may start the next one
    let (c, sockfd) := { c with status := .Disconnected }.removeAndResetChannel
    let c := if c.retry then c.retrySocket sockfd else c.closeSocket sockfd
    errorCallback rs c
  else (c, rs)

def handleWrite (c : Connector) (report : SocketReport) (rs : List Reaction) :
    Connector × List Reaction :=
  let c := { c with socketHanded := true }
  if c.status = .Connecting then
    let (c, sockfd) := c.removeAndResetChannel
    -- without `retry_` these two cases leave `status_` at `Connecting`
    if report.error || report.selfConnect then
      errorCallback rs
        (if c.retry then c.retrySocket sockfd
        else { c with socketHanded := true }.closeSocket sockfd)
    else
      let c := { c with status := .Connected }
      if c.connect then
        match sockfd with
        | some fd =>
          ({ c with sockets := c.sockets.set fd .handed, handed := c.handed ++ [fd] }, rs)
        | none => (c, rs)
      else ({ c with socketHanded := true }.closeSocket sockfd, rs)
  else
    -- has been stopped
    (c.assert (c.status = .Disconnected), rs)

/-- A callback of the channel of an attempt. -/
def callback (report : SocketReport) (c : Connector) (rs : List Reaction) :
    Channel.Callback → Connector × List Reaction
  | .close | .error => if c.failed then (c, rs) else c.handleError rs
  | .write => if c.failed then (c, rs) else c.handleWrite report rs
  | .read => (c, rs)

/-- The callbacks that an event calls; there is no read callback. -/
def calls (revents : BitVec 32) : List Channel.Callback :=
  (Channel.handleEventSafely revents).filter (· ≠ .read)

/-- The callbacks of one event. -/
def callbacks (report : SocketReport) : List Channel.Callback → Connector → List Reaction →
    Connector × List Reaction
  | [], c, rs => (c, rs)
  | cb :: cbs, c, rs =>
    let (c', rs') := callback report c rs cb
    callbacks report cbs c' rs'

def stop (c : Connector) : Connector :=
  { c with status := .Disconnected }.removeAndResetChannel.1

/-- `~Connector`. -/
def destroy (c : Connector) : Connector :=
  if c.socketHanded then c else c.closeSocket c.fd

inductive Op where
  | start (errno : Errno) (rs : List Reaction)
  /-- The timer of a retry. -/
  | retryTimer (errno : Errno) (rs : List Reaction)
  /-- `stop` in the loop thread. -/
  | stop
  /-- `stop` in another thread: `status_` is stored, and later its closure runs. -/
  | stopElsewhere
  | removeChannel
  /-- An event of the channel. -/
  | event (revents : BitVec 32) (report : SocketReport) (rs : List Reaction)

def step (c : Connector) (op : Op) : Connector :=
  if c.failed then c
  else
    match op with
    | .start errno rs => { c with connect := true }.startWith errno rs
    | .retryTimer errno rs => c.startWith errno rs
    | .stop => c.stop
    | .stopElsewhere => { c with status := .Disconnected }
    | .removeChannel => c.removeAndResetChannel.1
    | .event revents report rs =>
      if c.channelPtr.isSome then
        (callbacks report (calls revents) c rs).1
      else c

/-! ## What is left alone -/

variable {c : Connector}

theorem assert_eq (c : Connector) (p : Bool) :
    c.assert p = { c with failed := c.failed || !p } := by
  cases p <;> simp [assert]

@[simp] theorem length_closeSocket (fd : Option Nat) :
    (c.closeSocket fd).sockets.length = c.sockets.length := by
  cases fd <;> simp [closeSocket]

@[simp] theorem fd_closeSocket (fd : Option Nat) : (c.closeSocket fd).fd = c.fd := by
  cases fd <;> rfl

@[simp] theorem socketHanded_closeSocket (fd : Option Nat) :
    (c.closeSocket fd).socketHanded = c.socketHanded := by
  cases fd <;> rfl

@[simp] theorem channelPtr_closeSocket (fd : Option Nat) :
    (c.closeSocket fd).channelPtr = c.channelPtr := by
  cases fd <;> rfl

@[simp] theorem scheduled_closeSocket (fd : Option Nat) :
    (c.closeSocket fd).scheduled = c.scheduled := by
  cases fd <;> rfl

@[simp] theorem handed_closeSocket (fd : Option Nat) : (c.closeSocket fd).handed = c.handed := by
  cases fd <;> rfl

@[simp] theorem status_closeSocket (fd : Option Nat) : (c.closeSocket fd).status = c.status := by
  cases fd <;> rfl

@[simp] theorem channelPtr_retrySocket (fd : Option Nat) :
    (c.retrySocket fd).channelPtr = c.channelPtr := by
  unfold retrySocket
  dsimp only
  split <;> simp [assert_eq]

@[simp] theorem status_retrySocket (fd : Option Nat) :
    (c.retrySocket fd).status = .Disconnected := by
  unfold retrySocket
  dsimp only
  split <;> rfl

@[simp] theorem socketHanded_retrySocket (fd : Option Nat) :
    (c.retrySocket fd).socketHanded = c.socketHanded := by
  unfold retrySocket
  dsimp only
  split <;> simp [assert_eq]

@[simp] theorem length_destroy : c.destroy.sockets.length = c.sockets.length := by
  unfold destroy
  split <;> simp

@[simp] theorem channelPtr_destroy : c.destroy.channelPtr = c.channelPtr := by
  unfold destroy
  split <;> simp

@[simp] theorem status_destroy : c.destroy.status = c.status := by
  unfold destroy
  split <;> simp

@[simp] theorem scheduled_destroy : c.destroy.scheduled = c.scheduled := by
  unfold destroy
  split <;> simp

@[simp] theorem handed_destroy : c.destroy.handed = c.handed := by
  unfold destroy
  split <;> simp

/-- A callback that finds `status_` reset only sets `socketHanded_`. -/
theorem callback_of_disconnected (hs : c.status = .Disconnected) (report : SocketReport)
    (cb : Channel.Callback) :
    (callback report c [] cb).1 = c ∨
      (callback report c [] cb).1 = { c with socketHanded := true } := by
  cases cb with
  | read => exact .inl rfl
  | close | error => by_cases hf : c.failed = true <;> simp [callback, handleError, hf, hs]
  | write => by_cases hf : c.failed = true <;> simp [callback, handleWrite, assert, hf, hs]

end Connector

end XiaoNet
