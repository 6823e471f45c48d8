import XiaoNet.Lib.Runs

/-!
# `Acceptor`

The acceptor of `net/inner/Acceptor.{h,cpp}`, one system call at a time, in a process whose other
threads open and close descriptors of their own between the calls.

- `FdTable`: the descriptors of the process and who has opened each; the kernel gives the lowest
  one that is free.
- `Pc`: where `readCallback` and `~Acceptor` are, between two system calls.
- A connection is known by the order of arrival. It waits in `backlog`; then the acceptor has its
  descriptor (`held`) until it is `given` to `newConnectionCallback_` or `shut`.

`idleFd` is `none` where the code has `-1`. It may hold the number of a descriptor that is closed.
-/

namespace XiaoNet

/-- Who has opened a descriptor. -/
inductive Opener where
  | sock
  | idle
  /-- The acceptor, by accepting this connection. -/
  | accepted (conn : Nat)
  | other
  deriving DecidableEq, Repr

structure FdTable where
  /-- `RLIMIT_NOFILE` -/
  limit : Nat
  owner : Nat → Option Opener

namespace FdTable

def set (t : FdTable) (fd : Nat) (who : Option Opener) : FdTable :=
  { t with owner := fun n => if n = fd then who else t.owner n }

/-- The lowest descriptor that is not open. -/
def lowest (t : FdTable) : Option Nat :=
  (List.range t.limit).find? fun fd => (t.owner fd).isNone

end FdTable

namespace Acceptor

inductive Errno where
  | EMFILE
  | EAGAIN
  | other
  deriving DecidableEq, Repr

inductive Pc where
  | waiting
  /-- `accept` has returned the descriptor of a connection. -/
  | newsock (fd conn : Nat)
  /-- `errno == EMFILE` -/
  | emfile
  /-- `idleFd_` has been closed. -/
  | idleClosed
  /-- `idleFd_` holds what `accept` has returned. -/
  | shed
  /-- What was accepted has been closed. -/
  | shedClosed
  /-- `~Acceptor` has removed the channel. -/
  | removed
  /-- `~Acceptor` is at its end, before `sock_` is destroyed. -/
  | destructed
  | destroyed
  deriving DecidableEq, Repr

/-- The code has closed `idleFd_` and not opened it again. -/
def Pc.window : Pc → Bool
  | .idleClosed | .shed | .shedClosed => true
  | _ => false

end Acceptor

structure Acceptor where
  idleFd : Option Nat
  sockFd : Nat
  /-- `newConnectionCallback_` is set. -/
  callback : Bool
  fds : FdTable
  pc : Acceptor.Pc
  backlog : List Nat
  /-- The number of connections that have arrived. -/
  arrived : Nat
  held : List Nat
  given : List Nat
  shut : List Nat
  /-- Connections that ended in the backlog. -/
  gone : List Nat
  /-- Who had opened what the acceptor has closed. -/
  closes : List (Option Opener)
  /-- How often the second `accept` has failed with `EMFILE`. -/
  refused : Nat
  /-- `/dev/null` could not be opened for another reason than `EMFILE`, or another thread has opened
  a descriptor while `idleFd_` was closed. In the constructor the reason does not matter. -/
  disturbed : Bool

namespace Acceptor

/-- The constructor; without a descriptor for `sock_` the program ends. -/
def new (t : FdTable) (fails callback : Bool) : Option Acceptor :=
  let idleFd := if fails then none else t.lowest
  let t :=
    match idleFd with
    | some fd => t.set fd (some .idle)
    | none => t
  match t.lowest with
  | none => none
  | some fd =>
    some
      { idleFd := idleFd
        sockFd := fd
        callback := callback
        fds := t.set fd (some .sock)
        pc := .waiting
        backlog := []
        arrived := 0
        held := []
        given := []
        shut := []
        gone := []
        closes := []
        refused := 0
        disturbed := idleFd.isNone }

/-- `::close`; of `-1` it fails. -/
def close (s : Acceptor) : Option Nat → Acceptor
  | none => s
  | some fd =>
    let who := s.fds.owner fd
    let s := { s with fds := s.fds.set fd none, closes := s.closes ++ [who] }
    match who with
    | some (.accepted conn) => { s with shut := s.shut ++ [conn], held := s.held.erase conn }
    | _ => s

/-- `Socket::accept`; without a free descriptor it does not look at the backlog. -/
def accept (s : Acceptor) (fails : Bool) : Except Errno (Nat × Nat × Acceptor) :=
  if fails then .error .other
  else
    match s.fds.lowest with
    | none => .error .EMFILE
    | some fd =>
      match s.backlog with
      | [] => .error .EAGAIN
      | conn :: backlog =>
        .ok (fd, conn,
          { s with
            fds := s.fds.set fd (some (.accepted conn))
            backlog := backlog
            held := s.held ++ [conn] })

/-- `readCallback`, up to the first `accept`. -/
def readCallback (s : Acceptor) (fails : Bool) : Acceptor :=
  match s.accept fails with
  | .ok (fd, conn, s) => { s with pc := .newsock fd conn }
  | .error errno => if errno = .EMFILE then { s with pc := .emfile } else s

/-- What `readCallback` does with the descriptor of a connection. -/
def handOver (s : Acceptor) (fd conn : Nat) : Acceptor :=
  if s.callback then
    { s with
      fds := s.fds.set fd (some .other)
      given := s.given ++ [conn]
      held := s.held.erase conn }
  else s.close (some fd)

/-- `idleFd_ = sock_.accept(&peer)` -/
def acceptIdle (s : Acceptor) (fails : Bool) : Acceptor :=
  match s.accept fails with
  | .ok (fd, _, s) => { s with idleFd := some fd }
  | .error errno =>
    { s with idleFd := none, refused := s.refused + if errno = .EMFILE then 1 else 0 }

/-- `idleFd_ = ::open("/dev/null", O_RDONLY | O_CLOEXEC)` -/
def openIdle (s : Acceptor) (fails : Bool) : Acceptor :=
  if fails then { s with idleFd := none, disturbed := true }
  else
    match s.fds.lowest with
    | none => { s with idleFd := none }
    | some fd => { s with idleFd := some fd, fds := s.fds.set fd (some .idle) }

/-- The next system call of the acceptor; `fails` when the call fails for another reason. -/
def next (s : Acceptor) (fails : Bool) : Acceptor :=
  match s.pc with
  | .waiting => s.readCallback fails
  | .newsock fd conn => { s.handOver fd conn with pc := .waiting }
  | .emfile => { s.close s.idleFd with pc := .idleClosed }
  | .idleClosed => { s.acceptIdle fails with pc := .shed }
  | .shed => { s.close s.idleFd with pc := .shedClosed }
  | .shedClosed => { s.openIdle fails with pc := .waiting }
  | .removed => { s.close s.idleFd with pc := .destructed }
  | .destructed =>
    -- the kernel ends what waits in the backlog
    { s.close (some s.sockFd) with pc := .destroyed, backlog := [], gone := s.gone ++ s.backlog }
  | .destroyed => s

inductive Op where
  | next (fails : Bool)
  /-- `~Acceptor`, which the loop runs outside of `readCallback`. -/
  | destroy
  /-- A connection arrives. -/
  | connect
  /-- A connection ends in the backlog. -/
  | reset (conn : Nat)
  /-- Another thread opens a descriptor. -/
  | openOther
  /-- Another thread closes a descriptor of its own. -/
  | closeOther (fd : Nat)

def step (s : Acceptor) : Op → Acceptor
  | .next fails => s.next fails
  | .destroy => if s.pc = .waiting then { s with pc := .removed } else s
  | .connect =>
    if s.pc = .destroyed then s
    else { s with backlog := s.backlog ++ [s.arrived], arrived := s.arrived + 1 }
  | .reset conn =>
    if conn ∈ s.backlog then
      { s with backlog := s.backlog.erase conn, gone := s.gone ++ [conn] }
    else s
  | .openOther =>
    match s.fds.lowest with
    | none => s
    | some fd =>
      { s with
        fds := s.fds.set fd (some .other)
        disturbed := s.disturbed || s.pc.window }
  | .closeOther fd =>
    if s.fds.owner fd = some .other then { s with fds := s.fds.set fd none } else s

end Acceptor

end XiaoNet
