import Mathlib.Logic.Function.Basic
import XiaoNet.Lib.Runs
import XiaoNet.Net.Channel

/-!
# `EpollPoller`

The poller of one loop and its channels: `net/inner/poller/EpollPoller.{h,cpp}` and the
operations of `net/Channel.{h,cpp}` that end in it.

- `fd` gives the descriptor of each channel, `epoll` is the set in the kernel: for a
  descriptor the events and the channel it was registered with.
- An operation gives `none` when an `assert` fails; that ends the run (`failed`).
- `epoll_ctl` fails on a descriptor that is there already (`EPOLL_CTL_ADD`) or is not there
  (the others), and on nothing else.
-/

namespace XiaoNet

universe u

namespace EpollPoller

/-- `index_` of a channel. -/
inductive Index where
  | kNew
  | kAdded
  | kDeleted
  deriving DecidableEq, Repr

inductive Operation where
  | EPOLL_CTL_ADD
  | EPOLL_CTL_MOD
  | EPOLL_CTL_DEL
  deriving DecidableEq, Repr

/-- What an entry of the set holds: `event.events` and `event.data.ptr`. -/
structure EpollEvent (ι : Type u) where
  events : BitVec 32
  ptr : ι
  deriving DecidableEq, Repr

/-- `::epoll_ctl`. -/
def epollCtl {ι : Type u} (epoll : Int → Option (EpollEvent ι)) (op : Operation) (fd : Int)
    (event : EpollEvent ι) : Int → Option (EpollEvent ι) :=
  match op, epoll fd with
  | .EPOLL_CTL_ADD, none => Function.update epoll fd (some event)
  | .EPOLL_CTL_MOD, some _ => Function.update epoll fd (some event)
  | .EPOLL_CTL_DEL, some _ => Function.update epoll fd none
  | _, _ => epoll

end EpollPoller

open EpollPoller

structure EpollPoller (ι : Type u) where
  channel : ι → Channel
  index : ι → Index
  /-- `channels_`, which is only there for the assertions. -/
  channels : Int → Option ι
  epoll : Int → Option (EpollEvent ι)
  failed : Bool

namespace EpollPoller

variable {ι : Type u} [DecidableEq ι]

/-- Before any operation on the channels. -/
def new : EpollPoller ι where
  channel _ := .new
  index _ := .kNew
  channels _ := none
  epoll _ := none
  failed := false

def setChannel (s : EpollPoller ι) (ch : ι) (channel : Channel) : EpollPoller ι :=
  { s with channel := Function.update s.channel ch channel }

def setIndex (s : EpollPoller ι) (ch : ι) (index : Index) : EpollPoller ι :=
  { s with index := Function.update s.index ch index }

variable (fd : ι → Int)

/-- `EpollPoller::update`. -/
def update (s : EpollPoller ι) (op : Operation) (ch : ι) : EpollPoller ι :=
  { s with epoll := epollCtl s.epoll op (fd ch) ⟨(s.channel ch).events, ch⟩ }

/-- `EpollPoller::updateChannel`. -/
def updateChannel (s : EpollPoller ι) (ch : ι) : Option (EpollPoller ι) :=
  if fd ch ≥ 0 then
    match s.index ch with
    | .kNew =>
      if s.channels (fd ch) = none then
        let s := { s with channels := Function.update s.channels (fd ch) (some ch) }
        some ((s.setIndex ch .kAdded).update fd .EPOLL_CTL_ADD ch)
      else none
    | .kDeleted =>
      if s.channels (fd ch) = some ch then
        some ((s.setIndex ch .kAdded).update fd .EPOLL_CTL_ADD ch)
      else none
    | .kAdded =>
      if s.channels (fd ch) = some ch then
        if (s.channel ch).isNoneEvent then
          some ((s.update fd .EPOLL_CTL_DEL ch).setIndex ch .kDeleted)
        else some (s.update fd .EPOLL_CTL_MOD ch)
      else none
  else none

/-- `EpollPoller::removeChannel`. -/
def removeChannel (s : EpollPoller ι) (ch : ι) : Option (EpollPoller ι) :=
  if s.channels (fd ch) = some ch ∧ (s.channel ch).isNoneEvent = true then
    let s := { s with channels := Function.update s.channels (fd ch) none }
    match s.index ch with
    | .kNew => none
    | .kAdded => some ((s.update fd .EPOLL_CTL_DEL ch).setIndex ch .kNew)
    | .kDeleted => some (s.setIndex ch .kNew)
  else none

/-- The operations of a channel. -/
inductive Op where
  | enableReading
  | disableReading
  | enableWriting
  | disableWriting
  | updateEvents (events : BitVec 32)
  | disableAll
  | remove
  deriving DecidableEq, Repr

/-- An operation on channel `ch`. -/
def call (s : EpollPoller ι) (ch : ι) : Op → Option (EpollPoller ι)
  | .enableReading => (s.setChannel ch (s.channel ch).enableReading).updateChannel fd ch
  | .disableReading => (s.setChannel ch (s.channel ch).disableReading).updateChannel fd ch
  | .enableWriting => (s.setChannel ch (s.channel ch).enableWriting).updateChannel fd ch
  | .disableWriting => (s.setChannel ch (s.channel ch).disableWriting).updateChannel fd ch
  | .updateEvents events => (s.setChannel ch ⟨events⟩).updateChannel fd ch
  -- `disableAll` does not call `update`
  | .disableAll => some (s.setChannel ch (s.channel ch).disableAll)
  | .remove => if (s.channel ch).removable then s.removeChannel fd ch else none

def step (s : EpollPoller ι) (a : ι × Op) : EpollPoller ι :=
  if s.failed then s else (s.call fd a.1 a.2).getD { s with failed := true }

end EpollPoller

end XiaoNet
