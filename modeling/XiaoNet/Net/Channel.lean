import Mathlib.Data.BitVec

/-!
# `Channel`

The event mask of `net/Channel.{h,cpp}`: `events` is the `int` `events_`, changed
by the enable and disable functions. What `update()` tells the poller is not part
of the model. `handleEventSafely` is the order in which the callbacks of one event are called.

The lemmas say what each operation does to `isWriting` and when the mask is
`kNoneEvent`; nothing above unfolds the bits.
-/

namespace XiaoNet

structure Channel where
  events : BitVec 32
  deriving DecidableEq, Repr

namespace Channel

def POLLIN : BitVec 32 := 1
def POLLPRI : BitVec 32 := 2
def POLLOUT : BitVec 32 := 4

def kNoneEvent : BitVec 32 := 0
def kReadEvent : BitVec 32 := POLLIN ||| POLLPRI
def kWriteEvent : BitVec 32 := POLLOUT

/-- As constructed. -/
def new : Channel := ⟨kNoneEvent⟩

def isNoneEvent (ch : Channel) : Bool := ch.events == kNoneEvent

def disableAll (_ : Channel) : Channel := ⟨kNoneEvent⟩

def enableReading (ch : Channel) : Channel := ⟨ch.events ||| kReadEvent⟩

def disableReading (ch : Channel) : Channel := ⟨ch.events &&& ~~~kReadEvent⟩

def enableWriting (ch : Channel) : Channel := ⟨ch.events ||| kWriteEvent⟩

def disableWriting (ch : Channel) : Channel := ⟨ch.events &&& ~~~kWriteEvent⟩

def isWriting (ch : Channel) : Bool := ch.events &&& kWriteEvent != 0

def POLLERR : BitVec 32 := 8
def POLLHUP : BitVec 32 := 16
def POLLNVAL : BitVec 32 := 32
def POLLRDHUP : BitVec 32 := 8192

/-- The callbacks of a channel. -/
inductive Callback where
  | close
  | error
  | read
  | write
  deriving DecidableEq, Repr

/-- The callbacks that `handleEventSafely` calls, in order. -/
def handleEventSafely (revents : BitVec 32) : List Callback :=
  (if revents &&& POLLHUP ≠ 0 ∧ revents &&& POLLIN = 0 then [.close] else []) ++
  (if revents &&& (POLLNVAL ||| POLLERR) ≠ 0 then [.error] else []) ++
  (if revents &&& (POLLIN ||| POLLPRI ||| POLLRDHUP) ≠ 0 then [.read] else []) ++
  (if revents &&& POLLOUT ≠ 0 then [.write] else [])

/-- The `assert` of `Channel::remove`. -/
def removable (ch : Channel) : Bool := ch.events == kNoneEvent

/-! ## Write interest -/

variable (ch : Channel)

/-- Bit 2 of the mask. -/
theorem isWriting_eq : ch.isWriting = ch.events.getLsbD 2 := by
  have hpow : kWriteEvent = BitVec.twoPow 32 2 := by decide
  rw [isWriting, hpow, BitVec.and_twoPow]
  cases ch.events.getLsbD 2 <;> decide

@[simp] theorem isWriting_enableWriting : ch.enableWriting.isWriting = true := by
  simp [isWriting_eq, enableWriting, kWriteEvent, POLLOUT]

@[simp] theorem isWriting_enableReading : ch.enableReading.isWriting = ch.isWriting := by
  simp [isWriting_eq, enableReading, kReadEvent, POLLIN, POLLPRI]

theorem isWriting_of_none (h : ch.events = kNoneEvent) : ch.isWriting = false := by
  simp [isWriting_eq, h, kNoneEvent]

/-- Enabling writing leaves an event registered. -/
theorem enableWriting_ne_none : ch.enableWriting.events ≠ kNoneEvent := by
  intro h
  have hw := isWriting_of_none _ h
  simp at hw

/-- So does enabling reading: bit 0 of the mask is set. -/
theorem enableReading_ne_none : ch.enableReading.events ≠ kNoneEvent := by
  intro h
  have hbit := congrArg (BitVec.getLsbD · 0) h
  simp [enableReading, kReadEvent, POLLIN, POLLPRI, kNoneEvent] at hbit

end Channel

end XiaoNet
