import Mathlib.Data.List.Basic

/-!
# Idle kick-off

The members of `TcpConnectionImpl` that kick an idle connection off, and the
functions that change them. A `KickoffEntry` is an object the timing wheel keeps
alive; `kickoffEntry` is a weak pointer to one of them. `inserted` records the
calls of `TimingWheel::insertEntry`. Times are in microseconds.

A connection is kicked off by an entry that is destroyed while its `conn` still
refers to the connection.
-/

namespace XiaoNet

/-- A `KickoffEntry` object. -/
structure KickoffEntry where
  /-- `conn_` has not been reset. -/
  conn : Bool
  destroyed : Bool
  deriving DecidableEq, Repr

structure Kickoff where
  idleTimeout : Nat
  idleTimeoutBackup : Nat
  /-- The entry `kickoffEntry_` points to. -/
  kickoffEntry : Option Nat
  /-- `timingWheelWeakPtr_` can be locked. -/
  timingWheel : Bool
  lastTimingWheelUpdateTime : Nat
  /-- The entries made so far. -/
  entries : List KickoffEntry
  /-- The delays and entries given to `TimingWheel::insertEntry`. -/
  inserted : List (Nat × Nat)
  deriving DecidableEq, Repr

namespace Kickoff

/-- The members of a connection as constructed. -/
def new : Kickoff := ⟨0, 0, none, false, 0, [], []⟩

/-- One second. -/
def second : Nat := 1000000

/-- `kickoffEntry_.lock()`. -/
def lock (k : Kickoff) : Option Nat :=
  k.kickoffEntry.filter fun i => (k.entries[i]?).any fun e => !e.destroyed

/-- `entry->reset()`. -/
def resetEntry (k : Kickoff) (i : Nat) : Kickoff :=
  { k with entries := k.entries.modify i fun e => { e with conn := false } }

/-- `std::make_shared<KickoffEntry>(shared_from_this())`, kept in `kickoffEntry_`
and inserted in the wheel. -/
def newEntry (k : Kickoff) (delay : Nat) : Kickoff :=
  { k with
    entries := k.entries ++ [⟨true, false⟩]
    kickoffEntry := some k.entries.length
    inserted := k.inserted ++ [(delay, k.entries.length)] }

/-- `TcpConnectionImpl::extendLife()` at time `now`. -/
def extendLife (k : Kickoff) (now : Nat) : Kickoff :=
  if k.idleTimeout > 0 then
    if now < k.lastTimingWheelUpdateTime + second then k
    else
      let k := { k with lastTimingWheelUpdateTime := now }
      match k.lock with
      | some entry =>
        if k.timingWheel then { k with inserted := k.inserted ++ [(k.idleTimeout, entry)] }
        else k
      | none => k
  else k

/-- `TcpConnectionImpl::enableKickingOff(timeout, timingWheel)`. -/
def enableKickingOff (k : Kickoff) (timeout : Nat) : Kickoff :=
  { k.newEntry timeout with timingWheel := true, idleTimeout := timeout }

/-- `TcpConnectionImpl::keepAlive()`. -/
def keepAlive (k : Kickoff) : Kickoff :=
  let k := { k with idleTimeout := 0 }
  match k.lock with
  | some entry => k.resetEntry entry
  | none => k

/-- What `sendAsyncStream` does for `disableKickoff`. -/
def disableKickoff (k : Kickoff) : Kickoff :=
  let k :=
    match k.lock with
    | some entry => { k.resetEntry entry with kickoffEntry := none }
    | none => k
  { k with idleTimeoutBackup := k.idleTimeout, idleTimeout := 0 }

/-- What `sendAsyncDataInLoop` does when a stream is closed. -/
def restoreKickoff (k : Kickoff) : Kickoff :=
  if k.idleTimeoutBackup > 0 then
    if k.timingWheel then
      { k.newEntry k.idleTimeoutBackup with
        idleTimeout := k.idleTimeoutBackup
        idleTimeoutBackup := 0 }
    else k
  else k

/-- The wheel drops the last reference to entry `i`; the second component says
whether `~KickoffEntry` calls `forceClose`. -/
def destroyEntry (k : Kickoff) (i : Nat) : Kickoff × Bool :=
  ({ k with entries := k.entries.modify i fun e => { e with destroyed := true } },
    (k.entries[i]?).any fun e => e.conn && !e.destroyed)

end Kickoff

end XiaoNet
