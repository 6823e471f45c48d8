import Mathlib.Algebra.Order.Floor.Semiring
import Mathlib.Data.Fintype.Basic
import Mathlib.Data.Rat.Floor
import XiaoNet.Lib.Runs
import XiaoNet.Utils.SizeT

/-!
# `TimingWheel`

The timing wheel of `utils/TimingWheel.{h,cpp}`: `wheelsNum` queues of
`bucketsNumPerWheel` buckets. An entry with a long delay is put in an outer wheel,
wrapped in a `CallbackEntry`, an object whose destructor inserts what it wraps in
the next inner wheel. A tick rotates the wheels and destroys the buckets it takes off.

- `Item` is what a bucket holds, `Item.held` the entry it keeps alive.
- `insertEntryInloop` and `tick` are the code; `Tick` collects what the code leaves
  open in a tick: the order in which a bucket destroys its elements, the entries
  referred to from elsewhere, and the insertions an entry's destructor makes.
- An entry is destroyed when a bucket drops the last reference to it.

`ticksCounter` and the powers of `bucketsNumPerWheel` are natural numbers, the
tick interval is a rational.
-/

namespace XiaoNet

namespace TimingWheel

/-- The members the constructor sets for good. -/
structure Config where
  ticksInterval : ℚ
  wheelsNum : Nat
  bucketsNumPerWheel : Nat
  interval_pos : 0 < ticksInterval
  wheelsNum_pos : 0 < wheelsNum
  bucketsNum_gt : 1 < bucketsNumPerWheel

/-- What a bucket holds: an entry, or a `CallbackEntry` with the captures of its
closure, which inserts `entryPtr` in wheel `i`. -/
inductive Item (n : Nat) (ε : Type) where
  | entry (e : ε)
  | callback (i : Fin n) (delay t : Nat) (entryPtr : Item n ε)
  deriving DecidableEq

/-- The entry an item keeps alive. -/
def Item.held {n : Nat} {ε : Type} : Item n ε → ε
  | .entry e => e
  | .callback _ _ _ entryPtr => entryPtr.held

end TimingWheel

open TimingWheel in
structure TimingWheel (c : Config) (ε : Type) where
  wheels : Fin c.wheelsNum → Fin c.bucketsNumPerWheel → List (Item c.wheelsNum ε)
  ticksCounter : Nat

namespace TimingWheel

variable {c : Config} {ε : Type}

theorem Config.bucketsNum_pos (c : Config) : 0 < c.bucketsNumPerWheel :=
  Nat.lt_trans Nat.zero_lt_one c.bucketsNum_gt

/-- The loop of the constructor that finds `wheelsNum`, in `size_t` arithmetic;
`none` when it has not ended after `fuel` rounds. -/
def wheelsNumLoop (maxTickNum bucketsNumPerWheel : Nat) : Nat → Nat → Nat → Option Nat
  | 0, _, _ => none
  | fuel + 1, ticksNum, wheelsNum =>
    if maxTickNum > ticksNum then
      wheelsNumLoop maxTickNum bucketsNumPerWheel fuel
        (mulSize ticksNum bucketsNumPerWheel) (wheelsNum + 1)
    else some wheelsNum

/-- The members `TimingWheel::TimingWheel` sets; `none` when an `assert` fails or
the loop does not end. -/
def Config.create (maxTimeout : Nat) (ticksInterval : ℚ) (bucketsNumPerWheel : Nat) :
    Option Config :=
  let maxTickNum := ⌊maxTimeout / ticksInterval⌋₊
  match wheelsNumLoop maxTickNum bucketsNumPerWheel (maxTickNum + 1) bucketsNumPerWheel 1 with
  | none => none
  | some wheelsNum =>
    if h : 1 < maxTimeout ∧ 0 < ticksInterval ∧ 1 < bucketsNumPerWheel ∧ 0 < wheelsNum then
      some ⟨ticksInterval, wheelsNum, bucketsNumPerWheel, h.2.1, h.2.2.2, h.2.2.1⟩
    else none

/-- A wheel as constructed. -/
def empty (c : Config) (ε : Type) : TimingWheel c ε := ⟨fun _ _ => [], 0⟩

/-- The entry is held by the wheels, directly or through `CallbackEntry` objects. -/
def Holds (w : TimingWheel c ε) (e : ε) : Prop :=
  ∃ i k, ∃ x ∈ w.wheels i k, x.held = e

instance [DecidableEq ε] (w : TimingWheel c ε) (e : ε) : Decidable (w.Holds e) :=
  inferInstanceAs (Decidable (∃ i k, ∃ x ∈ w.wheels i k, x.held = e))

/-- `static_cast<size_t>(delay / ticksInterval_ + 1)`. -/
def tickDelay (c : Config) (delay : Nat) : Nat := ⌊delay / c.ticksInterval + 1⌋₊

section

variable [DecidableEq ε]

/-- `unordered_set::insert`: an entry that is there already is not inserted again,
a `CallbackEntry` never is. -/
def bucketInsert (bucket : List (Item c.wheelsNum ε)) :
    Item c.wheelsNum ε → List (Item c.wheelsNum ε)
  | .entry e => if .entry e ∈ bucket then bucket else .entry e :: bucket
  | .callback i delay t entryPtr => .callback i delay t entryPtr :: bucket

/-- `wheels_[i][k].insert(x)`. -/
def insertAt (w : TimingWheel c ε) (i : Fin c.wheelsNum) (k : Fin c.bucketsNumPerWheel)
    (x : Item c.wheelsNum ε) : TimingWheel c ε :=
  { w with
    wheels := Function.update w.wheels i
      (Function.update (w.wheels i) k (bucketInsert (w.wheels i k) x)) }

/-- The loop of `insertEntryInloop` from wheel `i` on, with `m` wheels to go. -/
def insertLoop (w : TimingWheel c ε) :
    (m i : Nat) → i + m = c.wheelsNum → (delay t : Nat) → Item c.wheelsNum ε → TimingWheel c ε
  | 0, _, _, _, _, _ => w
  | m + 1, i, h, delay, t, entryPtr =>
    have hB := c.bucketsNum_pos
    if hd : delay ≤ c.bucketsNumPerWheel then
      w.insertAt ⟨i, by omega⟩ ⟨delay - 1, by omega⟩ entryPtr
    else if i < c.wheelsNum - 1 then
      w.insertLoop m (i + 1) (by omega)
        ((delay + t % c.bucketsNumPerWheel - 1) / c.bucketsNumPerWheel)
        (t / c.bucketsNumPerWheel)
        (.callback ⟨i, by omega⟩ delay t entryPtr)
    else
      (w.insertAt ⟨i, by omega⟩ ⟨c.bucketsNumPerWheel - 1, by omega⟩ entryPtr).insertLoop
        m (i + 1) (by omega)
        ((delay + t % c.bucketsNumPerWheel - 1) / c.bucketsNumPerWheel)
        (t / c.bucketsNumPerWheel)
        entryPtr

/-- `TimingWheel::insertEntryInloop`. -/
def insertEntryInloop (w : TimingWheel c ε) (delay : Nat) (e : ε) : TimingWheel c ε :=
  w.insertLoop c.wheelsNum 0 (Nat.zero_add _) (tickDelay c delay) w.ticksCounter (.entry e)

/-- What the code leaves open in one tick. -/
structure Tick (c : Config) (ε : Type) where
  /-- The order in which an `EntryBucket` destroys its elements. -/
  order : List (Item c.wheelsNum ε) → List (Item c.wheelsNum ε)
  order_perm : ∀ bucket, (order bucket).Perm bucket
  /-- The entries that something outside of the wheels refers to. -/
  outside : ε → Bool
  /-- The delays and entries the destructor of an entry inserts. -/
  dtor : ε → List (Nat × ε)

/-- The body of a `CallbackEntry`'s closure. -/
def runCallback (w : TimingWheel c ε) (i : Fin c.wheelsNum) (delay t : Nat)
    (entryPtr : Item c.wheelsNum ε) : TimingWheel c ε :=
  if delay > 0 then
    w.insertAt i
      ⟨(delay + t % c.bucketsNumPerWheel - 1) % c.bucketsNumPerWheel,
        Nat.mod_lt _ c.bucketsNum_pos⟩ entryPtr
  else w

/-- The insertions an entry's destructor makes. -/
def runDestructor (w : TimingWheel c ε) (inserts : List (Nat × ε)) : TimingWheel c ε :=
  inserts.foldl (fun w a => w.insertEntryInloop a.1 a.2) w

/-- Destruction of the bucket `tmp` element by element: the wheels, and the entries
destroyed because nothing refers to them any more. -/
def destroyBucket (k : Tick c ε) :
    List (Item c.wheelsNum ε) → TimingWheel c ε → TimingWheel c ε × List ε
  | [], w => (w, [])
  | .callback i delay t entryPtr :: tmp, w =>
    destroyBucket k tmp (w.runCallback i delay t entryPtr)
  | .entry e :: tmp, w =>
    if k.outside e ∨ (∃ x ∈ tmp, x.held = e) ∨ w.Holds e then destroyBucket k tmp w
    else
      let r := destroyBucket k tmp (w.runDestructor (k.dtor e))
      (r.1, e :: r.2)

/-- `wheels_[i].pop_front(); wheels_[i].push_back(EntryBucket());` -/
def rotate (w : TimingWheel c ε) (i : Fin c.wheelsNum) : TimingWheel c ε :=
  { w with
    wheels := Function.update w.wheels i fun k =>
      if h : k.1 + 1 < c.bucketsNumPerWheel then w.wheels i ⟨k.1 + 1, h⟩ else [] }

/-- One round of the tick handler's loop. -/
def rotateWheel (k : Tick c ε) (t : Nat) (i : Fin c.wheelsNum) (pow : Nat)
    (w : TimingWheel c ε) : TimingWheel c ε × List ε :=
  if t % pow = 0 then
    destroyBucket k (k.order (w.wheels i ⟨0, c.bucketsNum_pos⟩)) (w.rotate i)
  else (w, [])

/-- The loop of the tick handler from wheel `i` on, with `m` wheels to go. -/
def tickLoop (k : Tick c ε) (t : Nat) :
    (m i : Nat) → i + m = c.wheelsNum → (pow : Nat) → TimingWheel c ε →
      TimingWheel c ε × List ε
  | 0, _, _, _, w => (w, [])
  | m + 1, i, h, pow, w =>
    let r := rotateWheel k t ⟨i, by omega⟩ pow w
    let r' := tickLoop k t m (i + 1) (by omega) (pow * c.bucketsNumPerWheel) r.1
    (r'.1, r.2 ++ r'.2)

/-- The tick handler: the wheels after it and the entries it has destroyed. -/
def tick (w : TimingWheel c ε) (k : Tick c ε) : TimingWheel c ε × List ε :=
  let t := w.ticksCounter + 1
  tickLoop k t c.wheelsNum 0 (Nat.zero_add _) 1 { w with ticksCounter := t }

/-- What happens to a wheel, one loop callback at a time. -/
inductive Event (c : Config) (ε : Type) where
  | insertEntry (delay : Nat) (e : ε)
  | tick (k : Tick c ε)

def step (w : TimingWheel c ε) : Event c ε → TimingWheel c ε
  | .insertEntry delay e => w.insertEntryInloop delay e
  | .tick k => (w.tick k).1

end

end TimingWheel

end XiaoNet
