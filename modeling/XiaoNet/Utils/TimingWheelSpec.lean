import Mathlib.Tactic.Linarith
import XiaoNet.Lib.Radix
import XiaoNet.Utils.TimingWheel

/-!
# When a timing wheel lets go of an entry

- `due r x`: the tick at which the entry inside `x` is dropped when `x` is taken
  off its wheel at that wheel's rotation number `r`.
- `Nested i x`: `x` is wrapped `i` times, as everything in wheel `i` is.
- `Pending cnt w e d`: some item of the wheels drops `e` at tick `d`, when wheel
  `i` has rotated `cnt i` times so far.
- `insertLoop_spec` says where an insertion puts an entry; `tick_spec` and
  `tick_destroyed` say what a tick does to the pending ticks and which entries it
  destroys.

Between ticks wheel `i` has rotated `ticksCounter / B ^ i` times. An entry's
destructor runs when wheel 0 has rotated and no other wheel has, so what it
inserts may be `advance` ticks early.
-/

namespace XiaoNet

namespace TimingWheel

open Radix

variable {c : Config} {ε : Type}

/-! ## Items -/

/-- The tick at which the entry inside is dropped by an item that its wheel
releases at its rotation number `r`. -/
def due (B : Nat) {n : Nat} : Nat → Item n ε → Nat
  | r, .entry _ => r
  | r, .callback _ delay t x => due B (r * B + (delay + t % B - 1) % B + 1) x

/-- Items of wheel `i`. -/
def Nested {n : Nat} : Nat → Item n ε → Prop
  | 0, .entry _ => True
  | i + 1, .callback j delay _ x => j.1 = i ∧ 0 < delay ∧ Nested i x
  | _, _ => False

variable {n B : Nat}

/-- A rotation of wheel `i` takes `B ^ i` ticks. -/
theorem due_add {i : Nat} {x : Item n ε} (h : Nested i x) (r m : Nat) :
    due B (r + m) x = due B r x + m * B ^ i := by
  induction x generalizing i r m with
  | entry e =>
    cases i with
    | zero => rw [Nat.pow_zero, Nat.mul_one]; rfl
    | succ i => exact h.elim
  | callback j delay t x ih =>
    cases i with
    | zero => exact h.elim
    | succ i =>
      have hshift : (r + m) * B + (delay + t % B - 1) % B + 1
          = (r * B + (delay + t % B - 1) % B + 1) + m * B := by
        rw [Nat.add_mul]
        omega
      rw [due, hshift, ih h.2.2, due, pow_succ, Nat.mul_assoc, Nat.mul_comm B]

/-- An item is not due before its wheel releases it. -/
theorem mul_pow_le_due {i : Nat} {x : Item n ε} (h : Nested i x) (r : Nat) :
    r * B ^ i ≤ due B r x := by
  have hdue := due_add (B := B) h 0 r
  rw [Nat.zero_add] at hdue
  omega

/-! ## Buckets and wheels -/

/-- Every item is in the wheel its wrapping is for. -/
def Ordered (w : TimingWheel c ε) : Prop :=
  ∀ i k, ∀ x ∈ w.wheels i k, Nested i.1 x

/-- Some item drops `e` at tick `d`, when wheel `i` has rotated `cnt i` times. -/
def Pending (cnt : Nat → Nat) (w : TimingWheel c ε) (e : ε) (d : Nat) : Prop :=
  ∃ i k, ∃ x ∈ w.wheels i k, x.held = e ∧ due c.bucketsNumPerWheel (cnt i.1 + k.1 + 1) x = d

theorem holds_iff_pending {w : TimingWheel c ε} {e : ε} (cnt : Nat → Nat) :
    w.Holds e ↔ ∃ d, Pending cnt w e d := by
  constructor
  · rintro ⟨i, k, x, hx, he⟩
    exact ⟨_, i, k, x, hx, he, rfl⟩
  · rintro ⟨d, i, k, x, hx, he, -⟩
    exact ⟨i, k, x, hx, he⟩

/-- Two counts that agree on the wheels give the same pending ticks. -/
theorem pending_congr {w : TimingWheel c ε} {cnt cnt' : Nat → Nat}
    (h : ∀ i < c.wheelsNum, cnt i = cnt' i) {e : ε} {d : Nat} :
    Pending cnt w e d ↔ Pending cnt' w e d := by
  constructor
  · rintro ⟨i, k, x, hx, he, hd⟩
    exact ⟨i, k, x, hx, he, by rw [← h i.1 i.2]; exact hd⟩
  · rintro ⟨i, k, x, hx, he, hd⟩
    exact ⟨i, k, x, hx, he, by rw [h i.1 i.2]; exact hd⟩

theorem mem_rotate_self {w : TimingWheel c ε} {i : Fin c.wheelsNum}
    {k : Fin c.bucketsNumPerWheel} {y : Item c.wheelsNum ε} :
    y ∈ (w.rotate i).wheels i k ↔
      ∃ h : k.1 + 1 < c.bucketsNumPerWheel, y ∈ w.wheels i ⟨k.1 + 1, h⟩ := by
  show y ∈ Function.update w.wheels i _ i k ↔ _
  rw [Function.update_self]
  split
  · rename_i h
    constructor
    · intro hy
      exact ⟨h, hy⟩
    · rintro ⟨_, hy⟩
      exact hy
  · rename_i h
    constructor
    · intro hy
      exact absurd hy List.not_mem_nil
    · rintro ⟨h', -⟩
      exact absurd h' h

theorem rotate_of_ne {w : TimingWheel c ε} {i j : Fin c.wheelsNum} (h : j ≠ i) :
    (w.rotate i).wheels j = w.wheels j :=
  Function.update_of_ne h _ _

theorem Ordered.rotate {w : TimingWheel c ε} (h : w.Ordered) (i : Fin c.wheelsNum) :
    (w.rotate i).Ordered := by
  intro j k y hy
  by_cases hj : j = i
  · subst hj
    obtain ⟨hk, hy⟩ := mem_rotate_self.mp hy
    exact h j _ y hy
  · rw [rotate_of_ne hj] at hy
    exact h j k y hy

/-- A rotation releases the front bucket and leaves the other items due when they were. -/
theorem pending_rotate (cnt cnt' : Nat → Nat) {w : TimingWheel c ε} {i : Fin c.wheelsNum}
    (hi : cnt' i.1 = cnt i.1 + 1) (hne : ∀ j, j ≠ i.1 → cnt' j = cnt j) {e : ε} {d : Nat} :
    Pending cnt w e d ↔
      Pending cnt' (w.rotate i) e d ∨
        ∃ x ∈ w.wheels i ⟨0, c.bucketsNum_pos⟩, x.held = e ∧
          due c.bucketsNumPerWheel (cnt' i.1) x = d := by
  constructor
  · rintro ⟨j, k, x, hx, he, hd⟩
    by_cases hj : j = i
    · subst hj
      -- the front bucket goes, every other one moves up by one
      by_cases hk : k.1 = 0
      · have hk0 : k = ⟨0, c.bucketsNum_pos⟩ := Fin.ext hk
        subst hk0
        exact .inr ⟨x, hx, he, by rw [hi]; exact hd⟩
      · have hk1 : k.1 - 1 + 1 = k.1 := by omega
        have hklt := k.2
        refine .inl ⟨j, ⟨k.1 - 1, by omega⟩, x, ?_, he, ?_⟩
        · rw [mem_rotate_self]
          refine ⟨by show k.1 - 1 + 1 < _; omega, ?_⟩
          have hkk : (⟨k.1 - 1 + 1, by omega⟩ : Fin c.bucketsNumPerWheel) = k := Fin.ext hk1
          rw [hkk]
          exact hx
        · rw [← hd, hi]
          congr 1
          show cnt j.1 + 1 + (k.1 - 1) + 1 = cnt j.1 + k.1 + 1
          omega
    · have hjv : j.1 ≠ i.1 := fun hv => hj (Fin.ext hv)
      refine .inl ⟨j, k, x, ?_, he, ?_⟩
      · rw [rotate_of_ne hj]
        exact hx
      · rw [hne j.1 hjv]
        exact hd
  · -- backwards: the item was one bucket further on, or in the front bucket
    rintro (⟨j, k, x, hx, he, hd⟩ | ⟨x, hx, he, hd⟩)
    · by_cases hj : j = i
      · subst hj
        obtain ⟨hk, hx⟩ := mem_rotate_self.mp hx
        refine ⟨j, ⟨k.1 + 1, hk⟩, x, hx, he, ?_⟩
        rw [← hd, hi]
        congr 1
        show cnt j.1 + (k.1 + 1) + 1 = cnt j.1 + 1 + k.1 + 1
        omega
      · have hjv : j.1 ≠ i.1 := fun hv => hj (Fin.ext hv)
        rw [rotate_of_ne hj] at hx
        exact ⟨j, k, x, hx, he, by rw [← hne j.1 hjv]; exact hd⟩
    · refine ⟨i, ⟨0, c.bucketsNum_pos⟩, x, hx, he, ?_⟩
      rw [← hd, hi]
      rfl

/-! ## Where an insertion puts an entry -/

/-- Delays the wheels can tell apart: up to `B ^ n`, and one more when an outer wheel
takes the first step. -/
def Reaches (c : Config) (D : Nat) : Prop :=
  D ≤ c.bucketsNumPerWheel ^ c.wheelsNum ∨
    (1 < c.wheelsNum ∧ D ≤ c.bucketsNumPerWheel ^ c.wheelsNum + 1)

instance (c : Config) (D : Nat) : Decidable (Reaches c D) :=
  inferInstanceAs (Decidable (_ ∨ _))

/-- The loop of `insertEntryInloop` has reached wheel `i`, for an insertion of `e`
at tick `T` with tick delay `D`. -/
structure Cascade (T D : Nat) (e : ε) (i delay t : Nat) (x : Item c.wheelsNum ε) : Prop where
  t_eq : t = T / c.bucketsNumPerWheel ^ i
  delay_pos : 0 < delay
  nested : Nested i x
  held : x.held = e
  due_eq : due c.bucketsNumPerWheel (t + delay) x = T + D
  delay_le : Reaches c D → delay ≤ c.bucketsNumPerWheel ^ (c.wheelsNum - i) ∨
    (i = 0 ∧ 1 < c.wheelsNum ∧ delay ≤ c.bucketsNumPerWheel ^ c.wheelsNum + 1)
  skipped : ∀ L < i, c.bucketsNumPerWheel ^ L ∣ T → repunit c.bucketsNumPerWheel (L + 2) ≤ D
  aligned : c.bucketsNumPerWheel ^ i ∣ T →
    c.bucketsNumPerWheel ^ i * delay + repunit c.bucketsNumPerWheel i ≤ D ∧
      D < c.bucketsNumPerWheel ^ i * delay + repunit c.bucketsNumPerWheel (i + 1)

/-- `x` in bucket `k` of wheel `i` holds the entry `e` inserted at tick `T` with tick
delay `D`. -/
structure Placed (T D : Nat) (e : ε) (i : Fin c.wheelsNum) (k : Fin c.bucketsNumPerWheel)
    (x : Item c.wheelsNum ε) : Prop where
  nested : Nested i.1 x
  held : x.held = e
  due_eq : Reaches c D →
    due c.bucketsNumPerWheel (T / c.bucketsNumPerWheel ^ i.1 + k.1 + 1) x = T + D
  skipped : ∀ L < i.1, c.bucketsNumPerWheel ^ L ∣ T → repunit c.bucketsNumPerWheel (L + 2) ≤ D
  aligned : Reaches c D → c.bucketsNumPerWheel ^ i.1 ∣ T →
    repunit c.bucketsNumPerWheel (i.1 + 1) ≤ D ∧ D < repunit c.bucketsNumPerWheel (i.1 + 2)

theorem cascade_start {T D : Nat} (hD : 0 < D) (e : ε) :
    Cascade (c := c) T D e 0 D T (.entry e) where
  t_eq := by rw [Nat.pow_zero, Nat.div_one]
  delay_pos := hD
  nested := trivial
  held := rfl
  due_eq := rfl
  delay_le := fun h => h.imp_right fun h => ⟨rfl, h⟩
  skipped := fun _ hL => absurd hL (Nat.not_lt_zero _)
  aligned := fun _ => by
    rw [Nat.pow_zero, Nat.one_mul, repunit_zero, Nat.zero_add, repunit_one]
    omega

/-- One round of the loop. -/
theorem Cascade.next {T D i delay t : Nat} {e : ε} {x : Item c.wheelsNum ε}
    (h : Cascade T D e i delay t x) (hi : i < c.wheelsNum)
    (hd : ¬ delay ≤ c.bucketsNumPerWheel) :
    Cascade T D e (i + 1) ((delay + t % c.bucketsNumPerWheel - 1) / c.bucketsNumPerWheel)
      (t / c.bucketsNumPerWheel) (.callback ⟨i, hi⟩ delay t x) where
  t_eq := by rw [h.t_eq, Nat.div_div_eq_div_mul, pow_succ]
  delay_pos := rest_pos c.bucketsNum_pos (by omega)
  nested := ⟨rfl, h.delay_pos, h.nested⟩
  held := h.held
  due_eq := by rw [due, handDown h.delay_pos, h.due_eq]
  delay_le := fun hD => by
    refine .inl (rest_le c.bucketsNum_pos ?_)
    rw [show c.wheelsNum - (i + 1) + 1 = c.wheelsNum - i by omega]
    rcases h.delay_le hD with hle | ⟨rfl, -, hle⟩
    · exact Nat.le_succ_of_le hle
    · exact hle
  skipped := fun L hL hT => by
    rcases Nat.lt_succ_iff_lt_or_eq.mp hL with hL | rfl
    · exact h.skipped L hL hT
    · -- the delay is too long for a wheel whose period starts now
      obtain ⟨hlow, -⟩ := h.aligned hT
      have hmul : c.bucketsNumPerWheel ^ L * (c.bucketsNumPerWheel + 1)
          ≤ c.bucketsNumPerWheel ^ L * delay := Nat.mul_le_mul_left _ (by omega)
      rw [Nat.mul_add, ← pow_succ, Nat.mul_one] at hmul
      have h₁ := repunit_succ c.bucketsNumPerWheel L
      have h₂ : repunit c.bucketsNumPerWheel (L + 2) = _ := repunit_succ _ (L + 1)
      omega
  aligned := fun hT => by
    have hdvd : c.bucketsNumPerWheel ^ i ∣ T :=
      Nat.dvd_trans (Nat.pow_dvd_pow _ (Nat.le_succ i)) hT
    have hmod : t % c.bucketsNumPerWheel = 0 := by
      rw [h.t_eq]
      refine Nat.mod_eq_zero_of_dvd (Nat.dvd_div_of_mul_dvd ?_)
      rw [← pow_succ]
      exact hT
    exact aligned_step c.bucketsNum_pos h.delay_pos hmod (h.aligned hdvd)

/-- The wheel that takes the item: a bucket for its delay. -/
theorem Cascade.placed {T D i delay t : Nat} {e : ε} {x : Item c.wheelsNum ε}
    (h : Cascade T D e i delay t x) (hi : i < c.wheelsNum)
    (hd : delay ≤ c.bucketsNumPerWheel) (hk : delay - 1 < c.bucketsNumPerWheel) :
    Placed T D e ⟨i, hi⟩ ⟨delay - 1, hk⟩ x where
  nested := h.nested
  held := h.held
  due_eq := fun _ => by
    have hpos := h.delay_pos
    rw [← h.due_eq, h.t_eq]
    congr 1
    show T / c.bucketsNumPerWheel ^ i + (delay - 1) + 1 = _
    omega
  skipped := h.skipped
  -- the position of the bucket tells how many ticks of the wheels below are left
  aligned := fun _ hT => by
    obtain ⟨hlow, hhigh⟩ := h.aligned hT
    have hpos : c.bucketsNumPerWheel ^ i * 1 ≤ c.bucketsNumPerWheel ^ i * delay :=
      Nat.mul_le_mul_left _ h.delay_pos
    have hmul : c.bucketsNumPerWheel ^ i * delay
        ≤ c.bucketsNumPerWheel ^ i * c.bucketsNumPerWheel := Nat.mul_le_mul_left _ hd
    rw [← pow_succ] at hmul
    have h₁ := repunit_succ c.bucketsNumPerWheel i
    have h₂ : repunit c.bucketsNumPerWheel (i + 2) = _ := repunit_succ _ (i + 1)
    show repunit _ (i + 1) ≤ D ∧ D < repunit _ (i + 2)
    omega

/-- The last wheel takes what is too long for it in its last bucket. -/
theorem Cascade.clamped {T D i delay t : Nat} {e : ε} {x : Item c.wheelsNum ε}
    (h : Cascade T D e i delay t x) (hi : i < c.wheelsNum) (hlast : ¬ i < c.wheelsNum - 1)
    (hd : ¬ delay ≤ c.bucketsNumPerWheel)
    (hk : c.bucketsNumPerWheel - 1 < c.bucketsNumPerWheel) :
    Placed T D e ⟨i, hi⟩ ⟨c.bucketsNumPerWheel - 1, hk⟩ x := by
  have hlong : ¬ Reaches c D := fun hD => by
    rcases h.delay_le hD with hle | ⟨rfl, hn, -⟩
    · rw [show c.wheelsNum - i = 1 by omega, Nat.pow_one] at hle
      exact hd hle
    · omega
  exact ⟨h.nested, h.held, fun hD => absurd hD hlong, h.skipped, fun hD => absurd hD hlong⟩

/-! ## Insertion -/

section

variable [DecidableEq ε]

theorem mem_bucketInsert {bucket : List (Item c.wheelsNum ε)} {x y : Item c.wheelsNum ε} :
    y ∈ bucketInsert bucket x ↔ y ∈ bucket ∨ y = x := by
  cases x with
  | entry e =>
    rw [bucketInsert]
    split
    · rename_i hmem
      refine ⟨Or.inl, ?_⟩
      rintro (h | rfl)
      · exact h
      · exact hmem
    · rw [List.mem_cons, or_comm]
  | callback i delay t x => rw [bucketInsert, List.mem_cons, or_comm]

theorem mem_insertAt {w : TimingWheel c ε} {i j : Fin c.wheelsNum}
    {k l : Fin c.bucketsNumPerWheel} {x y : Item c.wheelsNum ε} :
    y ∈ (w.insertAt i k x).wheels j l ↔ y ∈ w.wheels j l ∨ (j = i ∧ l = k ∧ y = x) := by
  show y ∈ Function.update w.wheels i _ j l ↔ _
  by_cases hj : j = i
  · subst hj
    rw [Function.update_self]
    by_cases hl : l = k
    · subst hl
      rw [Function.update_self, mem_bucketInsert]
      simp
    · rw [Function.update_of_ne hl]
      simp [hl]
  · rw [Function.update_of_ne hj]
    simp [hj]

@[simp] theorem ticksCounter_insertAt (w : TimingWheel c ε) (i : Fin c.wheelsNum)
    (k : Fin c.bucketsNumPerWheel) (x : Item c.wheelsNum ε) :
    (w.insertAt i k x).ticksCounter = w.ticksCounter := rfl

theorem Ordered.insertAt {w : TimingWheel c ε} (h : w.Ordered) {i : Fin c.wheelsNum}
    {k : Fin c.bucketsNumPerWheel} {x : Item c.wheelsNum ε} (hx : Nested i.1 x) :
    (w.insertAt i k x).Ordered := by
  intro j l y hy
  rcases mem_insertAt.mp hy with hy | ⟨rfl, -, rfl⟩
  · exact h j l y hy
  · exact hx

/-- An insertion adds one pending tick. -/
theorem pending_insertAt {cnt : Nat → Nat} {w : TimingWheel c ε} {i : Fin c.wheelsNum}
    {k : Fin c.bucketsNumPerWheel} {x : Item c.wheelsNum ε} {e : ε} {d : Nat} :
    Pending cnt (w.insertAt i k x) e d ↔
      Pending cnt w e d ∨
        (x.held = e ∧ due c.bucketsNumPerWheel (cnt i.1 + k.1 + 1) x = d) := by
  constructor
  · rintro ⟨j, l, y, hy, he, hd⟩
    rcases mem_insertAt.mp hy with hy | ⟨rfl, rfl, rfl⟩
    · exact .inl ⟨j, l, y, hy, he, hd⟩
    · exact .inr ⟨he, hd⟩
  · rintro (⟨j, l, y, hy, he, hd⟩ | ⟨he, hd⟩)
    · exact ⟨j, l, y, mem_insertAt.mpr (.inl hy), he, hd⟩
    · exact ⟨i, k, x, mem_insertAt.mpr (.inr ⟨rfl, rfl, rfl⟩), he, hd⟩

/-- An insertion puts one item in one bucket. -/
theorem insertLoop_spec {T D : Nat} {e : ε} (w : TimingWheel c ε) (m i : Nat)
    (him : i + m = c.wheelsNum) (hm : 0 < m) {delay t : Nat} {x : Item c.wheelsNum ε}
    (h : Cascade T D e i delay t x) :
    ∃ j k y, w.insertLoop m i him delay t x = w.insertAt j k y ∧ Placed T D e j k y := by
  induction m generalizing i delay t x with
  | zero => omega
  | succ m ih =>
    rw [insertLoop]
    by_cases hd : delay ≤ c.bucketsNumPerWheel
    · rw [dif_pos hd]
      exact ⟨_, _, _, rfl, h.placed (by omega) hd _⟩
    · rw [dif_neg hd]
      by_cases hlast : i < c.wheelsNum - 1
      · rw [if_pos hlast]
        exact ih (i + 1) _ (by omega) (h.next (by omega) hd)
      · rw [if_neg hlast]
        have hm0 : m = 0 := by omega
        subst hm0
        exact ⟨_, _, _, rfl, h.clamped (by omega) hlast hd _⟩

theorem tickDelay_pos (c : Config) (delay : Nat) : 0 < tickDelay c delay := by
  have hdiv : (0 : ℚ) ≤ delay / c.ticksInterval :=
    div_nonneg (Nat.cast_nonneg delay) c.interval_pos.le
  exact Nat.floor_pos.mpr (by linarith)

theorem insertEntryInloop_spec (w : TimingWheel c ε) (delay : Nat) (e : ε) :
    ∃ i k x, w.insertEntryInloop delay e = w.insertAt i k x ∧
      Placed w.ticksCounter (tickDelay c delay) e i k x :=
  insertLoop_spec w _ _ _ c.wheelsNum_pos (cascade_start (tickDelay_pos c delay) e)

/-- An insertion keeps the order and adds one pending tick to its own entry. -/
theorem pending_insertEntryInloop {w : TimingWheel c ε} (hw : w.Ordered) (delay : Nat) (e : ε) :
    (w.insertEntryInloop delay e).Ordered ∧
      (w.insertEntryInloop delay e).ticksCounter = w.ticksCounter ∧
      ∃ (i : Fin c.wheelsNum) (k : Fin c.bucketsNumPerWheel) (x : Item c.wheelsNum ε),
        Placed w.ticksCounter (tickDelay c delay) e i k x ∧
        ∀ cnt e' d, Pending cnt (w.insertEntryInloop delay e) e' d ↔
          Pending cnt w e' d ∨
            (e = e' ∧ due c.bucketsNumPerWheel (cnt i.1 + k.1 + 1) x = d) := by
  obtain ⟨i, k, x, heq, hx⟩ := insertEntryInloop_spec w delay e
  rw [heq]
  refine ⟨hw.insertAt hx.nested, rfl, i, k, x, hx, fun cnt e' d => ?_⟩
  rw [pending_insertAt, hx.held]

/-! ## Insertions during a tick -/

/-- During tick `t`, when the wheels below `p` have had their turn. -/
def rotationsIn (c : Config) (t p i : Nat) : Nat :=
  if i < p then t / c.bucketsNumPerWheel ^ i else (t - 1) / c.bucketsNumPerWheel ^ i

/-- Between ticks. -/
def rotations (c : Config) (t i : Nat) : Nat := t / c.bucketsNumPerWheel ^ i

/-- An insertion with tick delay `D` made during tick `t` goes to wheel `L`, which has
yet to rotate in that tick. -/
def Early (c : Config) (t D L : Nat) : Prop :=
  1 ≤ L ∧ L < c.wheelsNum ∧ c.bucketsNumPerWheel ^ L ∣ t ∧
    repunit c.bucketsNumPerWheel (L + 1) ≤ D ∧ D < repunit c.bucketsNumPerWheel (L + 2)

instance (c : Config) (t D L : Nat) : Decidable (Early c t D L) :=
  inferInstanceAs (Decidable (_ ∧ _ ∧ _ ∧ _ ∧ _))

/-- How many ticks too early an insertion made during tick `t` is let go. -/
def advance (c : Config) (t D : Nat) : Nat :=
  ∑ L ∈ Finset.range c.wheelsNum, if Early c t D L then c.bucketsNumPerWheel ^ L else 0

omit [DecidableEq ε] in
/-- The wheel an insertion goes to decides whether it is early. -/
theorem Placed.early_iff {t D : Nat} {e : ε} {i : Fin c.wheelsNum}
    {k : Fin c.bucketsNumPerWheel} {x : Item c.wheelsNum ε} (h : Placed t D e i k x)
    (hD : Reaches c D) (L : Nat) :
    Early c t D L ↔ L = i.1 ∧ 1 ≤ i.1 ∧ c.bucketsNumPerWheel ^ i.1 ∣ t := by
  constructor
  · rintro ⟨hL, hn, hdvd, hlow, hhigh⟩
    rcases Nat.lt_trichotomy L i.1 with hlt | heq | hgt
    · have hskip := h.skipped L hlt hdvd
      omega
    · subst heq
      exact ⟨rfl, hL, hdvd⟩
    · have hle : c.bucketsNumPerWheel ^ i.1 ∣ t :=
        Nat.dvd_trans (Nat.pow_dvd_pow _ hgt.le) hdvd
      obtain ⟨-, hup⟩ := h.aligned hD hle
      have hmono := repunit_mono (B := c.bucketsNumPerWheel) (show i.1 + 2 ≤ L + 1 by omega)
      omega
  · rintro ⟨rfl, hL, hdvd⟩
    obtain ⟨hlow, hhigh⟩ := h.aligned hD hdvd
    exact ⟨hL, i.2, hdvd, hlow, hhigh⟩

omit [DecidableEq ε] in
theorem Placed.advance_eq {t D : Nat} {e : ε} {i : Fin c.wheelsNum}
    {k : Fin c.bucketsNumPerWheel} {x : Item c.wheelsNum ε} (h : Placed t D e i k x)
    (hD : Reaches c D) :
    advance c t D
      = if 1 ≤ i.1 ∧ c.bucketsNumPerWheel ^ i.1 ∣ t then c.bucketsNumPerWheel ^ i.1 else 0 := by
  rw [advance, Finset.sum_eq_single i.1]
  · by_cases hearly : 1 ≤ i.1 ∧ c.bucketsNumPerWheel ^ i.1 ∣ t
    · rw [if_pos hearly, if_pos ((h.early_iff hD i.1).mpr ⟨rfl, hearly⟩)]
    · rw [if_neg hearly, if_neg fun hE => hearly ((h.early_iff hD i.1).mp hE).2]
  · intro L _ hL
    rw [if_neg fun hE => hL ((h.early_iff hD L).mp hE).1]
  · intro hi
    exact absurd (Finset.mem_range.mpr i.2) hi

omit [DecidableEq ε] in
/-- What an insertion made after wheel 0 has rotated in tick `t` is due at. -/
theorem Placed.due_inTick {t D : Nat} (ht : 0 < t) {e : ε} {i : Fin c.wheelsNum}
    {k : Fin c.bucketsNumPerWheel} {x : Item c.wheelsNum ε} (h : Placed t D e i k x)
    (hD : Reaches c D) :
    due c.bucketsNumPerWheel (rotationsIn c t 1 i.1 + k.1 + 1) x = t + D - advance c t D := by
  have hdue := h.due_eq hD
  rw [h.advance_eq hD]
  by_cases hi : 1 ≤ i.1
  · have hdiv : t / c.bucketsNumPerWheel ^ i.1 = (t - 1) / c.bucketsNumPerWheel ^ i.1
        + if c.bucketsNumPerWheel ^ i.1 ∣ t then 1 else 0 := by
      have hsucc := Nat.succ_div (a := t - 1) (b := c.bucketsNumPerWheel ^ i.1)
      rw [Nat.sub_add_cancel ht] at hsucc
      exact hsucc
    rw [rotationsIn, if_neg (by omega)]
    by_cases hdvd : c.bucketsNumPerWheel ^ i.1 ∣ t
    · -- the wheel rotates once more before the tick ends
      have hlater := due_add (B := c.bucketsNumPerWheel) h.nested
        ((t - 1) / c.bucketsNumPerWheel ^ i.1 + k.1 + 1) 1
      rw [show (t - 1) / c.bucketsNumPerWheel ^ i.1 + k.1 + 1 + 1
        = t / c.bucketsNumPerWheel ^ i.1 + k.1 + 1 by rw [hdiv, if_pos hdvd]; omega,
        hdue, Nat.one_mul] at hlater
      rw [if_pos ⟨hi, hdvd⟩]
      omega
    · rw [if_neg hdvd, Nat.add_zero] at hdiv
      rw [if_neg fun hE => hdvd hE.2, ← hdiv, hdue, Nat.sub_zero]
  · rw [rotationsIn, if_pos (by omega), if_neg fun hE => hi hE.1, hdue, Nat.sub_zero]

/-- The insertions a destructor makes after wheel 0 has rotated. -/
theorem runDestructor_spec {w : TimingWheel c ε} (hw : w.Ordered) (ht : 0 < w.ticksCounter)
    (inserts : List (Nat × ε)) {e : ε}
    (hD : ∀ a ∈ inserts, a.2 = e → Reaches c (tickDelay c a.1)) :
    (w.runDestructor inserts).Ordered ∧
      (w.runDestructor inserts).ticksCounter = w.ticksCounter ∧
      ∀ d, Pending (rotationsIn c w.ticksCounter 1) (w.runDestructor inserts) e d ↔
        Pending (rotationsIn c w.ticksCounter 1) w e d ∨
          ∃ a ∈ inserts, a.2 = e ∧ w.ticksCounter + tickDelay c a.1
            - advance c w.ticksCounter (tickDelay c a.1) = d := by
  induction inserts generalizing w with
  | nil => exact ⟨hw, rfl, fun d => by simp [runDestructor]⟩
  | cons a inserts ih =>
    obtain ⟨hw', ht', i, k, x, hx, hpend⟩ := pending_insertEntryInloop hw a.1 a.2
    obtain ⟨hord, hcnt, hrest⟩ :=
      ih hw' (by omega) (fun b hb => hD b (List.mem_cons_of_mem a hb))
    rw [ht'] at hcnt hrest
    refine ⟨hord, hcnt, fun d => ?_⟩
    have hdue : a.2 = e → due c.bucketsNumPerWheel
        (rotationsIn c w.ticksCounter 1 i.1 + k.1 + 1) x
          = w.ticksCounter + tickDelay c a.1 - advance c w.ticksCounter (tickDelay c a.1) :=
      fun hae => hx.due_inTick ht (hD a List.mem_cons_self hae)
    show Pending _ ((w.insertEntryInloop a.1 a.2).runDestructor inserts) e d ↔ _
    rw [hrest d, hpend, or_assoc, List.exists_mem_cons_iff]
    -- the destructor runs within a tick, so its insertions lag as those of a tick do
    have hiff : (a.2 = e ∧ due c.bucketsNumPerWheel
        (rotationsIn c w.ticksCounter 1 i.1 + k.1 + 1) x = d) ↔
        (a.2 = e ∧ w.ticksCounter + tickDelay c a.1
          - advance c w.ticksCounter (tickDelay c a.1) = d) :=
      and_congr_right fun hae => by rw [hdue hae]
    rw [hiff]

/-! ## Destroying a bucket -/

/-- The entries of wheel 0: what is dropped for good is destroyed, and what the
destructors insert is pending. -/
theorem destroyBucket_entries (k : Tick c ε) (tmp : List (Item c.wheelsNum ε))
    (htmp : ∀ x ∈ tmp, Nested 0 x) {w : TimingWheel c ε} (hw : w.Ordered)
    (ht : 0 < w.ticksCounter) {e : ε}
    (hD : ∀ a ∈ (destroyBucket k tmp w).2.flatMap k.dtor, a.2 = e →
      Reaches c (tickDelay c a.1)) :
    (destroyBucket k tmp w).1.Ordered ∧
      (destroyBucket k tmp w).1.ticksCounter = w.ticksCounter ∧
      (∀ d, Pending (rotationsIn c w.ticksCounter 1) (destroyBucket k tmp w).1 e d ↔
        Pending (rotationsIn c w.ticksCounter 1) w e d ∨
          ∃ a ∈ (destroyBucket k tmp w).2.flatMap k.dtor, a.2 = e ∧
            w.ticksCounter + tickDelay c a.1
              - advance c w.ticksCounter (tickDelay c a.1) = d) ∧
      (k.outside e = false → (∀ a ∈ (destroyBucket k tmp w).2.flatMap k.dtor, a.2 ≠ e) →
        (e ∈ (destroyBucket k tmp w).2 ↔
          (∃ x ∈ tmp, x.held = e) ∧ ¬ (destroyBucket k tmp w).1.Holds e)) := by
  induction tmp generalizing w with
  | nil => exact ⟨hw, rfl, fun d => by simp [destroyBucket], fun _ _ => by simp [destroyBucket]⟩
  | cons x tmp ih =>
    have hrest : ∀ y ∈ tmp, Nested 0 y := fun y hy => htmp y (List.mem_cons_of_mem x hy)
    cases x with
    | callback i delay t y => exact (htmp _ List.mem_cons_self).elim
    | entry e' =>
      rw [destroyBucket] at hD ⊢
      by_cases hkeep : k.outside e' = true ∨ (∃ y ∈ tmp, y.held = e') ∨ w.Holds e'
      · rw [if_pos hkeep] at hD ⊢
        obtain ⟨hord, hcnt, hpend, hdes⟩ := ih hrest hw ht hD
        refine ⟨hord, hcnt, hpend, fun hout hno => ?_⟩
        rw [hdes hout hno, List.exists_mem_cons_iff]
        refine ⟨fun h => ⟨.inr h.1, h.2⟩, fun h => ⟨?_, h.2⟩⟩
        rcases h.1 with he | hin
        · -- the reference that kept `e'` alive
          have he' : e' = e := he
          subst he'
          rcases hkeep with hk | hk | hk
          · rw [hout] at hk
            exact absurd hk (by decide)
          · exact hk
          · obtain ⟨d, hd⟩ := (holds_iff_pending _).mp hk
            exact absurd ((holds_iff_pending _).mpr ⟨d, (hpend d).mpr (.inl hd)⟩) h.2
        · exact hin
      · rw [if_neg hkeep] at hD ⊢
        simp only [List.flatMap_cons] at hD ⊢
        obtain ⟨hw', hcnt', hpend'⟩ := runDestructor_spec hw ht (k.dtor e')
          (fun a ha => hD a (List.mem_append_left _ ha))
        obtain ⟨hord, hcnt, hpend, hdes⟩ := ih hrest hw' (by omega)
          (fun a ha => hD a (List.mem_append_right _ ha))
        rw [hcnt'] at hcnt hpend
        refine ⟨hord, hcnt, fun d => ?_, fun hout hno => ?_⟩
        · rw [hpend d, hpend' d, or_assoc]
          simp only [List.mem_append, or_and_right, exists_or]
        · have hnoRest := fun a ha => hno a (List.mem_append_right _ ha)
          rw [List.mem_cons, hdes hout hnoRest, List.exists_mem_cons_iff]
          by_cases hee : e = e'
          · subst hee
            rw [not_or, not_or] at hkeep
            refine ⟨fun _ => ⟨.inl rfl, fun hh => ?_⟩, fun _ => .inl rfl⟩
            obtain ⟨d, hd⟩ := (holds_iff_pending (rotationsIn c w.ticksCounter 1)).mp hh
            rcases (hpend d).mp hd with hd | ⟨a, ha, hae, -⟩
            · rcases (hpend' d).mp hd with hd | ⟨a, ha, hae, -⟩
              · exact hkeep.2.2 ((holds_iff_pending _).mpr ⟨d, hd⟩)
              · exact hno a (List.mem_append_left _ ha) hae
            · exact hnoRest a ha hae
          · refine ⟨?_, ?_⟩
            · rintro (h | h)
              · exact absurd h hee
              · exact ⟨.inr h.1, h.2⟩
            · rintro ⟨h | h, hn⟩
              · exact absurd h.symm hee
              · exact .inr ⟨h, hn⟩

/-- The `CallbackEntry` objects of an outer wheel, released at its rotation number
`r`, move on to the next inner wheel. -/
theorem destroyBucket_callbacks (k : Tick c ε) {i : Nat} (tmp : List (Item c.wheelsNum ε))
    (htmp : ∀ x ∈ tmp, Nested (i + 1) x) {w : TimingWheel c ε} (hw : w.Ordered)
    {cnt : Nat → Nat} {r : Nat} (hcnt : cnt i = r * c.bucketsNumPerWheel) :
    (destroyBucket k tmp w).2 = [] ∧ (destroyBucket k tmp w).1.Ordered ∧
      (destroyBucket k tmp w).1.ticksCounter = w.ticksCounter ∧
      ∀ e d, Pending cnt (destroyBucket k tmp w).1 e d ↔
        Pending cnt w e d ∨
          ∃ x ∈ tmp, x.held = e ∧ due c.bucketsNumPerWheel r x = d := by
  induction tmp generalizing w with
  | nil => exact ⟨rfl, hw, rfl, fun e d => by simp [destroyBucket]⟩
  | cons x tmp ih =>
    have hx := htmp x List.mem_cons_self
    cases x with
    | entry e =>
      -- an outer wheel holds no entry itself
      exact hx.elim
    | callback j delay t y =>
      obtain ⟨hj, hdelay, hy⟩ := hx
      subst hj
      -- the callback puts what it carries into the wheel below
      have hrun : w.runCallback j delay t y = w.insertAt j
          ⟨(delay + t % c.bucketsNumPerWheel - 1) % c.bucketsNumPerWheel,
            Nat.mod_lt _ c.bucketsNum_pos⟩ y := if_pos hdelay
      rw [destroyBucket, hrun]
      obtain ⟨hnil, hord, htc, hpend⟩ := ih
        (fun z hz => htmp z (List.mem_cons_of_mem _ hz)) (hw.insertAt hy)
      refine ⟨hnil, hord, htc, fun e d => ?_⟩
      rw [hpend e d, pending_insertAt, or_assoc, List.exists_mem_cons_iff, hcnt]
      rfl

/-! ## One tick -/

omit [DecidableEq ε] in
/-- Between ticks, what is pending lies ahead. -/
theorem lt_of_pending {w : TimingWheel c ε} (hw : w.Ordered) {t : Nat} {e : ε} {d : Nat}
    (h : Pending (rotations c t) w e d) : t < d := by
  obtain ⟨i, k, x, hx, -, rfl⟩ := h
  have hle := mul_pow_le_due (B := c.bucketsNumPerWheel) (hw i k x hx)
    (rotations c t i.1 + k.1 + 1)
  have hpow : 0 < c.bucketsNumPerWheel ^ i.1 := Nat.pow_pos c.bucketsNum_pos
  have hlt : t < c.bucketsNumPerWheel ^ i.1 * (rotations c t i.1 + 1) :=
    Nat.lt_mul_div_succ t hpow
  have hmul : c.bucketsNumPerWheel ^ i.1 * (rotations c t i.1 + 1)
      ≤ (rotations c t i.1 + k.1 + 1) * c.bucketsNumPerWheel ^ i.1 := by
    rw [Nat.mul_comm]
    exact Nat.mul_le_mul_right _ (by omega)
  omega

/-- The turn of an outer wheel: nothing is destroyed, and every entry stays pending
for the same tick. -/
theorem rotateWheel_outer (k : Tick c ε) {t i : Nat} (ht : 0 < t) (hi : i + 1 < c.wheelsNum)
    {w : TimingWheel c ε} (hw : w.Ordered) :
    (rotateWheel k t ⟨i + 1, hi⟩ (c.bucketsNumPerWheel ^ (i + 1)) w).2 = [] ∧
      (rotateWheel k t ⟨i + 1, hi⟩ (c.bucketsNumPerWheel ^ (i + 1)) w).1.Ordered ∧
      (rotateWheel k t ⟨i + 1, hi⟩ (c.bucketsNumPerWheel ^ (i + 1)) w).1.ticksCounter
        = w.ticksCounter ∧
      ∀ e d, Pending (rotationsIn c t (i + 2))
          (rotateWheel k t ⟨i + 1, hi⟩ (c.bucketsNumPerWheel ^ (i + 1)) w).1 e d ↔
        Pending (rotationsIn c t (i + 1)) w e d := by
  have hdiv := Nat.succ_div (a := t - 1) (b := c.bucketsNumPerWheel ^ (i + 1))
  rw [Nat.sub_add_cancel ht] at hdiv
  have hbelow : ∀ j, j ≠ i + 1 → rotationsIn c t (i + 2) j = rotationsIn c t (i + 1) j := by
    intro j hj
    rw [rotationsIn, rotationsIn]
    by_cases hlt : j < i + 1
    · rw [if_pos hlt, if_pos (by omega)]
    · rw [if_neg hlt, if_neg (by omega)]
  -- this wheel has rotated for the tick, the wheels outside it have not
  have hself : rotationsIn c t (i + 2) (i + 1) = t / c.bucketsNumPerWheel ^ (i + 1) :=
    if_pos (by omega)
  have hself' : rotationsIn c t (i + 1) (i + 1) = (t - 1) / c.bucketsNumPerWheel ^ (i + 1) :=
    if_neg (by omega)
  rw [rotateWheel]
  by_cases hdvd : c.bucketsNumPerWheel ^ (i + 1) ∣ t
  · rw [if_pos (Nat.mod_eq_zero_of_dvd hdvd)]
    rw [if_pos hdvd] at hdiv
    have hperm := k.order_perm (w.wheels ⟨i + 1, hi⟩ ⟨0, c.bucketsNum_pos⟩)
    -- the inner wheel has rotated `B` times as often
    have hinner : rotationsIn c t (i + 2) i
        = t / c.bucketsNumPerWheel ^ (i + 1) * c.bucketsNumPerWheel := by
      rw [rotationsIn, if_pos (by omega)]
      obtain ⟨q, rfl⟩ := hdvd
      rw [Nat.mul_div_cancel_left _ (Nat.pow_pos c.bucketsNum_pos), pow_succ, Nat.mul_assoc,
        Nat.mul_div_cancel_left _ (Nat.pow_pos c.bucketsNum_pos), Nat.mul_comm]
    obtain ⟨hnil, hord, htc, hpend⟩ := destroyBucket_callbacks k
      (k.order (w.wheels ⟨i + 1, hi⟩ ⟨0, c.bucketsNum_pos⟩))
      (fun x hx => hw ⟨i + 1, hi⟩ _ x (hperm.mem_iff.mp hx)) (hw.rotate ⟨i + 1, hi⟩) hinner
    refine ⟨hnil, hord, htc, fun e d => ?_⟩
    rw [hpend e d, pending_rotate _ _ (i := ⟨i + 1, hi⟩) (by rw [hself, hself', hdiv]) hbelow,
      hself]
    simp only [hperm.mem_iff]
  · rw [if_neg fun hmod => hdvd (Nat.dvd_of_mod_eq_zero hmod)]
    rw [if_neg hdvd] at hdiv
    refine ⟨rfl, hw, rfl, fun e d => pending_congr fun j _ => ?_⟩
    by_cases hj : j = i + 1
    · rw [hj, hself, hself']
      exact hdiv
    · exact hbelow j hj

/-- The turns of the outer wheels. -/
theorem tickLoop_outer (k : Tick c ε) {t : Nat} (ht : 0 < t) (m i : Nat)
    (him : i + 1 + m = c.wheelsNum) {w : TimingWheel c ε} (hw : w.Ordered) :
    (tickLoop k t m (i + 1) him (c.bucketsNumPerWheel ^ (i + 1)) w).2 = [] ∧
      (tickLoop k t m (i + 1) him (c.bucketsNumPerWheel ^ (i + 1)) w).1.Ordered ∧
      (tickLoop k t m (i + 1) him (c.bucketsNumPerWheel ^ (i + 1)) w).1.ticksCounter
        = w.ticksCounter ∧
      ∀ e d, Pending (rotations c t)
          (tickLoop k t m (i + 1) him (c.bucketsNumPerWheel ^ (i + 1)) w).1 e d ↔
        Pending (rotationsIn c t (i + 1)) w e d := by
  induction m generalizing i w with
  | zero =>
    refine ⟨rfl, hw, rfl, fun e d => pending_congr fun j hj => ?_⟩
    exact (if_pos (by omega)).symm
  | succ m ih =>
    obtain ⟨hnil, hord, htc, hpend⟩ := rotateWheel_outer (i := i) k ht (by omega) hw
    obtain ⟨hnil', hord', htc', hpend'⟩ := ih (i + 1) (by omega) hord
    rw [tickLoop, ← pow_succ]
    refine ⟨?_, hord', htc'.trans htc, fun e d => (hpend' e d).trans (hpend e d)⟩
    show _ ++ _ = []
    rw [hnil, hnil']
    rfl

omit [DecidableEq ε] in
/-- The rotation of wheel 0 in tick `t` takes off the entries that are pending for it. -/
theorem pending_rotate_first {w : TimingWheel c ε} (hw : w.Ordered) {t : Nat} (ht : 0 < t)
    (hi : 0 < c.wheelsNum) (e : ε) (d : Nat) :
    Pending (rotationsIn c t 0) w e d ↔
      Pending (rotationsIn c t 1) (w.rotate ⟨0, hi⟩) e d ∨
        ((∃ x ∈ w.wheels ⟨0, hi⟩ ⟨0, c.bucketsNum_pos⟩, x.held = e) ∧ t = d) := by
  have hself : rotationsIn c t 1 0 = t := by
    rw [rotationsIn, if_pos Nat.zero_lt_one, Nat.pow_zero, Nat.div_one]
  have hself' : rotationsIn c t 0 0 = t - 1 := by
    rw [rotationsIn, if_neg (Nat.lt_irrefl 0), Nat.pow_zero, Nat.div_one]
  rw [pending_rotate _ (rotationsIn c t 1) (i := ⟨0, hi⟩)
    (by rw [hself, hself']; omega) (fun j hj => ?_)]
  · -- the first wheel holds entries only, and its front bucket is due now
    have hdue : ∀ x ∈ w.wheels ⟨0, hi⟩ ⟨0, c.bucketsNum_pos⟩,
        due c.bucketsNumPerWheel t x = t := by
      intro x hx
      have hn := hw ⟨0, hi⟩ _ x hx
      cases x with
      | entry e => rfl
      | callback j delay t' y => exact hn.elim
    rw [hself]
    refine or_congr_right ⟨?_, ?_⟩
    · rintro ⟨x, hx, he, hd⟩
      exact ⟨⟨x, hx, he⟩, by rw [← hd, hdue x hx]⟩
    · rintro ⟨⟨x, hx, he⟩, rfl⟩
      exact ⟨x, hx, he, hdue x hx⟩
  · have hj0 : j ≠ 0 := hj
    rw [rotationsIn, rotationsIn, if_neg (by omega), if_neg (by omega)]

/-- The turn of wheel 0, which releases the entries themselves. -/
theorem rotateWheel_first (k : Tick c ε) {w : TimingWheel c ε} (hw : w.Ordered)
    (ht : 0 < w.ticksCounter) (hi : 0 < c.wheelsNum) {e : ε}
    (hD : ∀ a ∈ (rotateWheel k w.ticksCounter ⟨0, hi⟩ 1 w).2.flatMap k.dtor, a.2 = e →
      Reaches c (tickDelay c a.1)) :
    (rotateWheel k w.ticksCounter ⟨0, hi⟩ 1 w).1.Ordered ∧
      (rotateWheel k w.ticksCounter ⟨0, hi⟩ 1 w).1.ticksCounter = w.ticksCounter ∧
      (∀ d, d ≠ w.ticksCounter →
        (Pending (rotationsIn c w.ticksCounter 1)
            (rotateWheel k w.ticksCounter ⟨0, hi⟩ 1 w).1 e d ↔
          Pending (rotationsIn c w.ticksCounter 0) w e d ∨
          ∃ a ∈ (rotateWheel k w.ticksCounter ⟨0, hi⟩ 1 w).2.flatMap k.dtor, a.2 = e ∧
            w.ticksCounter + tickDelay c a.1
              - advance c w.ticksCounter (tickDelay c a.1) = d)) ∧
      (k.outside e = false →
        (∀ a ∈ (rotateWheel k w.ticksCounter ⟨0, hi⟩ 1 w).2.flatMap k.dtor, a.2 ≠ e) →
        ¬ Pending (rotationsIn c w.ticksCounter 1)
            (rotateWheel k w.ticksCounter ⟨0, hi⟩ 1 w).1 e w.ticksCounter →
        (e ∈ (rotateWheel k w.ticksCounter ⟨0, hi⟩ 1 w).2 ↔
          Pending (rotationsIn c w.ticksCounter 0) w e w.ticksCounter ∧
            ¬ (rotateWheel k w.ticksCounter ⟨0, hi⟩ 1 w).1.Holds e)) := by
  generalize htt : w.ticksCounter = t at ht hD ⊢
  rw [rotateWheel, if_pos (Nat.mod_one _)] at hD ⊢
  have hperm := k.order_perm (w.wheels ⟨0, hi⟩ ⟨0, c.bucketsNum_pos⟩)
  have htr : (w.rotate ⟨0, hi⟩).ticksCounter = t := htt
  obtain ⟨hord, htc, hpend, hdes⟩ := destroyBucket_entries k
    (k.order (w.wheels ⟨0, hi⟩ ⟨0, c.bucketsNum_pos⟩))
    (fun x hx => hw ⟨0, hi⟩ _ x (hperm.mem_iff.mp hx)) (hw.rotate ⟨0, hi⟩) (by omega) hD
  rw [htr] at htc hpend
  have hrot := pending_rotate_first hw ht hi e
  -- the entries that stay are those of another deadline; the ones due now go unless held elsewhere
  refine ⟨hord, htc, fun d hd => ?_, fun hout hno hlate => ?_⟩
  · rw [hpend d, hrot d]
    refine or_congr_left ⟨.inl, ?_⟩
    rintro (h | ⟨-, h⟩)
    · exact h
    · exact absurd h.symm hd
  · rw [hdes hout hno, hrot t]
    simp only [hperm.mem_iff]
    refine and_congr_left fun _ => ⟨fun h => .inr ⟨h, trivial⟩, ?_⟩
    rintro (h | ⟨h, -⟩)
    · exact absurd ((hpend t).mpr (.inl h)) hlate
    · exact h

/-- The turn of wheel 0, then the turns of the others. -/
theorem tick_eq (w : TimingWheel c ε) (k : Tick c ε) :
    w.tick k =
      let r := rotateWheel k (w.ticksCounter + 1) ⟨0, c.wheelsNum_pos⟩ 1
        { w with ticksCounter := w.ticksCounter + 1 }
      let r' := tickLoop k (w.ticksCounter + 1) (c.wheelsNum - 1) 1
        (by have := c.wheelsNum_pos; omega) (c.bucketsNumPerWheel ^ 1) r.1
      (r'.1, r.2 ++ r'.2) := by
  have hloop : ∀ (m : Nat) (hm : 0 + m = c.wheelsNum) (v : TimingWheel c ε),
      tickLoop k (w.ticksCounter + 1) m 0 hm 1 v
        = let r := rotateWheel k (w.ticksCounter + 1) ⟨0, c.wheelsNum_pos⟩ 1 v
          let r' := tickLoop k (w.ticksCounter + 1) (m - 1) 1
            (by have := c.wheelsNum_pos; omega) (c.bucketsNumPerWheel ^ 1) r.1
          (r'.1, r.2 ++ r'.2) := by
    intro m hm v
    cases m with
    | zero => exact absurd hm (Nat.ne_of_lt c.wheelsNum_pos)
    | succ m =>
      rw [tickLoop, Nat.one_mul, Nat.pow_one]
      rfl
  exact hloop _ _ _

/-- **One tick**: what is pending later stays pending, what the destructors insert
is added, and an entry pending for this tick that nothing else holds is destroyed. -/
theorem tick_spec (k : Tick c ε) {w : TimingWheel c ε} (hw : w.Ordered) {e : ε}
    (hD : ∀ a ∈ (w.tick k).2.flatMap k.dtor, a.2 = e →
      Reaches c (tickDelay c a.1)) :
    (w.tick k).1.Ordered ∧ (w.tick k).1.ticksCounter = w.ticksCounter + 1 ∧
      (∀ d, w.ticksCounter + 1 < d →
        (Pending (rotations c (w.ticksCounter + 1)) (w.tick k).1 e d ↔
          Pending (rotations c w.ticksCounter) w e d ∨
          ∃ a ∈ (w.tick k).2.flatMap k.dtor, a.2 = e ∧
            w.ticksCounter + 1 + tickDelay c a.1
              - advance c (w.ticksCounter + 1) (tickDelay c a.1) = d)) ∧
      (k.outside e = false → (∀ a ∈ (w.tick k).2.flatMap k.dtor, a.2 ≠ e) →
        (e ∈ (w.tick k).2 ↔
          Pending (rotations c w.ticksCounter) w e (w.ticksCounter + 1) ∧
            ¬ (w.tick k).1.Holds e)) := by
  have hv : ({ w with ticksCounter := w.ticksCounter + 1 } : TimingWheel c ε).Ordered := hw
  -- raising the counter alone moves nothing
  have hbefore : ∀ d, Pending (rotationsIn c (w.ticksCounter + 1) 0)
      ({ w with ticksCounter := w.ticksCounter + 1 } : TimingWheel c ε) e d ↔
        Pending (rotations c w.ticksCounter) w e d := by
    intro d
    exact pending_congr (w := w) fun j _ => rfl
  have hfirst := rotateWheel_first k (e := e) hv (Nat.succ_pos _) c.wheelsNum_pos
  rw [tick_eq] at hD ⊢
  dsimp only at hD ⊢
  generalize hr : rotateWheel k (w.ticksCounter + 1) ⟨0, c.wheelsNum_pos⟩ 1
    ({ w with ticksCounter := w.ticksCounter + 1 } : TimingWheel c ε) = r at hD hfirst ⊢
  obtain ⟨hord, htc, hpend, hdes⟩ :=
    hfirst fun a ha => hD a (by rw [List.flatMap_append]; exact List.mem_append_left _ ha)
  obtain ⟨hnil, hord', htc', hpend'⟩ := tickLoop_outer k (Nat.succ_pos w.ticksCounter)
    (c.wheelsNum - 1) 0 (by have := c.wheelsNum_pos; omega) hord
  rw [hnil, List.append_nil]
  -- the outer wheels only hand down, so an entry is held after them if it was before
  have hholds : ∀ v, ((tickLoop k (w.ticksCounter + 1) (c.wheelsNum - 1) 1 v
      (c.bucketsNumPerWheel ^ 1) r.1).1.Holds e ↔ r.1.Holds e) := by
    intro v
    rw [holds_iff_pending (rotations c (w.ticksCounter + 1)),
      holds_iff_pending (rotationsIn c (w.ticksCounter + 1) 1)]
    exact exists_congr fun d => hpend' e d
  refine ⟨hord', htc'.trans htc, fun d hd => ?_, fun hout hno => ?_⟩
  · exact ((hpend' e d).trans (hpend d (Nat.ne_of_gt hd))).trans (or_congr_left (hbefore d))
  · -- whatever is still pending is due later than this tick
    have hlate : ¬ Pending (rotationsIn c (w.ticksCounter + 1) 1) r.1 e (w.ticksCounter + 1) :=
      fun h => absurd (lt_of_pending hord' ((hpend' e _).mpr h)) (Nat.lt_irrefl _)
    rw [hdes hout hno hlate, hholds]
    exact and_congr_left fun _ => hbefore _

end

end TimingWheel

end XiaoNet
