import XiaoNet.Utils.TimingWheelRuns

/-!
# The size of a timing wheel

The constructor takes as many wheels as `maxTimeout` ticks need, and `insertEntryInloop`
asks for one tick more than the delay.

- `create_spec`: how far the wheels reach. With more than one wheel there is room for the
  additional tick; a single wheel has room for it unless `maxTimeout` is its number of
  buckets.
- `Keeps c delay T`: an entry inserted for `delay` when `ticksCounter` is `T` is held until
  `delay + 1` ticks have passed, whatever happens in the meantime.
- `create_keeps_iff`: the delays up to `maxTimeout` that the wheels keep.
-/

namespace XiaoNet

namespace TimingWheel

/-! ## The loop of the constructor -/

/-- No product in the loop is larger than a `size_t`. -/
def NoOverflow (maxTickNum bucketsNumPerWheel : Nat) : Prop :=
  ∀ n, 0 < n → bucketsNumPerWheel ^ n < maxTickNum → bucketsNumPerWheel ^ (n + 1) < 2 ^ 64

/-- The wheels that the loop counts reach as far as the timeout. -/
theorem le_pow_of_wheelsNumLoop {maxTickNum B fuel ticksNum n m : Nat} (hn : ticksNum ≤ B ^ n)
    (h : wheelsNumLoop maxTickNum B fuel ticksNum n = some m) :
    maxTickNum ≤ B ^ m ∧ n ≤ m ∧ (ticksNum < maxTickNum → n < m) := by
  induction fuel generalizing ticksNum n with
  | zero => cases h
  | succ fuel ih =>
    unfold wheelsNumLoop at h
    split at h
    · have hmul : mulSize ticksNum B ≤ B ^ (n + 1) :=
        calc mulSize ticksNum B ≤ ticksNum * B := Nat.mod_le _ _
          _ ≤ B ^ n * B := Nat.mul_le_mul_right B hn
          _ = B ^ (n + 1) := (Nat.pow_succ B n).symm
      obtain ⟨hle, hnm, -⟩ := ih hmul h
      exact ⟨hle, Nat.le_of_succ_le hnm, fun _ => hnm⟩
    · rename_i hstop
      cases h
      exact ⟨Nat.le_trans (Nat.not_lt.mp hstop) hn, Nat.le_refl _, fun hlt => absurd hlt hstop⟩

/-- Without an overflow the loop ends: the powers it goes through pass `maxTickNum`. -/
theorem wheelsNumLoop_isSome {maxTickNum B : Nat} (hB : 1 < B) (hsize : NoOverflow maxTickNum B)
    (fuel : Nat) {n : Nat} (hn : 0 < n) (hfuel : maxTickNum ≤ fuel + n) :
    ∃ m, wheelsNumLoop maxTickNum B (fuel + 1) (B ^ n) n = some m := by
  induction fuel generalizing n with
  | zero =>
    have hpow : n < B ^ n := Nat.lt_pow_self hB
    exact ⟨n, by rw [wheelsNumLoop, if_neg (by omega)]⟩
  | succ fuel ih =>
    by_cases hgo : maxTickNum > B ^ n
    · have hmul : mulSize (B ^ n) B = B ^ (n + 1) := mulSize_eq (hsize n hn hgo)
      rw [wheelsNumLoop, if_pos hgo, hmul]
      exact ih (Nat.succ_pos n) (by omega)
    · exact ⟨n, by rw [wheelsNumLoop, if_neg hgo]⟩

/-- What the constructor makes when ticks are a second apart. -/
theorem create_spec {maxTimeout B : Nat} (hmax : 1 < maxTimeout) (hB : 1 < B)
    (hsize : NoOverflow maxTimeout B) :
    ∃ c, Config.create maxTimeout 1 B = some c ∧ c.ticksInterval = 1 ∧
      c.bucketsNumPerWheel = B ∧ maxTimeout ≤ B ^ c.wheelsNum ∧
      (B < maxTimeout ↔ 1 < c.wheelsNum) := by
  have hfloor : ⌊(maxTimeout : ℚ) / 1⌋₊ = maxTimeout := by simp
  obtain ⟨m, hloop⟩ := wheelsNumLoop_isSome hB hsize maxTimeout Nat.one_pos (Nat.le_succ _)
  rw [Nat.pow_one] at hloop
  obtain ⟨hle, hpos, hlt⟩ := le_pow_of_wheelsNumLoop (Nat.le_of_eq (Nat.pow_one B).symm) hloop
  refine ⟨⟨1, m, B, by norm_num, hpos, hB⟩, ?_, rfl, rfl, hle, hlt, fun hm => ?_⟩
  · unfold Config.create
    simp only [hfloor, hloop]
    rw [dif_pos ⟨hmax, by norm_num, hB, hpos⟩]
  · -- the first test of the loop
    by_contra hstop
    rw [wheelsNumLoop, if_neg hstop] at hloop
    cases hloop
    exact Nat.lt_irrefl 1 hm

/-- The tick delay of an insertion. -/
theorem tickDelay_one {c : Config} (h : c.ticksInterval = 1) (delay : Nat) :
    tickDelay c delay = delay + 1 := by
  rw [tickDelay, h, div_one]
  exact_mod_cast Nat.floor_natCast (R := ℚ) (delay + 1)

/-! ## What is pending stays pending -/

variable {c : Config} {ε : Type} [DecidableEq ε]

theorem keep_runDestructor {w : TimingWheel c ε} (hw : w.Ordered) (inserts : List (Nat × ε)) :
    (w.runDestructor inserts).Ordered ∧
      (w.runDestructor inserts).ticksCounter = w.ticksCounter ∧
      ∀ cnt e d, Pending cnt w e d → Pending cnt (w.runDestructor inserts) e d := by
  induction inserts generalizing w with
  | nil => exact ⟨hw, rfl, fun _ _ _ h => h⟩
  | cons a inserts ih =>
    obtain ⟨hw', ht', i, k, x, -, hpend⟩ := pending_insertEntryInloop hw a.1 a.2
    obtain ⟨hord, htc, hkeep⟩ := ih hw'
    exact ⟨hord, htc.trans ht', fun cnt e d h => hkeep cnt e d ((hpend cnt e d).mpr (.inl h))⟩

theorem keep_destroyBucket (k : Tick c ε) (tmp : List (Item c.wheelsNum ε))
    (htmp : ∀ x ∈ tmp, Nested 0 x) {w : TimingWheel c ε} (hw : w.Ordered) :
    (destroyBucket k tmp w).1.Ordered ∧
      (destroyBucket k tmp w).1.ticksCounter = w.ticksCounter ∧
      ∀ cnt e d, Pending cnt w e d → Pending cnt (destroyBucket k tmp w).1 e d := by
  induction tmp generalizing w with
  | nil => exact ⟨hw, rfl, fun _ _ _ h => h⟩
  | cons x tmp ih =>
    have hrest : ∀ y ∈ tmp, Nested 0 y := fun y hy => htmp y (List.mem_cons_of_mem x hy)
    cases x with
    | callback i delay t y => exact (htmp _ List.mem_cons_self).elim
    | entry e' =>
      rw [destroyBucket]
      split
      · exact ih hrest hw
      · obtain ⟨hw', ht', hkeep'⟩ := keep_runDestructor hw (k.dtor e')
        obtain ⟨hord, htc, hkeep⟩ := ih hrest hw'
        exact ⟨hord, htc.trans ht', fun cnt e d h => hkeep cnt e d (hkeep' cnt e d h)⟩

/-- A tick lets go only what is pending for it. -/
theorem keep_tick (k : Tick c ε) {w : TimingWheel c ε} (hw : w.Ordered) :
    (w.tick k).1.Ordered ∧ (w.tick k).1.ticksCounter = w.ticksCounter + 1 ∧
      ∀ e d, w.ticksCounter + 1 < d → Pending (rotations c w.ticksCounter) w e d →
        Pending (rotations c (w.ticksCounter + 1)) (w.tick k).1 e d := by
  generalize ht : w.ticksCounter + 1 = t
  have htpos : 0 < t := by omega
  have hv : ({ w with ticksCounter := t } : TimingWheel c ε).Ordered := hw
  have hfirst : ∀ (w' : TimingWheel c ε), rotateWheel k t ⟨0, c.wheelsNum_pos⟩ 1 w' =
      destroyBucket k (k.order (w'.wheels ⟨0, c.wheelsNum_pos⟩ ⟨0, c.bucketsNum_pos⟩))
        (w'.rotate ⟨0, c.wheelsNum_pos⟩) := fun w' => if_pos (Nat.mod_one t)
  obtain ⟨hord, htc, hkeep⟩ := keep_destroyBucket k
    (k.order (w.wheels ⟨0, c.wheelsNum_pos⟩ ⟨0, c.bucketsNum_pos⟩))
    (fun x hx => hw ⟨0, c.wheelsNum_pos⟩ _ x ((k.order_perm _).mem_iff.mp hx))
    (hv.rotate ⟨0, c.wheelsNum_pos⟩)
  obtain ⟨-, hord', htc', hpend'⟩ := tickLoop_outer k htpos (c.wheelsNum - 1) 0
    (by have := c.wheelsNum_pos; omega) hord
  rw [tick_eq]
  simp only [ht, hfirst]
  refine ⟨hord', htc'.trans htc, fun e d hd h => (hpend' e d).mpr (hkeep _ e d ?_)⟩
  -- the entries taken off are due now
  have hbefore : Pending (rotationsIn c t 0) ({ w with ticksCounter := t } : TimingWheel c ε) e d :=
    (pending_congr (w := w) fun j _ => by rw [rotations, rotationsIn]; simp [← ht]).mp h
  rcases (pending_rotate_first hv htpos c.wheelsNum_pos e d).mp hbefore with h | ⟨-, rfl⟩
  · exact h
  · exact absurd hd (Nat.lt_irrefl _)

theorem keep_step {w : TimingWheel c ε} (hw : w.Ordered) (ev : Event c ε) :
    (step w ev).Ordered ∧ w.ticksCounter ≤ (step w ev).ticksCounter ∧
      ∀ e d, (step w ev).ticksCounter < d → Pending (rotations c w.ticksCounter) w e d →
        Pending (rotations c (step w ev).ticksCounter) (step w ev) e d := by
  cases ev with
  | insertEntry delay e' =>
    obtain ⟨hord, htc, i, k, x, -, hpend⟩ := pending_insertEntryInloop hw delay e'
    refine ⟨hord, htc.ge, fun e d _ h => ?_⟩
    show Pending (rotations c (w.insertEntryInloop delay e').ticksCounter) _ e d
    rw [htc]
    exact (hpend _ e d).mpr (.inl h)
  | tick k =>
    obtain ⟨hord, htc, hkeep⟩ := keep_tick k hw
    refine ⟨hord, ?_, fun e d hd h => ?_⟩
    · exact Nat.le_trans (Nat.le_succ _) htc.ge
    · show Pending (rotations c (w.tick k).1.ticksCounter) _ e d
      rw [htc]
      exact hkeep e d (Nat.lt_of_le_of_lt htc.ge hd) h

theorem keep_run {w : TimingWheel c ε} (hw : w.Ordered) (h : List (Event c ε)) :
    (Runs.run step w h).Ordered ∧ w.ticksCounter ≤ (Runs.run step w h).ticksCounter ∧
      ∀ e d, (Runs.run step w h).ticksCounter < d →
        Pending (rotations c w.ticksCounter) w e d →
        Pending (rotations c (Runs.run step w h).ticksCounter) (Runs.run step w h) e d := by
  induction h generalizing w with
  | nil => exact ⟨hw, Nat.le_refl _, fun _ _ _ hp => hp⟩
  | cons ev h ih =>
    obtain ⟨hord, hle, hkeep⟩ := keep_step hw ev
    obtain ⟨hord', hle', hkeep'⟩ := ih hord
    refine ⟨hord', Nat.le_trans hle hle', fun e d hd hp => ?_⟩
    exact hkeep' e d hd (hkeep e d (Nat.lt_of_le_of_lt hle' hd) hp)

theorem ordered_after (h : List (Event c ε)) : (after h).Ordered :=
  (keep_run (fun _ _ _ hx => absurd hx List.not_mem_nil) h).1

/-! ## The delays the wheels keep -/

/-- An entry inserted between ticks for `delay`, when `ticksCounter` is `T`, is held until
`delay + 1` ticks have passed. -/
def Keeps (c : Config) (ε : Type) [DecidableEq ε] (delay T : Nat) : Prop :=
  ∀ (h h' : List (Event c ε)) (e : ε), (after h).ticksCounter = T →
    (after (h ++ .insertEntry delay e :: h')).ticksCounter < T + delay + 1 →
    (after (h ++ .insertEntry delay e :: h')).Holds e

theorem keeps_of_reaches (hsec : c.ticksInterval = 1) {delay : Nat}
    (hD : Reaches c (delay + 1)) (T : Nat) : Keeps c ε delay T := by
  intro h h' e hT hlt
  obtain ⟨hord, htc, i, k, x, hx, hpend⟩ :=
    pending_insertEntryInloop (ordered_after h) delay e
  rw [tickDelay_one hsec] at hx
  rw [hT] at htc hx
  have hnow : Pending (rotations c T) ((after h).insertEntryInloop delay e) e (T + (delay + 1)) :=
    (hpend (rotations c T) e _).mpr (.inr ⟨rfl, hx.due_eq hD⟩)
  rw [after_append] at hlt ⊢
  obtain ⟨-, -, hkeep⟩ := keep_run hord h'
  rw [htc] at hkeep
  exact (holds_iff_pending _).mpr ⟨_, hkeep e _ hlt hnow⟩

/-- A single wheel puts an entry inserted for all its buckets in the last one, as it does
one inserted for a tick less. -/
theorem insertEntryInloop_clamped (hsec : c.ticksInterval = 1) (hone : c.wheelsNum = 1)
    (w : TimingWheel c ε) (e : ε) :
    w.insertEntryInloop c.bucketsNumPerWheel e
      = w.insertEntryInloop (c.bucketsNumPerWheel - 1) e := by
  have hB := c.bucketsNum_gt
  have hloop : ∀ (m : Nat) (hm : 0 + m = c.wheelsNum) (t : Nat) (x : Item c.wheelsNum ε),
      w.insertLoop m 0 hm (c.bucketsNumPerWheel + 1) t x
        = w.insertLoop m 0 hm c.bucketsNumPerWheel t x := by
    intro m hm t x
    obtain rfl : m = 1 := by omega
    rw [insertLoop, dif_neg (by omega), if_neg (by omega), insertLoop, insertLoop,
      dif_pos (Nat.le_refl _)]
  rw [insertEntryInloop, insertEntryInloop, tickDelay_one hsec, tickDelay_one hsec,
    Nat.sub_add_cancel (by omega)]
  exact hloop _ _ _ _

/-- `T` ticks, one insertion and `n` more ticks. -/
def insertOnce (c : Config) {ε : Type} [DecidableEq ε] (T delay : Nat) (e : ε) (n : Nat) :
    List (Event c ε) :=
  List.replicate T (.tick (.plain c ε)) ++
    .insertEntry delay e :: List.replicate n (.tick (.plain c ε))

theorem insertOnce_spec (T delay : Nat) (e : ε) (n : Nat) :
    (after (List.replicate T (.tick (.plain c ε)))).ticksCounter = T ∧
      (after (insertOnce c T delay e n)).ticksCounter = T + n ∧
      inserted (insertOnce c T delay e n) = [⟨e, T, tickDelay c delay, false⟩] := by
  obtain ⟨hins, hT⟩ := plain_ticks e (ordered_after (c := c) (ε := ε) []) T
  have hT' : (after (List.replicate T (.tick (.plain c ε)))).ticksCounter = T :=
    hT.trans (Nat.zero_add T)
  obtain ⟨hord, htc, -⟩ := pending_insertEntryInloop
    (ordered_after (List.replicate T (.tick (.plain c ε)))) delay e
  obtain ⟨hins', hT''⟩ := plain_ticks e hord n
  refine ⟨hT', ?_, ?_⟩
  · rw [insertOnce, after_append, Runs.run_cons]
    refine hT''.trans ?_
    rw [htc, hT']
  · rw [insertOnce, inserted, insertions_append]
    show insertions (after []) _ ++ (made (after _) _ ++
      insertions (insertEntryInloop (after _) _ _) _) = _
    rw [hins, hins', made, hT']
    rfl

theorem not_keeps_clamped [Nonempty ε] (hsec : c.ticksInterval = 1) (hone : c.wheelsNum = 1)
    (T : Nat) : ¬ Keeps c ε c.bucketsNumPerWheel T := by
  intro hkeeps
  obtain ⟨e⟩ := (inferInstance : Nonempty ε)
  have hB := c.bucketsNum_gt
  obtain ⟨hT, htc, -⟩ := insertOnce_spec (c := c) T c.bucketsNumPerWheel e c.bucketsNumPerWheel
  have hheld := hkeeps _ _ e hT (Nat.lt_of_le_of_lt htc.le (Nat.lt_succ_self _))
  -- the same state, by an insertion that is in range
  have hsame : after (insertOnce c T c.bucketsNumPerWheel e c.bucketsNumPerWheel)
      = after (insertOnce c T (c.bucketsNumPerWheel - 1) e c.bucketsNumPerWheel) := by
    rw [insertOnce, insertOnce, after_append, after_append, Runs.run_cons, Runs.run_cons]
    show Runs.run step (insertEntryInloop _ _ _) _ = Runs.run step (insertEntryInloop _ _ _) _
    rw [insertEntryInloop_clamped hsec hone]
  obtain ⟨-, htc', hlog⟩ :=
    insertOnce_spec (c := c) T (c.bucketsNumPerWheel - 1) e c.bucketsNumPerWheel
  rw [tickDelay_one hsec, Nat.sub_add_cancel (by omega)] at hlog
  have hrange : InRange c e
      (inserted (insertOnce c T (c.bucketsNumPerWheel - 1) e c.bucketsNumPerWheel)) := by
    intro a ha _
    rw [hlog] at ha
    obtain rfl := List.mem_singleton.mp ha
    exact .inl (by rw [hone, Nat.pow_one])
  change (after (insertOnce c T c.bucketsNumPerWheel e c.bucketsNumPerWheel)).Holds e at hheld
  rw [hsame, holds_iff_deadline _ e hrange, hlog, htc'] at hheld
  obtain ⟨a, ha, -, hlt⟩ := hheld
  obtain rfl := List.mem_singleton.mp ha
  rw [deadline_between c rfl] at hlt
  exact Nat.lt_irrefl _ hlt

/-- **The size**: the wheels that the constructor makes keep every delay up to `maxTimeout`,
at every value of the counter, except `maxTimeout` itself when it is the number of buckets:
then there is one wheel, and its last bucket is a tick too near. -/
theorem create_keeps_iff {maxTimeout B : Nat} (hmax : 1 < maxTimeout) (hB : 1 < B)
    (hsize : NoOverflow maxTimeout B) :
    ∃ c, Config.create maxTimeout 1 B = some c ∧
      ∀ (ε : Type) [DecidableEq ε] [Nonempty ε] (T delay : Nat), delay ≤ maxTimeout →
        (Keeps c ε delay T ↔ ¬ (delay = B ∧ maxTimeout = B)) := by
  obtain ⟨c, hc, hsec, rfl, hle, hmore⟩ := create_spec hmax hB hsize
  refine ⟨c, hc, fun ε _ _ T delay hdelay => ⟨?_, fun hne => keeps_of_reaches hsec ?_ T⟩⟩
  · rintro hkeeps ⟨rfl, hmaxB⟩
    have hone : c.wheelsNum = 1 := by
      have hpos := c.wheelsNum_pos
      have hnot := mt hmore.mpr (by omega)
      omega
    exact not_keeps_clamped hsec hone T hkeeps
  · by_cases hlt : c.bucketsNumPerWheel < maxTimeout
    · exact .inr ⟨hmore.mp hlt, by omega⟩
    · have hpow : c.bucketsNumPerWheel ^ 1 ≤ c.bucketsNumPerWheel ^ c.wheelsNum :=
        Nat.pow_le_pow_right c.bucketsNum_pos c.wheelsNum_pos
      rw [Nat.pow_one] at hpow
      exact .inl (by omega)

/-- With 100 buckets and a timeout of 250 there are two wheels. -/
theorem create_keeps_two_wheels :
    ∃ c, Config.create 250 1 100 = some c ∧ ∀ T, Keeps c Nat 250 T := by
  have hsize : NoOverflow 250 100 := by
    intro n hn hlt
    have hone : n < 2 := (Nat.pow_lt_pow_iff_right (show 1 < 100 by decide)).mp
      (Nat.lt_trans hlt (by decide))
    obtain rfl : n = 1 := by omega
    decide
  obtain ⟨c, hc, hkeeps⟩ := create_keeps_iff (by decide) (by decide) hsize
  exact ⟨c, hc, fun T => (hkeeps Nat T 250 (by decide)).mpr (by decide)⟩

/-- A timeout of two ticks with two buckets: an entry inserted for two ticks is let go at
the second tick, not the third. -/
theorem create_not_keeps :
    Config.create 2 1 2 = some ⟨1, 1, 2, by decide, by decide, by decide⟩ ∧
      ¬ Keeps ⟨1, 1, 2, by decide, by decide, by decide⟩ Unit 2 0 := by
  constructor
  · unfold Config.create
    norm_num [wheelsNumLoop]
  · intro hkeeps
    have hheld := hkeeps [] [.tick (.plain _ _), .tick (.plain _ _)] () rfl (by decide +kernel)
    revert hheld
    decide +kernel

end TimingWheel

end XiaoNet
