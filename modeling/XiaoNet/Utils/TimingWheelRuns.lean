import XiaoNet.Utils.TimingWheelSpec

/-!
# Histories of a timing wheel

A history is a list of insertions and ticks; a tick may insert entries itself,
from the destructors of the entries it destroys. `insertions` lists all of them
with the tick they are made at and their tick delay.

- `holds_iff_deadline`: the wheels hold an entry exactly until the last of the
  deadlines of its insertions.
- `holds_until_deadline`: for insertions made between ticks the deadline is the
  tick of the insertion plus the delay, and an entry nothing else refers to is
  destroyed at the greatest of them.
- `inTick_deadline_iff`: for insertions made during a tick this holds unless the
  greatest deadline belongs to an `Early` insertion.
-/

namespace XiaoNet

namespace TimingWheel

open Radix

variable {c : Config} {ε : Type} [DecidableEq ε]

/-- An insertion of `entry` when `ticksCounter` is `tick`, with tick delay `delay`;
`inTick` when a destructor makes it during that tick. -/
structure Insertion (ε : Type) where
  entry : ε
  tick : Nat
  delay : Nat
  inTick : Bool
  deriving DecidableEq

/-- The insertion goes to a wheel that has yet to rotate in the tick that makes it. -/
def Insertion.Early (c : Config) (a : Insertion ε) : Prop :=
  a.inTick = true ∧ ∃ L < c.wheelsNum, TimingWheel.Early c a.tick a.delay L

instance (c : Config) (a : Insertion ε) : Decidable (a.Early c) :=
  inferInstanceAs (Decidable (_ ∧ _))

/-- The tick an insertion is let go at. -/
def Insertion.deadline (c : Config) (a : Insertion ε) : Nat :=
  a.tick + a.delay - if a.inTick then advance c a.tick a.delay else 0

/-- The insertions made by one event. -/
def made (w : TimingWheel c ε) : Event c ε → List (Insertion ε)
  | .insertEntry delay e => [⟨e, w.ticksCounter, tickDelay c delay, false⟩]
  | .tick k => ((w.tick k).2.flatMap k.dtor).map fun a =>
      ⟨a.2, w.ticksCounter + 1, tickDelay c a.1, true⟩

/-- The insertions made along a history. -/
def insertions (w : TimingWheel c ε) : List (Event c ε) → List (Insertion ε)
  | [] => []
  | ev :: h => made w ev ++ insertions (step w ev) h

/-- The insertions made along a history by wheels that start empty. -/
def inserted (h : List (Event c ε)) : List (Insertion ε) := insertions (empty c ε) h

/-- The wheels after a history. -/
def after (h : List (Event c ε)) : TimingWheel c ε := Runs.run step (empty c ε) h

theorem insertions_append (w : TimingWheel c ε) (h h' : List (Event c ε)) :
    insertions w (h ++ h') = insertions w h ++ insertions (Runs.run step w h) h' := by
  induction h generalizing w with
  | nil => rfl
  | cons ev h ih =>
    show made w ev ++ insertions (step w ev) (h ++ h') = _
    rw [ih, ← List.append_assoc]
    rfl

theorem after_append (h h' : List (Event c ε)) :
    after (h ++ h') = Runs.run step (after h) h' := Runs.run_append _ _ _

/-! ## Deadlines -/

/-- What is pending for `e` is what the insertions of `e` in `log` ask for. -/
structure Tracks (w : TimingWheel c ε) (e : ε) (log : List (Insertion ε)) : Prop where
  ordered : w.Ordered
  pending : ∀ d, Pending (rotations c w.ticksCounter) w e d ↔
    w.ticksCounter < d ∧ ∃ a ∈ log, a.entry = e ∧ a.deadline c = d

/-- The insertions of `e` stay within the range of the wheels. -/
def InRange (c : Config) (e : ε) (log : List (Insertion ε)) : Prop :=
  ∀ a ∈ log, a.entry = e → Reaches c a.delay

instance (c : Config) (e : ε) (log : List (Insertion ε)) : Decidable (InRange c e log) :=
  inferInstanceAs (Decidable (∀ a ∈ log, a.entry = e → Reaches c a.delay))

omit [DecidableEq ε] in
theorem tracks_empty (e : ε) : Tracks (empty c ε) e [] where
  ordered := fun _ _ _ hx => absurd hx List.not_mem_nil
  pending := fun d => by
    refine ⟨?_, ?_⟩
    · rintro ⟨_, _, _, hx, _⟩
      exact absurd hx List.not_mem_nil
    · rintro ⟨-, a, ha, -⟩
      exact absurd ha List.not_mem_nil

theorem tracks_step {w : TimingWheel c ε} {e : ε} {log : List (Insertion ε)}
    (h : Tracks w e log) (ev : Event c ε) (hD : InRange c e (made w ev)) :
    Tracks (step w ev) e (log ++ made w ev) := by
  cases ev with
  | insertEntry delay e' =>
    -- the new item is due at its own deadline, the rest is as it was
    obtain ⟨hord, htc, i, k, x, hx, hpend⟩ := pending_insertEntryInloop h.ordered delay e'
    refine ⟨hord, fun d => ?_⟩
    show Pending (rotations c (w.insertEntryInloop delay e').ticksCounter)
      (w.insertEntryInloop delay e') e d ↔ (w.insertEntryInloop delay e').ticksCounter < d ∧ _
    rw [htc, hpend, h.pending]
    simp only [List.mem_append, or_and_right, exists_or, and_or_left]
    refine or_congr_right ⟨?_, ?_⟩
    · rintro ⟨rfl, hd⟩
      have hdue := hx.due_eq (hD _ List.mem_cons_self rfl)
      have hpos := tickDelay_pos c delay
      rw [show due c.bucketsNumPerWheel (rotations c w.ticksCounter i.1 + k.1 + 1) x
        = w.ticksCounter + tickDelay c delay from hdue] at hd
      exact ⟨by omega, _, List.mem_cons_self, rfl, hd⟩
    · rintro ⟨-, a, ha, hae, hd⟩
      obtain rfl := List.mem_singleton.mp ha
      have hdue := hx.due_eq (hD _ List.mem_cons_self hae)
      exact ⟨hae, hdue.trans hd⟩
  | tick k =>
    -- what is due later stays, and the destructors may have inserted more
    have hmade : ∀ P : Insertion ε → Prop, (∃ a ∈ made w (.tick k), P a) ↔
        ∃ a ∈ (w.tick k).2.flatMap k.dtor,
          P ⟨a.2, w.ticksCounter + 1, tickDelay c a.1, true⟩ := by
      intro P
      simp only [made, List.mem_map, exists_exists_and_eq_and]
    obtain ⟨hord, htc, hpend, -⟩ := tick_spec k h.ordered (e := e)
      (fun a ha hae => hD _ (List.mem_map_of_mem ha) hae)
    refine ⟨hord, fun d => ?_⟩
    show Pending (rotations c (w.tick k).1.ticksCounter) (w.tick k).1 e d ↔
      (w.tick k).1.ticksCounter < d ∧ _
    rw [htc]
    simp only [List.mem_append, or_and_right, exists_or, hmade]
    constructor
    · intro hp
      have hlt := lt_of_pending hord hp
      refine ⟨hlt, ?_⟩
      rcases (hpend d hlt).mp hp with hp | hp
      · exact .inl ((h.pending d).mp hp).2
      · exact .inr hp
    · rintro ⟨hlt, hlog | hin⟩
      · exact (hpend d hlt).mpr (.inl ((h.pending d).mpr ⟨by omega, hlog⟩))
      · exact (hpend d hlt).mpr (.inr hin)

theorem tracks_run {w : TimingWheel c ε} {e : ε} {log : List (Insertion ε)}
    (hw : Tracks w e log) (h : List (Event c ε)) (hD : InRange c e (insertions w h)) :
    Tracks (Runs.run step w h) e (log ++ insertions w h) := by
  induction h generalizing w log with
  | nil =>
    rw [show insertions w [] = [] from rfl, List.append_nil]
    exact hw
  | cons ev h ih =>
    have hhead := tracks_step hw ev fun a ha => hD a (List.mem_append_left _ ha)
    have hrest := ih hhead fun a ha => hD a (List.mem_append_right _ ha)
    rw [List.append_assoc] at hrest
    exact hrest

theorem tracks_after (h : List (Event c ε)) (e : ε) (hD : InRange c e (inserted h)) :
    Tracks (after h) e (inserted h) :=
  tracks_run (tracks_empty e) h hD

/-- The wheels hold an entry exactly until the last of its deadlines. -/
theorem holds_iff_deadline (h : List (Event c ε)) (e : ε) (hD : InRange c e (inserted h)) :
    (after h).Holds e ↔
      ∃ a ∈ inserted h, a.entry = e ∧ (after h).ticksCounter < a.deadline c := by
  have htr := tracks_after h e hD
  rw [holds_iff_pending (rotations c (after h).ticksCounter)]
  constructor
  · rintro ⟨d, hd⟩
    obtain ⟨hlt, a, ha, hae, rfl⟩ := (htr.pending d).mp hd
    exact ⟨a, ha, hae, hlt⟩
  · rintro ⟨a, ha, hae, hlt⟩
    exact ⟨_, (htr.pending _).mpr ⟨hlt, a, ha, hae, rfl⟩⟩

/-! ## Insertions between ticks -/

omit [DecidableEq ε] in
theorem deadline_between (c : Config) {a : Insertion ε} (h : a.inTick = false) :
    a.deadline c = a.tick + a.delay := by
  rw [Insertion.deadline, h]
  rfl

/-- **Exact release**: an entry that is only inserted between ticks is held exactly
as long as the tick of one of its insertions plus its delay lies ahead, and a tick
destroys it, when nothing else refers to it, exactly when that tick is the greatest
of these sums. -/
theorem holds_until_deadline (h : List (Event c ε)) (e : ε)
    (hbetween : ∀ a ∈ inserted h, a.entry = e → a.inTick = false)
    (hD : InRange c e (inserted h)) :
    ((after h).Holds e ↔
      ∃ a ∈ inserted h, a.entry = e ∧ (after h).ticksCounter < a.tick + a.delay) ∧
    ∀ k : Tick c ε, k.outside e = false → (∀ a ∈ made (after h) (.tick k), a.entry ≠ e) →
      (e ∈ ((after h).tick k).2 ↔
        IsGreatest {d | ∃ a ∈ inserted h, a.entry = e ∧ a.tick + a.delay = d}
          ((after h).ticksCounter + 1)) := by
  have htr := tracks_after h e hD
  -- outside a tick an insertion keeps its deadline exactly
  have hlog : ∀ d, Pending (rotations c (after h).ticksCounter) (after h) e d ↔
      (after h).ticksCounter < d ∧ ∃ a ∈ inserted h, a.entry = e ∧ a.tick + a.delay = d := by
    intro d
    rw [htr.pending]
    refine and_congr_right fun _ => exists_congr fun a => and_congr_right fun ha =>
      and_congr_right fun hae => ?_
    rw [deadline_between c (hbetween a ha hae)]
  refine ⟨?_, fun k hout hno => ?_⟩
  · rw [holds_iff_deadline h e hD]
    refine exists_congr fun a => and_congr_right fun ha => and_congr_right fun hae => ?_
    rw [deadline_between c (hbetween a ha hae)]
  · have hno' : ∀ a ∈ ((after h).tick k).2.flatMap k.dtor, a.2 ≠ e := fun a ha hae =>
      hno _ (List.mem_map_of_mem ha) hae
    obtain ⟨hord, htc, hpend, hdes⟩ := tick_spec k htr.ordered (e := e)
      (fun a ha hae => absurd hae (hno' a ha))
    -- after the tick it is held by the insertions that are still to come due
    have hheld : ((after h).tick k).1.Holds e ↔
        ∃ d, (after h).ticksCounter + 1 < d ∧
          ∃ a ∈ inserted h, a.entry = e ∧ a.tick + a.delay = d := by
      rw [holds_iff_pending (rotations c ((after h).ticksCounter + 1))]
      constructor
      · rintro ⟨d, hd⟩
        have hlt := lt_of_pending hord hd
        rcases (hpend d hlt).mp hd with hd | ⟨a, ha, hae, -⟩
        · exact ⟨d, hlt, ((hlog d).mp hd).2⟩
        · exact absurd hae (hno' a ha)
      · rintro ⟨d, hlt, hd⟩
        exact ⟨d, (hpend d hlt).mpr (.inl ((hlog d).mpr ⟨by omega, hd⟩))⟩
    rw [hdes hout hno', hlog, hheld]
    constructor
    · rintro ⟨⟨-, hmem⟩, hlast⟩
      refine ⟨hmem, fun d hd => ?_⟩
      by_contra hlt
      exact hlast ⟨d, Nat.lt_of_not_le hlt, hd⟩
    · rintro ⟨hmem, hup⟩
      refine ⟨⟨Nat.lt_succ_self _, hmem⟩, ?_⟩
      rintro ⟨d, hlt, hd⟩
      exact absurd (hup hd) (Nat.not_le_of_lt hlt)

/-- A tick whose destructors do nothing. -/
def Tick.plain (c : Config) (ε : Type) : Tick c ε :=
  ⟨id, fun _ => .refl _, fun _ => false, fun _ => []⟩

/-- Two wheels of two buckets, one tick a second. -/
def twoWheels : Config := ⟨1, 2, 2, by decide, by decide, by decide⟩

/-- Inserted at tick 0 for three ticks and at tick 2 for two: let go at tick 4. -/
theorem holds_until_deadline_twice :
    let h : List (Event twoWheels Unit) :=
      [.insertEntry 2 (), .tick (.plain _ _), .tick (.plain _ _), .insertEntry 1 (),
        .tick (.plain _ _)]
    (after h).Holds () ∧ () ∈ ((after h).tick (.plain _ _)).2 := by
  intro h
  obtain ⟨hheld, hdes⟩ := holds_until_deadline h () (by decide +kernel) (by decide +kernel)
  refine ⟨hheld.mpr (by decide +kernel), (hdes (.plain _ _) rfl (by decide +kernel)).mpr ⟨?_, ?_⟩⟩
  · exact ⟨⟨(), 2, 2, false⟩, by decide +kernel, rfl, by decide +kernel⟩
  · rintro d ⟨a, ha, -, rfl⟩
    revert a
    decide +kernel

/-! ## Insertions during a tick -/

omit [DecidableEq ε] in
theorem deadline_of_not_early {a : Insertion ε} (h : ¬ a.Early c) :
    a.deadline c = a.tick + a.delay := by
  rw [Insertion.deadline]
  by_cases hin : a.inTick = true
  · have hzero : advance c a.tick a.delay = 0 := by
      refine Finset.sum_eq_zero fun L hL => if_neg fun hE => h ⟨hin, L, ?_, hE⟩
      exact Finset.mem_range.mp hL
    rw [if_pos hin, hzero, Nat.sub_zero]
  · rw [if_neg hin, Nat.sub_zero]

omit [DecidableEq ε] in
theorem deadline_le (c : Config) (a : Insertion ε) : a.deadline c ≤ a.tick + a.delay :=
  Nat.sub_le _ _

omit [DecidableEq ε] in
theorem deadline_lt_of_early {a : Insertion ε} (h : a.Early c) :
    a.deadline c < a.tick + a.delay := by
  obtain ⟨hin, L, hL, hE⟩ := h
  have hterm : (if TimingWheel.Early c a.tick a.delay L then c.bucketsNumPerWheel ^ L else 0)
      ≤ advance c a.tick a.delay :=
    Finset.single_le_sum (f := fun L => if TimingWheel.Early c a.tick a.delay L then
      c.bucketsNumPerWheel ^ L else 0) (fun _ _ => Nat.zero_le _) (Finset.mem_range.mpr hL)
  rw [if_pos hE] at hterm
  have hpow : 0 < c.bucketsNumPerWheel ^ L := Nat.pow_pos c.bucketsNum_pos
  have hlow := hE.2.2.2.1
  rw [repunit_succ] at hlow
  rw [Insertion.deadline, if_pos hin]
  omega

/-- The counter never runs backwards. -/
theorem ticksCounter_le {w : TimingWheel c ε} {e : ε} {log : List (Insertion ε)}
    (hw : Tracks w e log) (h : List (Event c ε)) (hD : InRange c e (insertions w h)) :
    w.ticksCounter ≤ (Runs.run step w h).ticksCounter := by
  induction h generalizing w log with
  | nil => exact Nat.le_refl _
  | cons ev h ih =>
    have hhead : InRange c e (made w ev) := fun a ha => hD a (List.mem_append_left _ ha)
    have hrest := ih (tracks_step hw ev hhead) fun a ha => hD a (List.mem_append_right _ ha)
    refine Nat.le_trans ?_ hrest
    cases ev with
    | insertEntry delay e' =>
      obtain ⟨-, htc, -⟩ := pending_insertEntryInloop hw.ordered delay e'
      exact htc.ge
    | tick k =>
      obtain ⟨-, htc, -⟩ := tick_spec k hw.ordered (e := e)
        fun a ha hae => hhead _ (List.mem_map_of_mem ha) hae
      exact Nat.le_trans (Nat.le_succ _) htc.ge

theorem made_plain (w : TimingWheel c ε) : made w (.tick (.plain c ε)) = [] := by
  simp [made, Tick.plain]

/-- Plain ticks insert nothing and move the counter on. -/
theorem plain_ticks (e : ε) {w : TimingWheel c ε} (hw : w.Ordered) (m : Nat) :
    insertions w (List.replicate m (.tick (.plain c ε))) = [] ∧
      (Runs.run step w (List.replicate m (.tick (.plain c ε)))).ticksCounter
        = w.ticksCounter + m := by
  induction m generalizing w with
  | zero => exact ⟨rfl, rfl⟩
  | succ m ih =>
    obtain ⟨hord, htick, -⟩ := tick_spec (.plain c ε) hw (e := e) (by simp [Tick.plain])
    obtain ⟨hins, htc⟩ := ih hord
    rw [List.replicate_succ]
    refine ⟨?_, ?_⟩
    · rw [insertions, made_plain]
      exact hins
    · rw [Runs.run_cons]
      refine htc.trans ?_
      rw [htick]
      omega

/-- **Insertions during a tick**: however an entry is inserted, the wheels hold it
from now on exactly until the greatest sum of the tick of an insertion and its delay,
if and only if no early insertion asks for longer than all the others. -/
theorem inTick_deadline_iff (h : List (Event c ε)) (e : ε) (hD : InRange c e (inserted h)) :
    (∀ h', (∀ a ∈ insertions (after h) h', a.entry ≠ e) →
      ((after (h ++ h')).Holds e ↔ ∃ a ∈ inserted h, a.entry = e ∧
        (after (h ++ h')).ticksCounter < a.tick + a.delay)) ↔
    ∀ a ∈ inserted h, a.entry = e → a.Early c → (after h).ticksCounter < a.tick + a.delay →
      ∃ b ∈ inserted h, b.entry = e ∧ ¬ b.Early c ∧ a.tick + a.delay ≤ b.tick + b.delay := by
  have htr := tracks_after h e hD
  -- what holds after a continuation that does not insert `e`
  have hheld : ∀ h', (∀ a ∈ insertions (after h) h', a.entry ≠ e) →
      ((after (h ++ h')).Holds e ↔ ∃ a ∈ inserted h, a.entry = e ∧
        (after (h ++ h')).ticksCounter < a.deadline c) := by
    intro h' hno
    have hall : inserted (h ++ h') = inserted h ++ insertions (after h) h' :=
      insertions_append _ h h'
    rw [holds_iff_deadline (h ++ h') e fun a ha hae => ?_, hall]
    · simp only [List.mem_append, or_and_right, exists_or]
      refine ⟨?_, .inl⟩
      rintro (hin | ⟨a, ha, hae, -⟩)
      · exact hin
      · exact absurd hae (hno a ha)
    · rw [hall] at ha
      rcases List.mem_append.mp ha with ha | ha
      · exact hD a ha hae
      · exact absurd hae (hno a ha)
  constructor
  · intro hexact
    by_contra hbad
    -- an early insertion whose deadline is the greatest of all
    let bad := (inserted h).toFinset.filter fun a => a.entry = e ∧
      (after h).ticksCounter < a.tick + a.delay ∧
      ∀ b ∈ inserted h, b.entry = e → ¬ b.Early c → b.tick + b.delay < a.tick + a.delay
    have hne : bad.Nonempty := by
      simp only [not_forall, not_exists, not_and, Nat.not_le] at hbad
      obtain ⟨a, ha, hae, hearly, hnow, hlow⟩ := hbad
      exact ⟨a, Finset.mem_filter.mpr ⟨List.mem_toFinset.mpr ha, hae, hnow, hlow⟩⟩
    obtain ⟨a, ha, hmax⟩ := Finset.exists_max_image bad (fun a => a.tick + a.delay) hne
    obtain ⟨hmem, hae, hnow, hlow⟩ := Finset.mem_filter.mp ha
    -- one tick before it
    obtain ⟨hins, htc⟩ := plain_ticks e htr.ordered (a.tick + a.delay - 1 - (after h).ticksCounter)
    rw [← after_append] at htc
    have hno : ∀ b ∈ insertions (after h) (List.replicate
        (a.tick + a.delay - 1 - (after h).ticksCounter) (.tick (.plain c ε))), b.entry ≠ e := by
      rw [hins]
      exact fun b hb => absurd hb List.not_mem_nil
    have htime : (after (h ++ List.replicate
        (a.tick + a.delay - 1 - (after h).ticksCounter) (.tick (.plain c ε)))).ticksCounter
          = a.tick + a.delay - 1 := by
      omega
    have hin := (hexact _ hno).mpr ⟨a, List.mem_toFinset.mp hmem, hae, by omega⟩
    obtain ⟨b, hb, hbe, hlt⟩ := (hheld _ hno).mp hin
    rw [htime] at hlt
    have hble := deadline_le c b
    by_cases hbearly : b.Early c
    · have hblt := deadline_lt_of_early hbearly
      have hbbad : b ∈ bad := Finset.mem_filter.mpr ⟨List.mem_toFinset.mpr hb, hbe, by omega,
        fun b' hb' hbe' hn => Nat.lt_of_lt_of_le (hlow b' hb' hbe' hn) (by omega)⟩
      have hle : b.tick + b.delay ≤ a.tick + a.delay := hmax b hbbad
      omega
    · have := hlow b hb hbe hbearly
      omega
  · intro hcover h' hno
    rw [hheld h' hno]
    have hlater : (after h).ticksCounter ≤ (after (h ++ h')).ticksCounter := by
      rw [after_append]
      exact ticksCounter_le htr h' fun a ha hae => absurd hae (hno a ha)
    constructor
    · rintro ⟨a, ha, hae, hlt⟩
      exact ⟨a, ha, hae, Nat.lt_of_lt_of_le hlt (deadline_le c a)⟩
    · rintro ⟨a, ha, hae, hlt⟩
      by_cases hearly : a.Early c
      · obtain ⟨b, hb, hbe, hn, hle⟩ := hcover a ha hae hearly (by omega)
        exact ⟨b, hb, hbe, by rw [deadline_of_not_early hn]; omega⟩
      · exact ⟨a, ha, hae, by rw [deadline_of_not_early hearly]; exact hlt⟩

/-- An entry destroyed at tick 2 whose destructor inserts another one. -/
def reinserting (delay : Nat) : List (Event twoWheels Bool) :=
  [.insertEntry 1 false, .tick (.plain _ _),
    .tick { Tick.plain _ _ with dtor := fun e => if e then [] else [(delay, true)] }]

/-- For two ticks the entry goes to wheel 0: inserted at tick 2, it is held after
tick 3 and let go at tick 4. -/
theorem inTick_deadline_two :
    (after (reinserting 1 ++ [.tick (.plain _ _)])).Holds true ∧
      ¬ (after (reinserting 1 ++ [.tick (.plain _ _), .tick (.plain _ _)])).Holds true := by
  have hexact := (inTick_deadline_iff (reinserting 1) true (by decide +kernel)).mpr
    (by decide +kernel)
  constructor
  · exact (hexact [.tick (.plain _ _)] (by decide +kernel)).mpr (by decide +kernel)
  · rw [hexact [.tick (.plain _ _), .tick (.plain _ _)] (by decide +kernel)]
    decide +kernel

/-- For three ticks it goes to wheel 1, which rotates in that same tick: inserted at
tick 2, let go at tick 3. -/
theorem early_release :
    (⟨true, 2, 3, true⟩ : Insertion Bool) ∈ inserted (reinserting 2) ∧
      3 ≤ twoWheels.bucketsNumPerWheel ^ twoWheels.wheelsNum ∧
      (after (reinserting 2 ++ [.tick (.plain _ _)])).ticksCounter = 3 ∧
      ¬ (after (reinserting 2 ++ [.tick (.plain _ _)])).Holds true := by
  decide +kernel

end TimingWheel

end XiaoNet
