import XiaoNet.Net.TimerSafety

/-!
# The alarm of the timer queue

The `timerfd` is one slot, armed from three places: an insert before the first timer, the end
of a pass, and `reset` after a fork. `Alarmed` says that this is enough: the alarm is never later
than the first timer, but for the 100 microseconds that `howMuchTimeFromNow` asks for at least.

- `InTime`: `when - now` does not overflow. A timer that is due long before the clock, as the sum
  of `runAfter` may be when it has wrapped around, comes out as one that is due in centuries.
- `rings_iff`: what one arming does.
- `armed_…_iff`: when an insert, a pass and `reset` leave the alarm in time.
- `alarmed_iff_inTime`: the alarm in every sequence of operations.
-/

namespace XiaoNet

universe u

/-- A value that `timerfd_settime` takes and that does not disarm. -/
structure Timespec.Normalised (ts : Timespec) : Prop where
  tvSec_nonneg : 0 ≤ ts.tvSec.toInt
  tvNsec_nonneg : 0 ≤ ts.tvNsec.toInt
  tvNsec_lt : ts.tvNsec.toInt < 1000000000
  ne_zero : ts.tvSec.toInt ≠ 0 ∨ ts.tvNsec.toInt ≠ 0

/-- The alarm goes off in time for `when`. -/
structure Alarm.Rings (a : Alarm) (when : TimePoint) : Prop where
  value : a.value.Normalised
  expiration_le : a.expiration ≤ max when.toInt (a.armedAt.toInt + 100 * 1000)

/-- The time left until `when` does not wrap around, or comes out as one of the least that an alarm
is set to. -/
def InTime (when now : TimePoint) : Prop :=
  -2 ^ 63 ≤ when.toInt - now.toInt ∨ when.toInt - now.toInt + 2 ^ 64 < 101 * 1000

instance (when now : TimePoint) : Decidable (InTime when now) :=
  inferInstanceAs (Decidable (_ ∨ _))

/-- The two parts of a number of microseconds. -/
theorem timespec_parts {microSeconds : Int64} (h : 100 ≤ microSeconds.toInt) :
    Timespec.Normalised ⟨microSeconds / 1000000, microSeconds % 1000000 * 1000⟩ ∧
      (microSeconds / 1000000).toInt * 1000000000 + (microSeconds % 1000000 * 1000).toInt
        = microSeconds.toInt * 1000 := by
  -- the division and the remainder of C++ truncate, which is the floor from 0 on
  have hsec : (microSeconds / 1000000).toInt = microSeconds.toInt / 1000000 := by
    rw [Int64.toInt_div_of_ne_right _ _ (by decide)]
    exact Int.tdiv_eq_ediv_of_nonneg (by omega)
  have hmod : (microSeconds % 1000000).toInt = microSeconds.toInt % 1000000 := by
    rw [Int64.toInt_mod]
    exact Int.tmod_eq_emod_of_nonneg (by omega)
  have hthousand : (1000 : Int64).toInt = 1000 := by decide
  -- below 1000000 microseconds the product stays within 64 bits
  have hnsec : (microSeconds % 1000000 * 1000).toInt = microSeconds.toInt % 1000000 * 1000 := by
    have hfits := Int64.toInt_mul_of_fits (a := microSeconds % 1000000) (b := 1000)
    rw [hmod, hthousand] at hfits
    exact hfits (by omega) (by omega)
  rw [hsec, hnsec]
  refine ⟨⟨?_, ?_, ?_, ?_⟩, by omega⟩
  · show 0 ≤ (microSeconds / 1000000).toInt
    rw [hsec]
    omega
  · show 0 ≤ (microSeconds % 1000000 * 1000).toInt
    rw [hnsec]
    omega
  · show (microSeconds % 1000000 * 1000).toInt < 1000000000
    rw [hnsec]
    omega
  · show (microSeconds / 1000000).toInt ≠ 0 ∨ (microSeconds % 1000000 * 1000).toInt ≠ 0
    rw [hsec, hnsec]
    omega

/-- The alarm is set to the microseconds that are left, and to 100 at least. -/
theorem howMuchTimeFromNow_spec (when now : TimePoint) :
    (howMuchTimeFromNow when now).Normalised ∧
      (⟨now, howMuchTimeFromNow when now⟩ : Alarm).expiration
        = now.toInt + max 100 ((when - now).toInt.tdiv 1000) * 1000 := by
  have hmicro : ((when - now) / 1000).toInt = (when - now).toInt.tdiv 1000 :=
    Int64.toInt_div_of_ne_right _ _ (by decide)
  have hhundred : (100 : Int64).toInt = 100 := by decide
  obtain ⟨microSeconds, hleft, heq⟩ : ∃ microSeconds : Int64,
      microSeconds.toInt = max 100 ((when - now).toInt.tdiv 1000) ∧
        howMuchTimeFromNow when now
          = ⟨microSeconds / 1000000, microSeconds % 1000000 * 1000⟩ := by
    refine ⟨_, ?_, rfl⟩
    split
    case isTrue hless =>
      rw [Int64.lt_iff_toInt_lt, hmicro, hhundred] at hless
      rw [hhundred]
      omega
    case isFalse hmore =>
      rw [Int64.lt_iff_toInt_lt, hmicro, hhundred] at hmore
      rw [hmicro]
      omega
  obtain ⟨hvalue, hparts⟩ := timespec_parts (show 100 ≤ microSeconds.toInt by omega)
  rw [heq, ← hleft, ← hparts]
  exact ⟨hvalue, Int.add_assoc _ _ _⟩

/-- Rounding to microseconds never makes the time longer, and takes less than one off. -/
theorem microSeconds_bounds {d : Int} (h : 100 ≤ d.tdiv 1000) :
    101 * 1000 ≤ d + 1000 ∧ d.tdiv 1000 * 1000 ≤ d ∧ d < d.tdiv 1000 * 1000 + 1000 := by
  have hnonneg : 0 ≤ d := by
    by_contra hneg
    have hopp := Int.tdiv_nonneg (a := -d) (b := 1000) (by omega) (by omega)
    rw [Int.neg_tdiv] at hopp
    omega
  rw [Int.tdiv_eq_ediv_of_nonneg hnonneg] at h ⊢
  omega

/-- **Arming**: the alarm is in time for `when` exactly when the time left could be told. -/
theorem rings_iff (when now : TimePoint) :
    Alarm.Rings ⟨now, howMuchTimeFromNow when now⟩ when ↔ InTime when now := by
  obtain ⟨hvalue, hexpiration⟩ := howMuchTimeFromNow_spec when now
  have hwhen := when.toInt_bounds
  have hnow := now.toInt_bounds
  have hrings : Alarm.Rings ⟨now, howMuchTimeFromNow when now⟩ when ↔
      now.toInt + max 100 ((when - now).toInt.tdiv 1000) * 1000
        ≤ max when.toInt (now.toInt + 100 * 1000) := by
    rw [← hexpiration]
    exact ⟨fun h => h.expiration_le, fun h => ⟨hvalue, h⟩⟩
  rw [hrings]
  unfold InTime
  by_cases hshort : (when - now).toInt.tdiv 1000 ≤ 100
  · -- the least alarm is never late, so the difference has not come out as a long time
    refine iff_of_true (by omega) ?_
    by_contra hwraps
    have hlarge := Int64.toInt_sub_of_lt (a := when) (b := now) (by omega)
    rw [Int.tdiv_eq_ediv_of_nonneg (by omega)] at hshort
    omega
  · have hbounds := microSeconds_bounds (d := (when - now).toInt) (by omega)
    by_cases hlower : -2 ^ 63 ≤ when.toInt - now.toInt
    · -- nothing wraps: a difference that is too large would be negative
      have hupper : when.toInt - now.toInt < 2 ^ 63 := by
        by_contra hge
        have hneg := Int64.toInt_sub_of_ge (a := when) (b := now) (by omega)
        omega
      have hexact := Int64.toInt_sub_of_fits hlower hupper
      exact iff_of_true (by omega) (.inl hlower)
    · have hlarge := Int64.toInt_sub_of_lt (a := when) (b := now) (by omega)
      refine iff_of_false (by omega) ?_
      omega

namespace TimerQueue

variable {P : PriorityQueue.{0, 0, u} Timer.when} {s : TimerQueue P}

/-- Between passes: when there are timers, the `timerfd` is armed in time for the first. -/
def Alarmed (s : TimerQueue P) : Prop :=
  s.pass = none → P.elems s.timers ≠ [] →
    ∃ top a, P.top s.timers = some top ∧ s.timerfd = some a ∧ a.Rings top.when

/-- The first of `l` is in time. -/
def FirstInTime (l : List Timer) (now : TimePoint) : Prop :=
  ∀ t ∈ l, (∀ t' ∈ l, t.when ≤ t'.when) → InTime t.when now

instance (l : List Timer) (now : TimePoint) : Decidable (FirstInTime l now) :=
  inferInstanceAs (Decidable (∀ t ∈ l, _ → _))

/-- What the step arms the alarm for, and leaves it armed for between passes, is in time: the timer
that becomes the first, or the first of those that are there and those that are put back. -/
def ArmsInTime (s : TimerQueue P) : Op → Prop
  | .addTimerInLoop id clock =>
    s.pass = none → ∀ t ∈ s.created.find? (·.id = id), s.earliestChanged t = true →
      InTime t.when clock
  | .resetExpired clock =>
    ∀ p ∈ s.pass, p.toRun = [] →
      FirstInTime (s.backTimers p.now clock p.expired ++ P.elems s.timers) clock
  | .reset clock => s.pass = none → FirstInTime (P.elems s.timers) clock
  | _ => True

instance (s : TimerQueue P) : (op : Op) → Decidable (s.ArmsInTime op)
  | .addTimerInLoop _ _ => inferInstanceAs (Decidable (_ → ∀ t ∈ _, _ → _))
  | .resetExpired _ => inferInstanceAs (Decidable (∀ p ∈ _, _ → _))
  | .reset _ => inferInstanceAs (Decidable (_ → _))
  | .addTimer _ _ | .invalidateTimer _ | .handleRead _ | .callback =>
    inferInstanceAs (Decidable True)

theorem alarmed_new : (new P).Alarmed := by
  intro _ hne
  exact absurd P.elems_empty hne

/-- The first timer of the heap is the one with the least `when`. -/
theorem firstInTime_iff {l : List Timer} {h : P.Heap} (hperm : l.Perm (P.elems h))
    (now : TimePoint) :
    FirstInTime l now ↔ ∀ top, P.top h = some top → InTime top.when now := by
  constructor
  · intro hfirst top htop
    refine hfirst top (hperm.symm.subset (P.top_mem _ _ htop)) fun t' ht' => ?_
    exact P.top_le _ _ htop t' (hperm.subset ht')
  · intro htops t ht hleast
    obtain ⟨top, htop⟩ := PriorityQueue.top_isSome (hperm.subset ht)
    have hle := P.top_le _ _ htop t (hperm.subset ht)
    have hge := hleast top (hperm.symm.subset (P.top_mem _ _ htop))
    exact le_antisymm hle hge ▸ htops top htop

/-- `armTop` leaves the alarm in time exactly when it could tell the time left. -/
theorem armed_armTop_iff (s : TimerQueue P) (clock : TimePoint) :
    (P.elems (s.armTop clock).timers ≠ [] → ∃ top a, P.top (s.armTop clock).timers = some top ∧
      (s.armTop clock).timerfd = some a ∧ a.Rings top.when) ↔
      ∀ top, P.top s.timers = some top → InTime top.when clock := by
  unfold armTop
  cases htop : P.top s.timers with
  | none => exact iff_of_true (fun hne => absurd (P.top_eq_none _ htop) hne) nofun
  | some top =>
    have hne : P.elems s.timers ≠ [] := List.ne_nil_of_mem (P.top_mem _ _ htop)
    constructor
    · intro harmed top' htop'
      obtain ⟨top'', a, htop'', hfd, hrings⟩ := harmed hne
      have hsame : top = top'' := Option.some.inj (htop.symm.trans htop'')
      rw [← Option.some.inj htop', ← rings_iff]
      exact Option.some.inj hfd ▸ hsame ▸ hrings
    · intro hin _
      exact ⟨top, _, htop, rfl, (rings_iff top.when clock).mpr (hin top rfl)⟩

/-- A timer that changes the earliest time is the first one from then on. -/
theorem top_when_of_changed {t top : Timer} (hchanged : s.earliestChanged t = true)
    (htop : P.top (P.push s.timers t) = some top) : top.when = t.when := by
  unfold earliestChanged at hchanged
  split at hchanged
  case h_1 hnone =>
    have hmem := (P.elems_push s.timers t).subset (P.top_mem _ _ htop)
    rw [P.top_eq_none _ hnone, List.mem_singleton] at hmem
    rw [hmem]
  case h_2 old hold =>
    rw [PriorityQueue.top_push hold htop]
    exact min_eq_left (le_of_lt (of_decide_eq_true hchanged))

/-- Another timer leaves the first one where it is. -/
theorem top_when_of_not_changed {t top : Timer} (hchanged : s.earliestChanged t = false)
    (htop : P.top (P.push s.timers t) = some top) :
    ∃ old, P.top s.timers = some old ∧ top.when = old.when := by
  unfold earliestChanged at hchanged
  split at hchanged
  case h_1 => cases hchanged
  case h_2 old hold =>
    refine ⟨old, hold, ?_⟩
    rw [PriorityQueue.top_push hold htop]
    exact min_eq_right (not_lt.mp (of_decide_eq_false hchanged))

/-- An insert arms the `timerfd` when the new timer is the first. -/
theorem armed_addTimerInLoop_iff (h : s.Alarmed) (hpass : s.pass = none) (t : Timer)
    (clock : TimePoint) :
    (s.addTimerInLoop t clock).Alarmed ↔ (s.earliestChanged t = true → InTime t.when clock) := by
  have hmem : t ∈ P.elems (P.push s.timers t) :=
    (P.elems_push s.timers t).symm.subset List.mem_cons_self
  obtain ⟨top, htop⟩ : ∃ top, P.top (P.push s.timers t) = some top := PriorityQueue.top_isSome hmem
  have hchanged_eq : earliestChanged { s with timerIdSet := Insert.insert t.id s.timerIdSet } t
      = s.earliestChanged t := rfl
  simp only [addTimerInLoop, hchanged_eq]
  split
  case isTrue hchanged =>
    have hwhen := top_when_of_changed hchanged htop
    constructor
    · intro halarmed _
      obtain ⟨top', a, htop', hfd, hrings⟩ := halarmed hpass (List.ne_nil_of_mem hmem)
      obtain rfl := Option.some.inj (htop.symm.trans htop')
      obtain rfl := Option.some.inj hfd
      rw [hwhen] at hrings
      exact (rings_iff t.when clock).mp hrings
    · intro hin _ _
      exact ⟨top, _, htop, rfl, hwhen ▸ (rings_iff t.when clock).mpr (hin hchanged)⟩
  case isFalse hchanged =>
    -- the alarm is that of the old first timer, which is still the first
    refine iff_of_true (fun _ _ => ?_) fun htrue => absurd htrue hchanged
    obtain ⟨old, hold, hwhen⟩ := top_when_of_not_changed (eq_false_of_ne_true hchanged) htop
    have hne : P.elems s.timers ≠ [] := List.ne_nil_of_mem (P.top_mem _ _ hold)
    obtain ⟨old', a, hold', hfd, hrings⟩ := h hpass hne
    rw [hold] at hold'
    obtain rfl := Option.some.inj hold'
    exact ⟨top, a, htop, hfd, hwhen ▸ hrings⟩

/-- The end of a pass arms the `timerfd` for the first of the timers that are there now. -/
theorem armed_resetExpired_iff (hinv : s.Inv) {now clock : TimePoint} {expired : List Timer}
    (hpass : s.pass = some ⟨now, expired, []⟩) :
    (s.step (.resetExpired clock)).Alarmed ↔ s.ArmsInTime (.resetExpired clock) := by
  have hnodup := hinv.numbered.nodup_batch
  rw [batch_of_some hpass] at hnodup
  have hr := resetTimers_spec now clock hnodup s
  have harms : s.ArmsInTime (.resetExpired clock) ↔
      FirstInTime (s.backTimers now clock expired ++ P.elems s.timers) clock := by
    unfold ArmsInTime
    rw [hpass]
    simp
  rw [harms, firstInTime_iff hr.timers.symm, ← armed_armTop_iff]
  simp only [step, hpass]
  constructor
  · exact fun halarmed => halarmed rfl
  · exact fun harmed _ => harmed

/-- **One step** leaves the alarm in time exactly when what it arms it for is. -/
theorem armed_step_iff (hinv : s.Inv) (h : s.Alarmed) (op : Op) :
    (s.step op).Alarmed ↔ s.ArmsInTime op := by
  -- only an insertion, the end of a pass and `reset` set the alarm
  cases op with
  | addTimer when interval => exact iff_of_true h trivial
  | addTimerInLoop id clock =>
    unfold ArmsInTime
    simp only [step]
    cases hfind : s.created.find? (·.id = id) with
    | none => exact iff_of_true h fun _ t ht => by cases ht
    | some t =>
      have hcreated : Alarmed { s with created := s.created.filter (·.id ≠ id) } := h
      by_cases hpass : s.pass = none
      · rw [armed_addTimerInLoop_iff hcreated hpass t clock]
        constructor
        · intro hin _ t' ht'
          obtain rfl := Option.some.inj ht'
          exact hin
        · exact fun hin => hin hpass t rfl
      · -- in a pass the alarm is set again at its end
        have hpass' : (addTimerInLoop { s with created := s.created.filter (·.id ≠ id) } t
            clock).pass = s.pass := by
          simp only [addTimerInLoop]
          split <;> rfl
        exact iff_of_true (fun hnone => absurd (hpass'.symm.trans hnone) hpass)
          fun hnone => absurd hnone hpass
  | invalidateTimer id => exact iff_of_true h trivial
  | handleRead now =>
    -- a pass begins, or nothing happens
    refine iff_of_true ?_ trivial
    simp only [step]
    split
    · exact h
    · intro hnone
      cases hnone
  | callback =>
    refine iff_of_true ?_ trivial
    simp only [step]
    split
    · split
      · intro hnone
        cases hnone
      · intro hnone
        cases hnone
    · exact h
  | resetExpired clock =>
    cases hpass : s.pass with
    | none =>
      refine iff_of_true ?_ ?_
      · simp only [step, hpass]
        exact h
      · unfold ArmsInTime
        rw [hpass]
        rintro p ⟨⟩
    | some p =>
      obtain ⟨now, expired, toRun⟩ := p
      cases toRun with
      | nil =>
        -- all of the batch has been looked at, the pass ends
        exact armed_resetExpired_iff hinv hpass
      | cons t toRun =>
        refine iff_of_true ?_ ?_
        · simp only [step, hpass]
          exact h
        · unfold ArmsInTime
          rw [hpass]
          rintro p hp hnil
          obtain rfl := Option.some.inj hp
          cases hnil
  | reset clock =>
    have hpass : (armTop { s with timerfd := none } clock).pass = s.pass := by
      obtain ⟨timerfd, harm⟩ := armTop_eq { s with timerfd := none } clock
      rw [harm]
    show ((armTop { s with timerfd := none } clock).pass = none → _) ↔
      (s.pass = none → FirstInTime (P.elems s.timers) clock)
    rw [hpass, firstInTime_iff (List.Perm.refl _),
      ← armed_armTop_iff { s with timerfd := none } clock]
    exact Iff.rfl

/-- **No timer without an alarm**, in every state between two passes that a sequence of operations
reaches, exactly when no operation arms it for a timer of which the time left wraps around. -/
theorem alarmed_iff_inTime (P : PriorityQueue.{0, 0, u} Timer.when) (ops : List Op) :
    Runs.Always step Alarmed (new P) ops ↔ Runs.Along step ArmsInTime (new P) ops := by
  refine Runs.always_iff_along (I := fun s : TimerQueue P => s.Inv ∧ s.Alarmed)
    (H := fun _ _ => True) (fun _ hs => hs.2) ?_ ?_ ⟨inv_new, alarmed_new⟩
    (Runs.along_of_forall (fun _ _ => trivial) _ _)
  · exact fun s op hs _ hin => ⟨inv_step s op hs.1, (armed_step_iff hs.1 hs.2 op).mpr hin⟩
  · exact fun s op hs _ hnot halarmed => hnot ((armed_step_iff hs.1 hs.2 op).mp halarmed)

/-- `runAfter(9223372036.0)`, one second after the clock began: the sum wraps to a time long past,
and the time left until then wraps to 292 years. -/
theorem not_alarmed_wrapped :
    ¬ Runs.Always step Alarmed (new (.ofList Timer.when))
      [.addTimer (1000000000 + 9223372036000000 * 1000) 0, .addTimerInLoop 1 1000000000] := by
  intro h
  obtain ⟨top, a, htop, hfd, hrings⟩ := h.last rfl (by decide)
  obtain rfl := Option.some.inj htop
  obtain rfl := Option.some.inj hfd
  exact absurd hrings.expiration_le (by decide)

end TimerQueue

end XiaoNet
