import XiaoNet.Net.TimerSafety

/-!
# When timers run

What a user of timers counts on besides safety: a repeating timer does not run more often than
once in its interval, however late the passes are; the callbacks of a pass come in the order in
which they were due; no timer that is due is passed over.

- `latest`: what has been written to the log since `handleRead` last returned.
- `Punctual`: the law of an entry of the log; `Timely`: of the queue.
- `Restarts`: what `restart` adds up is no time later than the clock can show. Beyond that the sum
  wraps around to a time long past, and the timer runs in every pass.
- `Paced`: the invariant. A timer is due an interval after its last run (`spaced`), which a
  timer of the batch gets back from `restart`.
-/

namespace XiaoNet

open History

universe u

/-- The entries since the last `passed`. -/
def latest (log : List TimerEvent) : List TimerEvent :=
  log.foldl (fun since e => match e with
    | .passed _ => []
    | e => since ++ [e]) []

/-- An interval has gone by since the last run, and what ran before in the same pass was due
before; at the end of a pass every timer of it has run, or was invalidated. -/
def Punctual (before : List TimerEvent) : TimerEvent → Prop
  | .ran t now =>
    (∀ t' now', .ran t' now' ∈ before → t'.id = t.id →
        now'.toInt + t.interval.toInt * 1000 < now.toInt) ∧
      ∀ t' now', .ran t' now' ∈ latest before → now' = now ∧ t'.when ≤ t.when
  | .passed p => ∀ t ∈ p.expired, .ran t p.now ∈ latest before ∨ Invalidated before t.id
  | _ => True

variable {log : List TimerEvent} {e : TimerEvent}

theorem latest_passed (log : List TimerEvent) (p : Pass) : latest (log ++ [.passed p]) = [] := by
  rw [latest, List.foldl_concat]

theorem latest_concat (he : ∀ p, e ≠ .passed p) : latest (log ++ [e]) = latest log ++ [e] := by
  rw [latest, List.foldl_concat]
  cases e with
  | passed p => exact absurd rfl (he p)
  | _ => rfl

/-- An entry that is no run. -/
theorem mem_ran_concat {t : Timer} {now : TimePoint} (he : ∀ t now, e ≠ .ran t now) :
    .ran t now ∈ log ++ [e] ↔ .ran t now ∈ log := by
  rw [List.mem_append, List.mem_singleton]
  exact or_iff_left fun heq => he t now heq.symm

theorem latest_reinserted (l : List Timer) {t : Timer} {now : TimePoint} :
    (.ran t now ∈ log ++ l.map .reinserted ↔ .ran t now ∈ log) ∧
      (.ran t now ∈ latest (log ++ l.map .reinserted) ↔ .ran t now ∈ latest log) := by
  induction l generalizing log with
  | nil => simp
  | cons b l ih =>
    have hsplit : log ++ (b :: l).map .reinserted
        = log ++ [.reinserted b] ++ l.map .reinserted := by
      rw [List.append_assoc]
      rfl
    obtain ⟨hlog, hlatest⟩ := @ih (log ++ [.reinserted b])
    rw [hsplit]
    refine ⟨hlog.trans (mem_ran_concat (by rintro t now ⟨⟩)), hlatest.trans ?_⟩
    rw [latest_concat (by rintro p ⟨⟩)]
    exact mem_ran_concat (by rintro t now ⟨⟩)

theorem each_punctual_reinserted {l : List Timer} (h : Each Punctual log) :
    Each Punctual (log ++ l.map .reinserted) := by
  induction l generalizing log with
  | nil => simpa using h
  | cons b l ih =>
    have hsplit : log ++ (b :: l).map .reinserted
        = log ++ [.reinserted b] ++ l.map .reinserted := by
      rw [List.append_assoc]
      rfl
    rw [hsplit]
    exact ih (each_concat.mpr ⟨h, trivial⟩)

namespace TimerQueue

variable {P : PriorityQueue.{0, 0, u} Timer.when} {s s' : TimerQueue P}

structure Timely (s : TimerQueue P) : Prop where
  punctual : Each Punctual s.log
  /-- The next pass takes off every timer that is due. -/
  taken : s.pass = none → ∀ now, ∀ t ∈ P.elems (s.step (.handleRead now)).timers, now ≤ t.when

/-- At the end of a pass no interval is too long to be counted from the time of the pass. -/
def Restarts (s : TimerQueue P) : Op → Prop
  | .resetExpired _ =>
    ∀ p ∈ s.pass, ∀ t ∈ p.expired, t.id ∈ s.timerIdSet → t.isRepeat = true →
      t.interval.toInt * 1000 < 2 ^ 63 ∧ p.now.toInt + t.interval.toInt * 1000 < 2 ^ 63
  | _ => True

instance (s : TimerQueue P) : (op : Op) → Decidable (s.Restarts op)
  | .resetExpired _ => inferInstanceAs (Decidable (∀ p ∈ _, _))
  | .addTimer _ _ | .addTimerInLoop _ _ | .invalidateTimer _ | .handleRead _ | .callback
  | .reset _ => inferInstanceAs (Decidable True)

structure Paced (s : TimerQueue P) : Prop where
  punctual : Each Punctual s.log
  /-- A timer is due an interval after it last ran. -/
  spaced : ∀ t ∈ P.elems s.timers ++ s.toRun, ∀ t' now', .ran t' now' ∈ s.log → t'.id = t.id →
    now'.toInt + t.interval.toInt * 1000 ≤ t.when.toInt
  past : ∀ p, s.pass = some p → ∀ t ∈ p.expired, t.isRepeat = true →
    ∀ t' now', .ran t' now' ∈ s.log → t'.id = t.id → now' ≤ p.now
  sorted : ∀ p, s.pass = some p → p.toRun.Pairwise fun t t' => t.when ≤ t'.when
  ordered : ∀ p, s.pass = some p → ∀ t' now', .ran t' now' ∈ latest s.log →
    now' = p.now ∧ ∀ t ∈ p.toRun, t'.when ≤ t.when
  idle : s.pass = none → ∀ t' now', .ran t' now' ∉ latest s.log
  done : ∀ p, s.pass = some p → ∀ t ∈ p.expired,
    t ∈ p.toRun ∨ .ran t p.now ∈ latest s.log ∨ Invalidated s.log t.id

theorem getExpired_taken (s : TimerQueue P) (now : TimePoint) :
    ∀ t ∈ P.elems (s.getExpired now).2, now ≤ t.when := by
  have hlower : PriorityQueue.Lower Timer.when fun t => decide (t.when < now) := by
    intro a b hle hb
    exact decide_eq_true (lt_of_le_of_lt hle (of_decide_eq_true hb))
  obtain ⟨-, -, hleft⟩ :=
    PriorityQueue.popWhile_spec (P := P) hlower (h := s.timers) (Nat.le_refl _)
  intro t ht
  exact not_lt.mp (of_decide_eq_false (hleft t ht))

theorem Paced.timely (h : s.Paced) : s.Timely where
  punctual := h.punctual
  taken := by
    intro hpass now t ht
    simp only [step, hpass] at ht
    exact getExpired_taken s now t ht

theorem paced_new : (new P).Paced where
  punctual := each_nil
  spaced := by simp [new]
  past := by rintro p ⟨⟩
  sorted := by rintro p ⟨⟩
  ordered := by rintro p ⟨⟩
  idle := by simp [new, latest]
  done := by rintro p ⟨⟩

/-! ## Between passes and in the middle of one -/

/-- The alarm and the timers that are not added yet are no part of it. -/
theorem Paced.of_eq (h : s.Paced) (htimers : P.elems s'.timers = P.elems s.timers)
    (hpass : s'.pass = s.pass) (hlog : s'.log = s.log) : s'.Paced := by
  have htoRun : s'.toRun = s.toRun := by rw [toRun, toRun, hpass]
  constructor
  case punctual => exact hlog ▸ h.punctual
  case spaced =>
    rw [htimers, htoRun, hlog]
    exact h.spaced
  case past =>
    rw [hpass, hlog]
    exact h.past
  case sorted =>
    rw [hpass]
    exact h.sorted
  case ordered =>
    rw [hpass, hlog]
    exact h.ordered
  case idle =>
    rw [hpass, hlog]
    exact h.idle
  case done =>
    rw [hpass, hlog]
    exact h.done

/-- An entry that is no run and no end of a pass, and timers that have not run. -/
theorem Paced.record (h : s.Paced) (hlog : s'.log = s.log ++ [e]) (hpass : s'.pass = s.pass)
    (hran : ∀ t now, e ≠ .ran t now) (hpassed : ∀ p, e ≠ .passed p)
    (htimers : ∀ t ∈ P.elems s'.timers, t ∈ P.elems s.timers ∨ ¬ Ran s.log t.id) :
    s'.Paced := by
  have htoRun : s'.toRun = s.toRun := by rw [toRun, toRun, hpass]
  -- the new entry is neither a run nor the end of a pass
  have hmem : ∀ t now, .ran t now ∈ s'.log ↔ .ran t now ∈ s.log := by
    intro t now
    rw [hlog]
    exact mem_ran_concat hran
  have hlatest : ∀ t now, .ran t now ∈ latest s'.log ↔ .ran t now ∈ latest s.log := by
    intro t now
    rw [hlog, latest_concat hpassed]
    exact mem_ran_concat hran
  constructor
  case punctual =>
    rw [hlog]
    refine each_concat.mpr ⟨h.punctual, ?_⟩
    cases e with
    | ran t now => exact absurd rfl (hran t now)
    | passed p => exact absurd rfl (hpassed p)
    | _ => trivial
  case spaced =>
    intro t ht t' now' hin hid
    rw [hmem] at hin
    rw [htoRun] at ht
    rcases List.mem_append.mp ht with hheap | hrun
    · -- a timer that is new in the heap has not run
      rcases htimers t hheap with hold | hnew
      · exact h.spaced t (List.mem_append_left _ hold) t' now' hin hid
      · exact absurd ⟨_, hin, hid⟩ hnew
    · exact h.spaced t (List.mem_append_right _ hrun) t' now' hin hid
  case past =>
    intro p hp t ht hrepeat t' now' hin
    rw [hmem] at hin
    exact h.past p (hpass ▸ hp) t ht hrepeat t' now' hin
  case sorted =>
    rw [hpass]
    exact h.sorted
  case ordered =>
    intro p hp t' now' hin
    rw [hlatest] at hin
    exact h.ordered p (hpass ▸ hp) t' now' hin
  case idle =>
    intro hnone t' now' hin
    rw [hlatest] at hin
    exact h.idle (hpass ▸ hnone) t' now' hin
  case done =>
    intro p hp t ht
    rcases h.done p (hpass ▸ hp) t ht with hrun | hran' | hinv
    · exact .inl hrun
    · exact .inr (.inl ((hlatest _ _).mpr hran'))
    · rw [hlog]
      exact .inr (.inr (invalidated_concat.mpr (.inl hinv)))

theorem paced_addTimerInLoop (h : s.Paced) (hinv : s.Inv) (id : TimerId) (clock : TimePoint) :
    (s.step (.addTimerInLoop id clock)).Paced := by
  simp only [step]
  cases hfind : s.created.find? (·.id = id) with
  | none => exact h
  | some t =>
    have hcreated := List.mem_of_find?_eq_some hfind
    have hnew : ¬ Ran s.log t.id := fun hran =>
      hinv.not_added t hcreated (added_of_ran hinv.lawful hran)
    have hpush : ∀ t' ∈ P.elems (P.push s.timers t), t' ∈ P.elems s.timers ∨ ¬ Ran s.log t'.id := by
      intro t' ht'
      rcases List.mem_cons.mp ((P.elems_push s.timers t).subset ht') with rfl | hold
      · exact .inr hnew
      · exact .inl hold
    simp only [addTimerInLoop]
    split
    · exact h.record (e := .added t) rfl rfl (by rintro t now ⟨⟩) (by rintro p ⟨⟩) hpush
    · exact h.record (e := .added t) rfl rfl (by rintro t now ⟨⟩) (by rintro p ⟨⟩) hpush

/-! ## A pass -/

theorem interval_pos {t : Timer} (h : t.isRepeat = true) : 0 < t.interval.toInt :=
  Int64.lt_iff_toInt_lt.mp (of_decide_eq_true h)

theorem le_of_spaced {a b d : Int} (hd : 0 < d) (h : a + d * 1000 < b) : a ≤ b := by omega

/-- The expired timers come off in order. -/
theorem paced_handleRead (h : s.Paced) (now : TimePoint) : (s.step (.handleRead now)).Paced := by
  simp only [step]
  cases hpass : s.pass with
  | some p => exact h
  | none =>
    obtain ⟨hheld, hexpired⟩ := perm_getExpired hpass now
    have hmem : ∀ t, t ∈ P.elems (s.getExpired now).2 ++ (s.getExpired now).1 →
        t ∈ P.elems s.timers ++ s.toRun := by
      intro t ht
      have hin := hheld.subset ht
      rw [batch_of_none hpass, List.append_nil] at hin
      exact List.mem_append_left _ hin
    constructor
    case punctual => exact h.punctual
    case spaced => exact fun t ht => h.spaced t (hmem t ht)
    case past =>
      -- what has expired is due by now, and it was due an interval after its last run
      intro p hp t ht hrepeat t' now' hin hid
      obtain rfl := Option.some.inj hp
      have hspaced := h.spaced t (hmem t (List.mem_append_right _ ht)) t' now' hin hid
      have hdue := Int64.lt_iff_toInt_lt.mp (hexpired t ht)
      have hpos := interval_pos hrepeat
      exact Int64.le_iff_toInt_le.mpr (le_of_spaced hpos (lt_of_le_of_lt hspaced hdue))
    case sorted =>
      intro p hp
      obtain rfl := Option.some.inj hp
      exact PriorityQueue.popWhile_sorted _ _ _
    case ordered =>
      -- before the pass nothing has run since the last one ended
      intro p hp t' now' hin
      exact absurd hin (h.idle hpass t' now')
    case idle => rintro ⟨⟩
    case done =>
      intro p hp t ht
      obtain rfl := Option.some.inj hp
      exact .inl ht

/-- The pass goes on without running the timer it has come to. -/
theorem Paced.next (h : s.Paced) {now : TimePoint} {expired toRun : List Timer} {t : Timer}
    (hpass : s.pass = some ⟨now, expired, t :: toRun⟩) (hinvalidated : Invalidated s.log t.id) :
    Paced { s with pass := some ⟨now, expired, toRun⟩ } := by
  have htoRun : s.toRun = t :: toRun := toRun_of_some hpass
  constructor
  case punctual => exact h.punctual
  case spaced =>
    intro t' ht'
    refine h.spaced t' ?_
    rw [htoRun]
    exact List.mem_append.mpr ((List.mem_append.mp ht').imp_right (List.mem_cons_of_mem t))
  case past =>
    intro p hp
    obtain rfl := Option.some.inj hp
    exact h.past ⟨now, expired, t :: toRun⟩ hpass
  case sorted =>
    intro p hp
    obtain rfl := Option.some.inj hp
    exact (List.pairwise_cons.mp (h.sorted _ hpass)).2
  case ordered =>
    intro p hp t' now' hin
    obtain rfl := Option.some.inj hp
    obtain ⟨hnow, hle⟩ := h.ordered _ hpass t' now' hin
    exact ⟨hnow, fun t'' ht'' => hle t'' (List.mem_cons_of_mem t ht'')⟩
  case idle => rintro ⟨⟩
  case done =>
    intro p hp t' ht'
    obtain rfl := Option.some.inj hp
    rcases h.done _ hpass t' ht' with hrun | hrest
    · rcases List.mem_cons.mp hrun with rfl | hin
      · exact .inr (.inr hinvalidated)
      · exact .inl hin
    · exact .inr hrest

/-- The timer it has come to is run: it is due, and later than what has run in this pass. -/
theorem Paced.run (h : s.Paced) (hinv : s.Inv) {now : TimePoint} {expired toRun : List Timer}
    {t : Timer} (hpass : s.pass = some ⟨now, expired, t :: toRun⟩) :
    Paced { s with pass := some ⟨now, expired, toRun⟩, log := s.log ++ [.ran t now] } := by
  have htoRun : s.toRun = t :: toRun := toRun_of_some hpass
  have hbatch : s.batch = expired := batch_of_some hpass
  have hsorted := List.pairwise_cons.mp (h.sorted _ hpass)
  have hordered := h.ordered _ hpass
  have hexpired : t ∈ expired := (hinv.suffix _ hpass).subset List.mem_cons_self
  have hdue : t.when < now := hinv.due _ hpass t hexpired
  have hlatest : latest (s.log ++ [.ran t now]) = latest s.log ++ [.ran t now] :=
    latest_concat (by rintro p ⟨⟩)
  have hsplit : ∀ t' now', .ran t' now' ∈ s.log ++ [.ran t now] →
      .ran t' now' ∈ s.log ∨ t' = t ∧ now' = now := by
    intro t' now' hin
    rcases List.mem_append.mp hin with hold | hnew
    · exact .inl hold
    · obtain ⟨rfl, rfl⟩ := TimerEvent.ran.inj (List.mem_singleton.mp hnew)
      exact .inr ⟨rfl, rfl⟩
  constructor
  case punctual =>
    refine each_concat.mpr ⟨h.punctual, fun t' now' hin hid => ?_, fun t' now' hin => ?_⟩
    · have hspaced := h.spaced t (by rw [htoRun]; exact List.mem_append_right _ List.mem_cons_self)
        t' now' hin hid
      exact lt_of_le_of_lt hspaced (Int64.lt_iff_toInt_lt.mp hdue)
    · obtain ⟨hnow, hle⟩ := hordered t' now' hin
      exact ⟨hnow, hle t List.mem_cons_self⟩
  case spaced =>
    intro t' ht' t'' now'' hin hid
    have hheld : t' ∈ P.elems s.timers ++ s.toRun := by
      rw [htoRun]
      exact List.mem_append.mpr ((List.mem_append.mp ht').imp_right (List.mem_cons_of_mem t))
    rcases hsplit t'' now'' hin with hold | ⟨rfl, rfl⟩
    · exact h.spaced t' hheld t'' now'' hold hid
    · -- another timer of this id would be one that is still to come
      have hnodup : ((P.elems s.timers ++ (t'' :: toRun)).map Timer.id).Nodup := by
        have hsub : (P.elems s.timers ++ (t'' :: toRun)).Sublist s.all := by
          rw [all, hbatch]
          exact ((hinv.suffix _ hpass).sublist.append_left _).trans (List.sublist_append_left _ _)
        exact (hsub.map Timer.id).nodup hinv.nodup
      have hperm : (P.elems s.timers ++ (t'' :: toRun)).Perm
          (t'' :: (P.elems s.timers ++ toRun)) := List.perm_middle
      have hcons := (hperm.map Timer.id).nodup hnodup
      rw [List.map_cons, List.nodup_cons] at hcons
      exact absurd (List.mem_map.mpr ⟨t', ht', hid.symm⟩) hcons.1
  case past =>
    intro p hp t' ht' hrepeat t'' now'' hin hid
    obtain rfl := Option.some.inj hp
    rcases hsplit t'' now'' hin with hold | ⟨-, rfl⟩
    · exact h.past _ hpass t' ht' hrepeat t'' now'' hold hid
    · exact le_refl _
  case sorted =>
    intro p hp
    obtain rfl := Option.some.inj hp
    exact hsorted.2
  case ordered =>
    intro p hp t' now' hin
    obtain rfl := Option.some.inj hp
    rw [hlatest] at hin
    rcases List.mem_append.mp hin with hold | hnew
    · obtain ⟨hnow, hle⟩ := hordered t' now' hold
      exact ⟨hnow, fun t'' ht'' => hle t'' (List.mem_cons_of_mem t ht'')⟩
    · obtain ⟨rfl, rfl⟩ := TimerEvent.ran.inj (List.mem_singleton.mp hnew)
      exact ⟨rfl, hsorted.1⟩
  case idle => rintro ⟨⟩
  case done =>
    intro p hp t' ht'
    obtain rfl := Option.some.inj hp
    show _ ∨ .ran t' now ∈ latest (s.log ++ [.ran t now]) ∨ Invalidated (s.log ++ _) t'.id
    rw [hlatest, invalidated_concat]
    rcases h.done _ hpass t' ht' with hrun | hran | hin
    · rcases List.mem_cons.mp hrun with rfl | hlater
      · exact .inr (.inl (List.mem_append_right _ List.mem_cons_self))
      · exact .inl hlater
    · exact .inr (.inl (List.mem_append_left _ hran))
    · exact .inr (.inr (.inl hin))

theorem paced_callback (h : s.Paced) (hinv : s.Inv) : (s.step .callback).Paced := by
  simp only [step]
  split
  case h_2 => exact h
  case h_1 now expired t toRun hpass =>
    split
    case isTrue => exact h.run hinv hpass
    case isFalse hid =>
      refine h.next hpass (hinv.wanted t (List.mem_append_right _ ?_) hid)
      rw [batch_of_some hpass]
      exact (hinv.suffix _ hpass).subset List.mem_cons_self

/-- `restart` adds the interval to the time of the pass. -/
theorem when_restart {t : Timer} {now : TimePoint} (clock : TimePoint) (hrepeat : t.isRepeat = true)
    (hinterval : t.interval.toInt * 1000 < 2 ^ 63)
    (hsum : now.toInt + t.interval.toInt * 1000 < 2 ^ 63) :
    (t.restart now clock).when.toInt = now.toInt + t.interval.toInt * 1000 := by
  have hpos := interval_pos hrepeat
  have hnow := now.toInt_bounds
  have hwhen : (t.restart now clock).when = now + t.interval * 1000 := by
    rw [Timer.restart, hrepeat]
    rfl
  have hthousand : (1000 : Int64).toInt = 1000 := by decide
  have hproduct : (t.interval * 1000).toInt = t.interval.toInt * 1000 := by
    have hfits := Int64.toInt_mul_of_fits (a := t.interval) (b := 1000)
    rw [hthousand] at hfits
    exact hfits (by omega) hinterval
  rw [hwhen, Int64.toInt_add_of_fits (by omega) (by omega), hproduct]

/-- The end of a pass: a repeating timer is due an interval after this pass. -/
theorem paced_reset (h : s.Paced) {now clock : TimePoint} {expired : List Timer}
    (hpass : s.pass = some ⟨now, expired, []⟩) (hr : Reset now clock expired s s')
    (hrestarts : s.Restarts (.resetExpired clock)) (timerfd : Option Alarm) :
    Paced { s' with
      timerfd := timerfd, pass := none, log := s'.log ++ [.passed ⟨now, expired, []⟩] } := by
  have hmem : ∀ t' now', .ran t' now' ∈ s'.log ++ [.passed ⟨now, expired, []⟩] ↔
      .ran t' now' ∈ s.log := by
    intro t' now'
    rw [mem_ran_concat (by rintro t now ⟨⟩), hr.log]
    exact (latest_reinserted _).1
  constructor
  case punctual =>
    refine each_concat.mpr ⟨?_, ?_⟩
    · rw [hr.log]
      exact each_punctual_reinserted h.punctual
    · intro t ht
      rw [hr.log, (log_reinserted _).2.2]
      rcases h.done _ hpass t ht with hrun | hran | hin
      · exact absurd hrun List.not_mem_nil
      · exact .inl ((latest_reinserted _).2.mpr hran)
      · exact .inr hin
  case spaced =>
    intro t ht t' now' hin hid
    rw [hmem] at hin
    have hheap : t ∈ P.elems s'.timers := by simpa [toRun] using ht
    rcases List.mem_append.mp (hr.timers.subset hheap) with hback | hold
    · -- put back by this pass, which is no earlier than its last run
      obtain ⟨t₀, ht₀, hrepeat, hwanted, rfl⟩ := mem_backTimers.mp hback
      have hpast := Int64.le_iff_toInt_le.mp (h.past _ hpass t₀ ht₀ hrepeat t' now' hin hid)
      obtain ⟨hinterval, hsum⟩ := hrestarts _ hpass t₀ ht₀ hwanted hrepeat
      rw [when_restart clock hrepeat hinterval hsum]
      exact Int.add_le_add_right hpast _
    · exact h.spaced t (List.mem_append_left _ hold) t' now' hin hid
  case past => rintro p ⟨⟩
  case sorted => rintro p ⟨⟩
  case ordered => rintro p ⟨⟩
  case idle =>
    intro _ t' now'
    show .ran t' now' ∉ latest (s'.log ++ [.passed ⟨now, expired, []⟩])
    rw [latest_passed]
    exact List.not_mem_nil
  case done => rintro p ⟨⟩

theorem paced_resetExpired (h : s.Paced) (hinv : s.Inv) (clock : TimePoint)
    (hrestarts : s.Restarts (.resetExpired clock)) : (s.step (.resetExpired clock)).Paced := by
  simp only [step]
  split
  case h_2 => exact h
  case h_1 now expired hpass =>
    have hnodup := hinv.numbered.nodup_batch
    rw [batch_of_some hpass] at hnodup
    have hr := resetTimers_spec now clock hnodup s
    obtain ⟨timerfd, harm⟩ := armTop_eq (resetTimers now clock expired s) clock
    rw [harm]
    exact paced_reset h hpass hr hrestarts timerfd

theorem paced_step (h : s.Paced) (hinv : s.Inv) (op : Op) (hrestarts : s.Restarts op) :
    (s.step op).Paced := by
  cases op with
  | addTimer when interval => exact h.of_eq rfl rfl rfl
  | addTimerInLoop id clock => exact paced_addTimerInLoop h hinv id clock
  | invalidateTimer id =>
    exact h.record (e := .invalidated id) rfl rfl (by rintro t now ⟨⟩) (by rintro p ⟨⟩)
      fun t ht => .inl ht
  | handleRead now => exact paced_handleRead h now
  | callback => exact paced_callback h hinv
  | resetExpired clock => exact paced_resetExpired h hinv clock hrestarts
  | reset clock =>
    obtain ⟨timerfd, harm⟩ := armTop_eq { s with timerfd := none } clock
    simp only [step]
    rw [harm]
    exact h.of_eq rfl rfl rfl

/-- **Timely**: in every sequence of operations, whatever the callbacks add and invalidate and
whatever the clock says, a timer does not run again within its interval, the callbacks of a pass
come in the order in which they were due, and a pass leaves out no timer that is due; as long as the
times that the repeating timers are put back with can be told. -/
theorem timely_of_restarts (P : PriorityQueue.{0, 0, u} Timer.when) (ops : List Op)
    (h : Runs.Along step Restarts (new P) ops) : Runs.Always step Timely (new P) ops :=
  (Runs.always_of_along (I := fun s : TimerQueue P => s.Inv ∧ s.Paced)
    (fun s op hi hrestarts => ⟨inv_step s op hi.1, paced_step hi.2 hi.1 op hrestarts⟩)
    ⟨inv_new, paced_new⟩ h).mono fun _ hi => hi.2.timely

/-- A timer of one second in two passes, the second of which is late. -/
theorem timely_of_restarts_late :
    Runs.Always step Timely (new (.ofList Timer.when))
      [.addTimer 1000000000 1000000, .addTimerInLoop 1 0, .handleRead 1000100000, .callback,
        .resetExpired 1000100000, .handleRead 5000000000, .callback, .resetExpired 5000000000] :=
  timely_of_restarts _ _ (by decide)

end TimerQueue

end XiaoNet
