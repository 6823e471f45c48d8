import XiaoNet.Net.TimerSafety

/-!
# A callback that throws

An exception of a timer's callback leaves `handleRead` before it has come to `reset`.
`EventLoop::loop` puts its own flag back, runs the functions for its end and throws the
exception again; it may be called again.

- `TimerLoop`: the queue, the timer whose callback runs, and the queue before the pass.
- `KeepsOthers`: what a callback that throws should leave of the other timers.
- `Settled`: the pass would not put back or run any timer of its batch any more.
- `keepsOthers_iff_settled`: a throw keeps the other timers exactly then. The batch is a local
  variable of `handleRead`, so what is still in it is lost.
-/

namespace XiaoNet

universe u

/-- A timer queue whose callbacks may throw. -/
structure TimerLoop (P : PriorityQueue.{0, 0, u} Timer.when) where
  queue : TimerQueue P
  /-- The timer whose callback runs. -/
  running : Option Timer
  /-- The queue before the pass. -/
  before : TimerQueue P

namespace TimerLoop

open TimerQueue

variable {P : PriorityQueue.{0, 0, u} Timer.when}

def new (P : PriorityQueue.{0, 0, u} Timer.when) : TimerLoop P :=
  ⟨.new P, none, .new P⟩

inductive Act where
  | op (op : Op)
  /-- The callback that runs throws. -/
  | throws

def step (s : TimerLoop P) : Act → TimerLoop P
  | .op (.handleRead now) =>
    match s.queue.pass with
    | none => ⟨s.queue.step (.handleRead now), none, s.queue⟩
    | some _ => s
  | .op .callback =>
    match s.queue.pass with
    | some ⟨_, _, t :: _⟩ =>
      { s with
        queue := s.queue.step .callback
        running := if t.id ∈ s.queue.timerIdSet then some t else none }
    | _ => s
  | .op (.resetExpired clock) =>
    match s.queue.pass with
    | some ⟨_, _, []⟩ =>
      { s with queue := s.queue.step (.resetExpired clock), running := none }
    | _ => s
  | .op (.addTimer when interval) => { s with queue := s.queue.step (.addTimer when interval) }
  | .op (.addTimerInLoop id clock) => { s with queue := s.queue.step (.addTimerInLoop id clock) }
  | .op (.invalidateTimer id) => { s with queue := s.queue.step (.invalidateTimer id) }
  | .op (.reset clock) => { s with queue := s.queue.step (.reset clock) }
  | .throws =>
    match s.running with
    | some _ => { s with queue := { s.queue with pass := none }, running := none }
    | none => s

/-- What the throw of the callback of `t` should leave, when `s` is the state in which it
throws and `s'` the state after it. -/
structure KeepsOthers (t : Timer) (s s' : TimerLoop P) : Prop where
  /-- Another timer that was live, is still wanted and is no one-shot timer that has run. -/
  others : ∀ t' ∈ P.elems s.before.timers, t'.id ∈ s.before.timerIdSet → t' ≠ t →
    t'.id ∈ s'.queue.timerIdSet → (t'.isRepeat = false → ¬ Ran s'.queue.log t'.id) →
      ∃ v ∈ P.elems s'.queue.timers, v.id = t'.id
  /-- A repeating timer that was live and is still wanted. -/
  repeating : ∀ t' ∈ P.elems s.before.timers, t'.id ∈ s.before.timerIdSet →
    t'.id ∈ s'.queue.timerIdSet → t'.isRepeat = true →
      ∃ v ∈ P.elems s'.queue.timers, v.id = t'.id

/-- Every wanted timer of the batch has had its turn and does not repeat. -/
def Settled (q : TimerQueue P) : Prop :=
  ∀ t ∈ q.batch, t.id ∈ q.timerIdSet → t ∉ q.toRun ∧ t.isRepeat = false

instance (q : TimerQueue P) : Decidable (Settled q) :=
  inferInstanceAs (Decidable (∀ t ∈ q.batch, _))

/-! ## What is in the batch -/

structure Inv (s : TimerLoop P) : Prop where
  numbered : s.queue.Numbered
  ran_le : ∀ id, Ran s.queue.log id → id ≤ s.queue.timersCreated
  one_shot : ∀ t ∈ P.elems s.queue.timers ++ s.queue.toRun ++ s.queue.created,
    t.isRepeat = false → ¬ Ran s.queue.log t.id
  suffix : ∀ p, s.queue.pass = some p → p.toRun <:+ p.expired
  ran : ∀ t ∈ s.queue.batch, t ∉ s.queue.toRun → t.id ∈ s.queue.timerIdSet →
    Ran s.queue.log t.id
  running : ∀ t, s.running = some t → t ∈ s.queue.batch ∧ t ∉ s.queue.toRun
  was_there : ∀ t ∈ s.queue.batch, t ∈ P.elems s.before.timers ∧
    (t.id ∈ s.queue.timerIdSet → t.id ∈ s.before.timerIdSet)
  stays : s.queue.pass ≠ none → ∀ t ∈ P.elems s.before.timers,
    t ∈ s.queue.batch ∨ t ∈ P.elems s.queue.timers

theorem inv_new : (new P).Inv where
  numbered := (TimerQueue.inv_new (P := P)).numbered
  ran_le := by simp [new, TimerQueue.new, Ran]
  one_shot := by simp [new, TimerQueue.new, Ran]
  suffix := by simp [new, TimerQueue.new]
  ran := by simp [new, TimerQueue.new, batch]
  running := by simp [new]
  was_there := by simp [new, TimerQueue.new, batch]
  stays := by simp [new, TimerQueue.new]

/-- What a call of the queue changes while a callback runs, or between passes. -/
structure Calls (q q' : TimerQueue P) : Prop where
  numbered : q'.Numbered
  pass : q'.pass = q.pass
  created_le : q.timersCreated ≤ q'.timersCreated
  timers : ∀ t ∈ P.elems q.timers, t ∈ P.elems q'.timers
  timerIdSet : ∀ t ∈ q.batch, t.id ∈ q'.timerIdSet → t.id ∈ q.timerIdSet
  log : ∀ id, Ran q'.log id ↔ Ran q.log id
  origin : ∀ t ∈ P.elems q'.timers ++ q'.created,
    t ∈ P.elems q.timers ++ q.created ∨ q.timersCreated < t.id

variable {s : TimerLoop P} {q q' : TimerQueue P}

theorem Calls.batch (h : Calls q q') : q'.batch = q.batch := by
  unfold TimerQueue.batch
  rw [h.pass]

theorem Calls.toRun (h : Calls q q') : q'.toRun = q.toRun := by
  unfold TimerQueue.toRun
  rw [h.pass]

theorem Inv.calls (h : s.Inv) (hc : Calls s.queue q') : Inv { s with queue := q' } where
  numbered := hc.numbered
  ran_le := fun id hran => (h.ran_le id ((hc.log id).mp hran)).trans hc.created_le
  one_shot := by
    intro t ht hone hran
    have hran' := (hc.log t.id).mp hran
    -- the call leaves the timers still to run alone, whatever else it moves
    have hcases : t ∈ P.elems q'.timers ++ q'.created ∨ t ∈ s.queue.toRun := by
      have ht' : t ∈ P.elems q'.timers ++ q'.toRun ++ q'.created := ht
      rw [hc.toRun] at ht'
      simp only [List.mem_append] at ht' ⊢
      tauto
    rcases hcases with hheld | htoRun
    · -- a timer made by the call has an id that nothing has run under
      rcases hc.origin t hheld with hold | hnew
      · refine h.one_shot t ?_ hone hran'
        simp only [List.mem_append] at hold ⊢
        tauto
      · exact absurd (h.ran_le t.id hran') (Nat.not_le.mpr hnew)
    · refine h.one_shot t ?_ hone hran'
      simp [htoRun]
  suffix := fun p hp => h.suffix p (hc.pass ▸ hp)
  ran := by
    intro t ht hturn hid
    rw [show TimerQueue.batch _ = _ from hc.batch] at ht
    rw [show TimerQueue.toRun _ = _ from hc.toRun] at hturn
    exact (hc.log t.id).mpr (h.ran t ht hturn (hc.timerIdSet t ht hid))
  running := by
    intro t ht
    rw [show TimerQueue.batch _ = _ from hc.batch, show TimerQueue.toRun _ = _ from hc.toRun]
    exact h.running t ht
  was_there := by
    intro t ht
    rw [show TimerQueue.batch _ = _ from hc.batch] at ht
    obtain ⟨hbefore, hlive⟩ := h.was_there t ht
    exact ⟨hbefore, fun hid => hlive (hc.timerIdSet t ht hid)⟩
  stays := by
    intro hpass t ht
    rw [show TimerQueue.batch _ = _ from hc.batch]
    have hpass' : s.queue.pass ≠ none := fun hnone => hpass (hc.pass.trans hnone)
    exact (h.stays hpass' t ht).imp_right (hc.timers t)

theorem calls_addTimer (h : q.Numbered) (when : TimePoint) (interval : TimeInterval) :
    Calls q (q.addTimer when interval) where
  numbered := h.addTimer when interval
  pass := rfl
  created_le := Nat.le_succ _
  timers := fun _ ht => ht
  timerIdSet := fun _ _ hid => hid
  log := fun _ => Iff.rfl
  origin := by
    intro t ht
    rcases List.mem_append.mp ht with hheap | hcreated
    · exact .inl (List.mem_append_left _ hheap)
    · rcases List.mem_append.mp hcreated with hold | hnew
      · exact .inl (List.mem_append_right _ hold)
      · rw [List.mem_singleton.mp hnew]
        exact .inr (Nat.lt_succ_self _)

/-- Only the alarm changes. -/
theorem calls_timerfd (h : q.Numbered) (timerfd : Option Alarm) :
    Calls q { q with timerfd := timerfd } where
  numbered := ⟨h.nodup, h.id_le⟩
  pass := rfl
  created_le := Nat.le_refl _
  timers := fun _ ht => ht
  timerIdSet := fun _ _ hid => hid
  log := fun _ => Iff.rfl
  origin := fun _ ht => .inl ht

theorem calls_invalidateTimer (h : q.Numbered) (id : TimerId) :
    Calls q (q.invalidateTimer id) where
  numbered := ⟨h.nodup, h.id_le⟩
  pass := rfl
  created_le := Nat.le_refl _
  timers := fun _ ht => ht
  timerIdSet := fun _ _ hid => Finset.mem_of_mem_erase hid
  log := fun id' => by simp [invalidateTimer, record, ran_concat, TimerEvent.runs]
  origin := fun _ ht => .inl ht

theorem calls_added (h : q.Numbered) {t : Timer} (ht : t ∈ q.created) (timerfd : Option Alarm) :
    Calls q { q with
      timers := P.push q.timers t
      timerIdSet := Insert.insert t.id q.timerIdSet
      created := q.created.filter (·.id ≠ t.id)
      timerfd := timerfd
      log := q.log ++ [.added t] } := by
  have hpush := P.elems_push q.timers t
  constructor
  case numbered => exact h.of_ids ((h.perm_added ht).map Timer.id).subperm rfl
  case pass => rfl
  case created_le => exact Nat.le_refl _
  case timers => exact fun t' ht' => hpush.symm.subset (List.mem_cons_of_mem t ht')
  case timerIdSet =>
    intro t' ht' hid
    rcases Finset.mem_insert.mp hid with heq | hold
    · -- an expired timer has another id than one that was not added
      exfalso
      have hnodup := h.nodup
      rw [all, List.append_assoc, List.map_append, List.map_append] at hnodup
      exact List.disjoint_of_nodup_append hnodup.of_append_right (List.mem_map_of_mem ht')
        (heq ▸ List.mem_map_of_mem ht)
    · exact hold
  case log => exact fun id => by simp [ran_concat, TimerEvent.runs]
  case origin =>
    intro t' ht'
    refine .inl ?_
    rcases List.mem_append.mp ht' with hheap | hcreated
    · rcases List.mem_cons.mp (hpush.subset hheap) with rfl | hold
      · exact List.mem_append_right _ ht
      · exact List.mem_append_left _ hold
    · exact List.mem_append_right _ (List.mem_of_mem_filter hcreated)

theorem calls_addTimerInLoop (h : q.Numbered) (id : TimerId) (clock : TimePoint) :
    Calls q (q.step (.addTimerInLoop id clock)) := by
  simp only [TimerQueue.step]
  cases hfind : q.created.find? (·.id = id) with
  | none => exact calls_timerfd h q.timerfd
  | some t =>
    have hid : t.id = id := by simpa using List.find?_some hfind
    have hadded := calls_added h (List.mem_of_find?_eq_some hfind)
    rw [hid] at hadded
    simp only [addTimerInLoop, hid]
    split
    · exact hadded _
    · exact hadded q.timerfd

/-! ## The pass -/

theorem inv_handleRead (h : s.Inv) {now : TimePoint} (hpass : s.queue.pass = none) :
    Inv ⟨s.queue.step (.handleRead now), none, s.queue⟩ := by
  obtain ⟨hheld, -⟩ := perm_getExpired hpass now
  have hq : s.queue.step (.handleRead now) = { s.queue with
      timers := (s.queue.getExpired now).2
      timerfd := none
      pass := some ⟨now, (s.queue.getExpired now).1, (s.queue.getExpired now).1⟩ } := by
    simp only [TimerQueue.step, hpass]
  rw [batch_of_none hpass, List.append_nil] at hheld
  rw [hq]
  constructor
  case numbered =>
    refine h.numbered.of_ids ?_ rfl
    rw [all, all, batch_of_none hpass, List.append_nil]
    exact ((hheld.append_right _).map Timer.id).subperm
  case ran_le => exact h.ran_le
  case one_shot =>
    intro t ht
    refine h.one_shot t ?_
    rcases List.mem_append.mp ht with hheap | hcreated
    · exact List.mem_append_left _ (List.mem_append_left _ (hheld.subset hheap))
    · exact List.mem_append_right _ hcreated
  case suffix =>
    intro p hp
    obtain rfl := Option.some.inj hp
    exact List.suffix_rfl
  case ran => exact fun t ht hturn => absurd ht hturn
  case running => exact fun t ht => by cases ht
  -- the snapshot is the state before the pass, which still holds the batch
  case was_there => exact fun t ht => ⟨hheld.subset (List.mem_append_right _ ht), fun hid => hid⟩
  case stays => exact fun _ t ht => (List.mem_append.mp (hheld.symm.subset ht)).symm

/-- The next timer of the batch has its turn. -/
theorem inv_callback (h : s.Inv) {now : TimePoint} {expired toRun : List Timer} {t : Timer}
    (hpass : s.queue.pass = some ⟨now, expired, t :: toRun⟩) :
    Inv { s with
      queue := s.queue.step .callback
      running := if t.id ∈ s.queue.timerIdSet then some t else none } := by
  have hbatch : s.queue.batch = expired := batch_of_some hpass
  have htoRun : s.queue.toRun = t :: toRun := toRun_of_some hpass
  have hsuffix := h.suffix _ hpass
  have ht : t ∈ expired := hsuffix.subset List.mem_cons_self
  -- the timers that are not in the batch any more, `t` and those to come have ids of their own
  have hnodup : ((t :: (P.elems s.queue.timers ++ toRun ++ s.queue.created)).map
      Timer.id).Nodup := by
    have hsub : (P.elems s.queue.timers ++ (t :: toRun) ++ s.queue.created).Sublist
        s.queue.all := by
      rw [all, hbatch]
      exact (hsuffix.sublist.append_left _).append_right _
    have hperm : (P.elems s.queue.timers ++ (t :: toRun) ++ s.queue.created).Perm
        (t :: (P.elems s.queue.timers ++ toRun ++ s.queue.created)) :=
      List.perm_middle.append_right _
    exact (hperm.map Timer.id).nodup ((hsub.map Timer.id).nodup h.numbered.nodup)
  rw [List.map_cons, List.nodup_cons] at hnodup
  have hnew : t ∉ toRun := fun hin => hnodup.1 (List.mem_map_of_mem (by simp [hin]))
  -- the timer has its turn, and runs if it is still wanted
  have hq : s.queue.step .callback = { s.queue with
      pass := some ⟨now, expired, toRun⟩
      log := if t.id ∈ s.queue.timerIdSet then s.queue.log ++ [.ran t now] else s.queue.log } := by
    simp only [TimerQueue.step, hpass]
    split <;> rfl
  have hran : ∀ id, Ran (s.queue.step .callback).log id ↔
      Ran s.queue.log id ∨ t.id ∈ s.queue.timerIdSet ∧ t.id = id := by
    intro id
    rw [hq]
    by_cases hid : t.id ∈ s.queue.timerIdSet
    · simp [hid, ran_concat, TimerEvent.runs]
    · simp [hid]
  constructor
  case numbered =>
    rw [hq]
    refine h.numbered.of_ids ?_ rfl
    rw [all, all, hbatch]
    exact List.Subperm.refl _
  case ran_le =>
    intro id hin
    have hcreated : (s.queue.step .callback).timersCreated = s.queue.timersCreated := by rw [hq]
    rw [hcreated]
    rcases (hran id).mp hin with hold | ⟨-, rfl⟩
    · exact h.ran_le id hold
    · refine h.numbered.id_le t ?_
      rw [all, hbatch]
      simp [ht]
  case one_shot =>
    intro t' ht' hone hin
    rw [hq] at ht'
    rcases (hran t'.id).mp hin with hold | ⟨-, heq⟩
    · refine h.one_shot t' ?_ hone hold
      rw [htoRun]
      simp only [List.mem_append, List.mem_cons]
      have hmem : t' ∈ P.elems s.queue.timers ++ toRun ++ s.queue.created := ht'
      simp only [List.mem_append] at hmem
      tauto
    · exact hnodup.1 (heq ▸ List.mem_map_of_mem ht')
  case suffix =>
    intro p hp
    rw [hq] at hp
    obtain rfl := Option.some.inj hp
    exact (List.suffix_cons t toRun).trans hsuffix
  case ran =>
    -- it has had its turn now, those before it had theirs
    intro t' ht' hturn hid
    refine (hran t'.id).mpr ?_
    rw [hq] at ht' hturn hid
    by_cases heq : t' = t
    · exact .inr ⟨heq ▸ hid, by rw [heq]⟩
    · refine .inl (h.ran t' (hbatch ▸ ht') ?_ hid)
      rw [htoRun, List.mem_cons, not_or]
      exact ⟨heq, hturn⟩
  case running =>
    intro t' ht'
    rw [hq]
    simp only at ht'
    split at ht'
    · obtain rfl := Option.some.inj ht'
      exact ⟨ht, hnew⟩
    · cases ht'
  case was_there =>
    intro t' ht'
    rw [hq] at ht' ⊢
    exact h.was_there t' (hbatch ▸ ht')
  case stays =>
    intro _ t' ht'
    rw [hq]
    have hold := h.stays (by simp [hpass]) t' ht'
    rw [hbatch] at hold
    exact hold

/-- Outside a pass there is little to say. -/
theorem Inv.of_no_pass (h : s.Inv) (hnumbered : q'.Numbered) (hpass : q'.pass = none)
    (hcreated : q'.created = s.queue.created) (hle : s.queue.timersCreated = q'.timersCreated)
    (hran : ∀ id, Ran q'.log id ↔ Ran s.queue.log id)
    (hheap : ∀ t ∈ P.elems q'.timers, t.isRepeat = false → t ∈ P.elems s.queue.timers) :
    Inv ⟨q', none, s.before⟩ := by
  have hbatch : q'.batch = [] := batch_of_none hpass
  have htoRun : q'.toRun = [] := by
    unfold TimerQueue.toRun
    rw [hpass]
  constructor
  case numbered => exact hnumbered
  case ran_le => exact fun id hid => hle ▸ h.ran_le id ((hran id).mp hid)
  case one_shot =>
    intro t ht hone hid
    have ht' : t ∈ P.elems q'.timers ++ q'.toRun ++ q'.created := ht
    rw [htoRun, List.append_nil, hcreated] at ht'
    refine h.one_shot t ?_ hone ((hran t.id).mp hid)
    rcases List.mem_append.mp ht' with hin | hin
    · exact List.mem_append_left _ (List.mem_append_left _ (hheap t hin hone))
    · exact List.mem_append_right _ hin
  case suffix => simp [hpass]
  case ran => simp [hbatch]
  case running => simp
  case was_there => simp [hbatch]
  case stays => simp [hpass]

theorem inv_resetExpired (h : s.Inv) {now clock : TimePoint} {expired : List Timer}
    (hpass : s.queue.pass = some ⟨now, expired, []⟩) :
    Inv { s with queue := s.queue.step (.resetExpired clock), running := none } := by
  have hbatch : s.queue.batch = expired := batch_of_some hpass
  have hnodup := h.numbered.nodup_batch
  rw [hbatch] at hnodup
  have hr := resetTimers_spec now clock hnodup s.queue
  obtain ⟨timerfd, harm⟩ := armTop_eq (resetTimers now clock expired s.queue) clock
  have hq : s.queue.step (.resetExpired clock)
      = { resetTimers now clock expired s.queue with
          timerfd := timerfd, pass := none,
          log := (resetTimers now clock expired s.queue).log ++ [.passed ⟨now, expired, []⟩] } := by
    simp only [TimerQueue.step, hpass, harm]
    rfl
  have hnumbered := hr.numbered h.numbered hbatch
  rw [hq]
  refine h.of_no_pass ⟨hnumbered.nodup, hnumbered.id_le⟩ rfl hr.created hr.timersCreated.symm
    (fun id => ?_) fun t ht hone => ?_
  · rw [ran_concat, hr.log, (log_reinserted _).2.1]
    exact or_iff_left fun hno => hno
  · -- what is put back repeats, the one-shot ones stayed where they were
    rcases List.mem_append.mp (hr.timers.subset ht) with hback | hstays
    · obtain ⟨t₀, -, hrepeat, -, rfl⟩ := mem_backTimers.mp hback
      rw [show (t₀.restart now clock).isRepeat = t₀.isRepeat from rfl, hrepeat] at hone
      cases hone
    · exact hstays

theorem inv_throws (h : s.Inv) :
    Inv { s with queue := { s.queue with pass := none }, running := none } := by
  refine h.of_no_pass ?_ rfl rfl rfl (fun _ => Iff.rfl) fun _ ht _ => ht
  refine h.numbered.of_ids ?_ rfl
  rw [all, all, batch_of_none rfl, List.append_nil]
  exact (((List.sublist_append_left _ _).append_right _).map Timer.id).subperm

theorem inv_step (s : TimerLoop P) (a : Act) (h : s.Inv) : (s.step a).Inv := by
  cases a with
  | op op =>
    cases op with
    | addTimer when interval => exact h.calls (calls_addTimer h.numbered when interval)
    | addTimerInLoop id clock => exact h.calls (calls_addTimerInLoop h.numbered id clock)
    | invalidateTimer id => exact h.calls (calls_invalidateTimer h.numbered id)
    | reset clock =>
      obtain ⟨timerfd, harm⟩ := armTop_eq { s.queue with timerfd := none } clock
      simp only [step, TimerQueue.step]
      rw [harm]
      exact h.calls (calls_timerfd h.numbered timerfd)
    | handleRead now =>
      simp only [step]
      split
      · exact inv_handleRead h ‹_›
      · exact h
    | callback =>
      simp only [step]
      split
      · exact inv_callback h ‹_›
      · exact h
    | resetExpired clock =>
      simp only [step]
      split
      · exact inv_resetExpired h ‹_›
      · exact h
  | throws =>
    simp only [step]
    split
    · exact inv_throws h
    · exact h

/-! ## What a throw keeps -/

/-- No timer of the batch is in the heap. -/
theorem Inv.not_in_heap (h : s.Inv) {t v : Timer} (ht : t ∈ s.queue.batch)
    (hv : v ∈ P.elems s.queue.timers) : v.id ≠ t.id := by
  intro heq
  have hnodup := h.numbered.nodup
  rw [all, List.map_append, List.map_append] at hnodup
  exact List.disjoint_of_nodup_append hnodup.of_append_left (List.mem_map_of_mem hv)
    (heq ▸ List.mem_map_of_mem ht)

theorem Inv.keepsOthers_iff (h : s.Inv) {t : Timer} (ht : s.running = some t) :
    KeepsOthers t s (s.step .throws) ↔ Settled s.queue := by
  obtain ⟨hbatch, hturn⟩ := h.running t ht
  have hstep : s.step .throws
      = { s with queue := { s.queue with pass := none }, running := none } := by
    simp only [step, ht]
  rw [hstep]
  constructor
  · intro hk t' ht' hid
    obtain ⟨hbefore, hlive⟩ := h.was_there t' ht'
    -- what is in the batch is not in the heap, and the exception drops the batch
    have hlost : ¬ ∃ v ∈ P.elems s.queue.timers, v.id = t'.id := by
      rintro ⟨v, hv, heq⟩
      exact h.not_in_heap ht' hv heq
    constructor
    · intro htoRun
      have hne : t' ≠ t := fun heq => hturn (heq ▸ htoRun)
      refine hlost (hk.others t' hbefore (hlive hid) hne hid fun hone => ?_)
      refine h.one_shot t' ?_ hone
      simp [htoRun]
    · -- a repeating timer would have had to be put back
      by_contra hone
      exact hlost (hk.repeating t' hbefore (hlive hid) hid (by simpa using hone))
  · intro hs
    have hpass : s.queue.pass ≠ none := by
      intro hnone
      rw [batch_of_none hnone] at hbatch
      cases hbatch
    constructor
    · intro t' hbefore _ _ hid hran
      rcases h.stays hpass t' hbefore with hin | hheap
      · -- it has had its turn, and has run
        obtain ⟨hdone, hone⟩ := hs t' hin hid
        exact absurd (h.ran t' hin hdone hid) (hran hone)
      · exact ⟨t', hheap, rfl⟩
    · intro t' hbefore _ hid hrepeat
      rcases h.stays hpass t' hbefore with hin | hheap
      · obtain ⟨-, hone⟩ := hs t' hin hid
        rw [hone] at hrepeat
        cases hrepeat
      · exact ⟨t', hheap, rfl⟩

/-- **A callback that throws** keeps the other timers, in every run, exactly when every wanted
timer of its batch has had its turn and none of them repeats. -/
theorem keepsOthers_iff_settled (P : PriorityQueue.{0, 0, u} Timer.when) (as : List Act)
    {t : Timer} (ht : (Runs.run step (new P) as).running = some t) :
    KeepsOthers t (Runs.run step (new P) as) (step (Runs.run step (new P) as) .throws) ↔
      Settled (Runs.run step (new P) as).queue :=
  ((Runs.always_of_step inv_step inv_new as).last).keepsOthers_iff ht

/-- The only timer of the batch throws. -/
theorem keepsOthers_last :
    let s := Runs.run step (new (.ofList Timer.when))
      [.op (.addTimer 5 0), .op (.addTimer 9 0), .op (.addTimerInLoop 1 0),
        .op (.addTimerInLoop 2 0), .op (.handleRead 7), .op .callback]
    KeepsOthers ⟨1, 5, 0⟩ s (s.step .throws) :=
  (keepsOthers_iff_settled (.ofList Timer.when) _ (by decide +kernel)).mpr (by decide +kernel)

/-- The first of two timers throws: the second one, which repeats, is lost. -/
theorem not_keepsOthers_first :
    let s := Runs.run step (new (.ofList Timer.when))
      [.op (.addTimer 5 0), .op (.addTimer 6 10), .op (.addTimerInLoop 1 0),
        .op (.addTimerInLoop 2 0), .op (.handleRead 7), .op .callback]
    ¬ KeepsOthers ⟨1, 5, 0⟩ s (s.step .throws) := by
  intro s h
  obtain ⟨v, hv, -⟩ := h.repeating ⟨2, 6, 10⟩ (by decide +kernel) (by decide +kernel)
    (by decide +kernel) (by decide +kernel)
  have hnil : (PriorityQueue.ofList Timer.when).elems (s.step .throws).queue.timers = [] := by
    decide +kernel
  rw [hnil] at hv
  cases hv

end TimerLoop

end XiaoNet
