import XiaoNet.Lib.History
import XiaoNet.Net.EventLoopTimers

/-!
# When a cancelled timer stays silent

`invalidateTimer` drops the call unless the loop is running, and in the loop thread it erases
the id before a closure of another thread that is still queued can insert it. In runs without
such calls (`heeded`) no cancelled timer fires.

- `Inv`: the id of a cancelled timer is in no place from which it could come back.
- `always_silent`: the law for the runs whose calls are all heeded.
- `not_silent_before_loop`: a call before `loop()`.
-/

namespace XiaoNet

open History

universe u

namespace TimerQueue

variable {P : PriorityQueue.{0, 0, u} Timer.when} {s : TimerQueue P}

theorem resetTimers_subset (now clock : TimePoint) (l : List Timer) (s : TimerQueue P) :
    (resetTimers now clock l s).timerIdSet ⊆ s.timerIdSet ∧
      (resetTimers now clock l s).created = s.created ∧
      (resetTimers now clock l s).timersCreated = s.timersCreated := by
  induction l generalizing s with
  | nil => exact ⟨fun _ h => h, rfl, rfl⟩
  | cons t l ih =>
    simp only [resetTimers]
    split
    · split
      · exact ih _
      · obtain ⟨hset, hcreated⟩ := ih { s with timerIdSet := s.timerIdSet.erase t.id }
        exact ⟨fun id hid => Finset.mem_of_mem_erase (hset hid), hcreated⟩
    · exact ih s

/-- What an operation can put into the set and into the list of timers not added. -/
structure Grows (s s' : TimerQueue P) : Prop where
  timerIdSet : ∀ id ∈ s'.timerIdSet, id ∈ s.timerIdSet ∨ ∃ t ∈ s.created, t.id = id
  created : ∀ t ∈ s'.created, t ∈ s.created ∨
    t.id = s.timersCreated + 1 ∧ s.timersCreated < s'.timersCreated
  timersCreated : s.timersCreated ≤ s'.timersCreated

theorem Grows.of_eq {s' : TimerQueue P} (hset : s'.timerIdSet ⊆ s.timerIdSet)
    (hcreated : s'.created = s.created) (hcount : s'.timersCreated = s.timersCreated) :
    Grows s s' where
  timerIdSet _ hid := .inl (hset hid)
  created _ ht := .inl (hcreated ▸ ht)
  timersCreated := hcount ▸ Nat.le_refl _

theorem grows_step (s : TimerQueue P) (op : Op) : Grows s (s.step op) := by
  -- ids are handed out in `addTimer` and become known in `addTimerInLoop`
  cases op with
  | addTimer when interval =>
    refine ⟨fun id hid => .inl hid, fun t ht => ?_, Nat.le_succ _⟩
    rcases List.mem_append.mp ht with hold | hnew
    · exact .inl hold
    · exact .inr ⟨by rw [List.mem_singleton.mp hnew], Nat.lt_succ_self _⟩
  | addTimerInLoop id clock =>
    simp only [step]
    cases hfind : s.created.find? (·.id = id) with
    | none => exact .of_eq (fun _ h => h) rfl rfl
    | some t =>
      have hmem := List.mem_of_find?_eq_some hfind
      simp only [addTimerInLoop]
      refine ⟨fun id' hid' => ?_, fun t' ht' => .inl ?_, ?_⟩
      · have hin : id' ∈ Insert.insert t.id s.timerIdSet := by
          split at hid' <;> exact hid'
        rcases Finset.mem_insert.mp hin with rfl | hold
        · exact .inr ⟨t, hmem, rfl⟩
        · exact .inl hold
      · have hin : t' ∈ s.created.filter (·.id ≠ id) := by
          split at ht' <;> exact ht'
        exact (List.mem_filter.mp hin).1
      · split <;> exact Nat.le_refl _
  | invalidateTimer id => exact .of_eq (Finset.erase_subset _ _) rfl rfl
  | handleRead now =>
    simp only [step]
    split <;> exact .of_eq (fun _ h => h) rfl rfl
  | callback =>
    simp only [step]
    split
    · split <;> exact .of_eq (fun _ h => h) rfl rfl
    · exact .of_eq (fun _ h => h) rfl rfl
  | resetExpired clock =>
    simp only [step]
    split
    case h_1 now expired hpass =>
      -- what a pass puts back is known already
      obtain ⟨hset, hcreated, hcount⟩ := resetTimers_subset now clock expired s
      unfold armTop
      split <;> exact .of_eq hset hcreated hcount
    case h_2 => exact .of_eq (fun _ h => h) rfl rfl
  | reset clock =>
    simp only [step, armTop]
    split <;> exact .of_eq (fun _ h => h) rfl rfl

/-- A timer that has been added is not waiting to be. -/
theorem created_addTimerInLoop (s : TimerQueue P) (id : TimerId) (clock : TimePoint) :
    ∀ t ∈ (s.step (.addTimerInLoop id clock)).created, t.id ≠ id := by
  intro t ht
  simp only [step] at ht
  cases hfind : s.created.find? (·.id = id) with
  | none =>
    rw [hfind] at ht
    simpa using List.find?_eq_none.mp hfind t ht
  | some t₀ =>
    rw [hfind] at ht
    simp only [addTimerInLoop] at ht
    have hin : t ∈ s.created.filter (·.id ≠ id) := by
      split at ht <;> exact ht
    simpa using (List.mem_filter.mp hin).2

end TimerQueue

namespace EventLoopTimers

variable {P : PriorityQueue.{0, 0, u} Timer.when} {s : EventLoopTimers P}

/-- A callback runs only before its timer is cancelled. -/
def Silent (before : List CancelEvent) : CancelEvent → Prop
  | .ran id => .cancelled id ∉ before
  | .cancelled _ => True

/-- No cancelled timer has fired. -/
def NeverFires (s : EventLoopTimers P) : Prop := Each Silent s.log

/-- The call is not dropped, and in the loop thread it does not overtake the closure that
adds the timer. -/
def heeded (s : EventLoopTimers P) : Op → Bool
  | .invalidateTimer inLoop id =>
    s.isRunning && (!inLoop || !s.funcs.contains (.addTimer id))
  | _ => true

structure Inv (s : EventLoopTimers P) : Prop where
  silent : s.NeverFires
  created_le : ∀ t ∈ s.timers.created, t.id ≤ s.timers.timersCreated
  returned_le : ∀ id ∈ s.returned, id ≤ s.timers.timersCreated
  /-- A timer whose id has been returned is queued, or was added. -/
  placed : ∀ id ∈ s.returned, .addTimer id ∈ s.funcs ∨ ∀ t ∈ s.timers.created, t.id ≠ id
  add_returned : ∀ id, .addTimer id ∈ s.funcs → id ∈ s.returned
  erase_returned : ∀ id, .eraseTimer id ∈ s.funcs → id ∈ s.returned
  erasing_returned : ∀ id ∈ s.erasing, id ∈ s.returned
  order : Each (fun before c => ∀ id, c = .addTimer id → .eraseTimer id ∉ before) s.funcs
  /-- A cancelled timer cannot come back. -/
  gone : ∀ id, .cancelled id ∈ s.log → id ∈ s.returned ∧ id ∉ s.timers.timerIdSet ∧
    ∀ t ∈ s.timers.created, t.id ≠ id

theorem inv_new : (new P).Inv where
  silent := each_nil
  created_le := nofun
  returned_le := nofun
  placed := nofun
  add_returned := nofun
  erase_returned := nofun
  erasing_returned := nofun
  order := each_nil
  gone := nofun

/-- An operation of the queue adds no timer that was cancelled. -/
theorem Inv.stepTimers (h : s.Inv) (op : TimerQueue.Op) :
    Inv { s with timers := s.timers.step op } where
  silent := h.silent
  created_le t ht := by
    have hgrows := TimerQueue.grows_step s.timers op
    rcases hgrows.created t ht with hold | ⟨hnew, hlt⟩
    · exact le_trans (h.created_le t hold) hgrows.timersCreated
    · rw [hnew]
      exact hlt
  returned_le id hid :=
    le_trans (h.returned_le id hid) (TimerQueue.grows_step s.timers op).timersCreated
  placed id hid := by
    refine (h.placed id hid).imp_right fun hnone t ht heq => ?_
    rcases (TimerQueue.grows_step s.timers op).created t ht with hold | ⟨hnew, -⟩
    · exact hnone t hold heq
    · -- an id that is handed out now has not been returned before
      have hle := h.returned_le id hid
      rw [← heq, hnew] at hle
      exact Nat.not_succ_le_self _ hle
  add_returned := h.add_returned
  erase_returned := h.erase_returned
  erasing_returned := h.erasing_returned
  order := h.order
  gone id hid := by
    obtain ⟨hreturned, hset, hnone⟩ := h.gone id hid
    have hgrows := TimerQueue.grows_step s.timers op
    refine ⟨hreturned, fun hin => ?_, fun t ht heq => ?_⟩
    · rcases hgrows.timerIdSet id hin with hold | ⟨t, ht, heq⟩
      · exact hset hold
      · exact hnone t ht heq
    · rcases hgrows.created t ht with hold | ⟨hnew, -⟩
      · exact hnone t hold heq
      · have hle := h.returned_le id hreturned
        rw [← heq, hnew] at hle
        exact Nat.not_succ_le_self _ hle

theorem not_returned_of_pending {id : TimerId} (h : s.pending id = true) : id ∉ s.returned := by
  simp only [pending, Bool.and_eq_true, Bool.not_eq_true'] at h
  simpa using h.2

theorem le_of_pending (h : s.Inv) {id : TimerId} (hpending : s.pending id = true) :
    id ≤ s.timers.timersCreated := by
  simp only [pending, Bool.and_eq_true, List.any_eq_true, decide_eq_true_eq] at hpending
  obtain ⟨⟨t, ht, rfl⟩, -⟩ := hpending
  exact h.created_le t ht

/-- A cancellation is recorded for a timer that is in the set no more and waits nowhere. -/
theorem Inv.cancel (h : s.Inv) {id : TimerId} (hreturned : id ∈ s.returned)
    (hset : id ∉ s.timers.timerIdSet) (hnone : ∀ t ∈ s.timers.created, t.id ≠ id) :
    (s.record (.cancelled id)).Inv := by
  constructor
  case silent => exact each_concat.mpr ⟨h.silent, trivial⟩
  case created_le => exact h.created_le
  case returned_le => exact h.returned_le
  case placed => exact h.placed
  case add_returned => exact h.add_returned
  case erase_returned => exact h.erase_returned
  case erasing_returned => exact h.erasing_returned
  case order => exact h.order
  case gone =>
    intro id' hid'
    rcases List.mem_append.mp hid' with hold | hnew
    · exact h.gone id' hold
    · obtain rfl := CancelEvent.cancelled.inj (List.mem_singleton.mp hnew)
      exact ⟨hreturned, hset, hnone⟩

/-! ## Calls -/

theorem inv_addInLoop (h : s.Inv) (id : TimerId) (clock : TimePoint) :
    (s.step (.addInLoop id clock)).Inv := by
  simp only [step]
  split
  case isFalse => exact h
  case isTrue hpending =>
    have hadded := h.stepTimers (.addTimerInLoop id clock)
    constructor
    case silent => exact hadded.silent
    case created_le => exact hadded.created_le
    case returned_le =>
      intro id' hid'
      rcases List.mem_cons.mp hid' with rfl | hold
      · exact le_trans (le_of_pending h hpending)
          (TimerQueue.grows_step s.timers (.addTimerInLoop id' clock)).timersCreated
      · exact hadded.returned_le id' hold
    case placed =>
      -- the timer goes into the queue before its id is returned
      intro id' hid'
      rcases List.mem_cons.mp hid' with rfl | hold
      · exact .inr (TimerQueue.created_addTimerInLoop s.timers id' clock)
      · exact hadded.placed id' hold
    case add_returned => exact fun id' hid' => List.mem_cons_of_mem _ (h.add_returned id' hid')
    case erase_returned => exact fun id' hid' => List.mem_cons_of_mem _ (h.erase_returned id' hid')
    case erasing_returned =>
      exact fun id' hid' => List.mem_cons_of_mem _ (h.erasing_returned id' hid')
    case order => exact h.order
    case gone =>
      intro id' hid'
      obtain ⟨hreturned, hgone⟩ := hadded.gone id' hid'
      exact ⟨List.mem_cons_of_mem _ hreturned, hgone⟩

theorem inv_queueAdd (h : s.Inv) (id : TimerId) : (s.step (.queueAdd id)).Inv := by
  simp only [step]
  split
  case isFalse => exact h
  case isTrue hpending =>
    -- the id is fresh: no closure can name it yet
    have hnot := not_returned_of_pending hpending
    constructor
    case silent => exact h.silent
    case created_le => exact h.created_le
    case returned_le =>
      intro id' hid'
      rcases List.mem_cons.mp hid' with rfl | hold
      · exact le_of_pending h hpending
      · exact h.returned_le id' hold
    case placed =>
      intro id' hid'
      rcases List.mem_cons.mp hid' with rfl | hold
      · exact .inl (List.mem_append_right _ List.mem_cons_self)
      · exact (h.placed id' hold).imp_left (List.mem_append_left _)
    case add_returned =>
      intro id' hid'
      rcases List.mem_append.mp hid' with hold | hnew
      · exact List.mem_cons_of_mem _ (h.add_returned id' hold)
      · obtain rfl := Closure.addTimer.inj (List.mem_singleton.mp hnew)
        exact List.mem_cons_self
    case erase_returned =>
      intro id' hid'
      rcases List.mem_append.mp hid' with hold | hnew
      · exact List.mem_cons_of_mem _ (h.erase_returned id' hold)
      · cases List.mem_singleton.mp hnew
    case erasing_returned =>
      exact fun id' hid' => List.mem_cons_of_mem _ (h.erasing_returned id' hid')
    case order =>
      -- its own `addTimer` is the last closure, so no erasure of it stands before
      refine each_concat.mpr ⟨h.order, fun id' heq hin => hnot ?_⟩
      obtain rfl := Closure.addTimer.inj heq
      exact h.erase_returned id hin
    case gone =>
      intro id' hid'
      obtain ⟨hreturned, hgone⟩ := h.gone id' hid'
      exact ⟨List.mem_cons_of_mem _ hreturned, hgone⟩

theorem inv_queueErase (h : s.Inv) (id : TimerId) : (s.step (.queueErase id)).Inv := by
  simp only [step]
  split
  case isFalse => exact h
  case isTrue hin =>
    constructor
    case silent => exact h.silent
    case created_le => exact h.created_le
    case returned_le => exact h.returned_le
    case placed => exact fun id' hid' => (h.placed id' hid').imp_left (List.mem_append_left _)
    case add_returned =>
      intro id' hid'
      rcases List.mem_append.mp hid' with hold | hnew
      · exact h.add_returned id' hold
      · cases List.mem_singleton.mp hnew
    case erase_returned =>
      intro id' hid'
      rcases List.mem_append.mp hid' with hold | hnew
      · exact h.erase_returned id' hold
      · obtain rfl := Closure.eraseTimer.inj (List.mem_singleton.mp hnew)
        exact h.erasing_returned id' hin
    case erasing_returned =>
      exact fun id' hid' => h.erasing_returned id' (List.mem_of_mem_erase hid')
    case order => exact each_concat.mpr ⟨h.order, fun _ heq => nomatch heq⟩
    case gone => exact h.gone

/-- A call that is heeded. -/
theorem inv_invalidateTimer (h : s.Inv) (inLoop : Bool) (id : TimerId)
    (hheeded : s.heeded (.invalidateTimer inLoop id) = true) :
    (s.step (.invalidateTimer inLoop id)).Inv := by
  simp only [heeded, Bool.and_eq_true] at hheeded
  obtain ⟨hrunning, hqueue⟩ := hheeded
  simp only [step]
  split
  case isFalse => exact h
  case isTrue hreturned =>
    cases inLoop with
    | false =>
      simp only [Bool.false_eq_true, if_false]
      -- another thread: nothing happens before its closure is queued
      refine { h with erasing_returned := fun id' hid' => ?_ }
      rcases List.mem_cons.mp hid' with rfl | hold
      · exact hreturned
      · exact h.erasing_returned id' hold
    | true =>
      simp only [if_true]
      -- nothing that could put the id back is still waiting
      have hnot : .addTimer id ∉ s.funcs := by simpa using hqueue
      have hnone := (h.placed id hreturned).resolve_left hnot
      exact (h.stepTimers _).cancel hreturned (Finset.notMem_erase _ _) hnone

/-! ## The loop -/

theorem inv_runFunc (h : s.Inv) (clock : TimePoint) : (s.step (.runFunc clock)).Inv := by
  simp only [step]
  split
  case isFalse => exact h
  case isTrue =>
    cases hfuncs : s.funcs with
    | nil => exact h
    | cons c funcs =>
      have horder : Each (fun before c => ∀ id, c = .addTimer id → .eraseTimer id ∉ before)
          (c :: funcs) := hfuncs ▸ h.order
      have htail := each_tail (fun before e hlaw id heq hin =>
        hlaw id heq (List.mem_cons_of_mem c hin)) horder
      have hmem : ∀ e ∈ funcs, e ∈ s.funcs := by
        intro e he
        rw [hfuncs]
        exact List.mem_cons_of_mem c he
      cases c with
      | addTimer id =>
        have hadded := h.stepTimers (.addTimerInLoop id clock)
        constructor
        case silent => exact hadded.silent
        case created_le => exact hadded.created_le
        case returned_le => exact hadded.returned_le
        case placed =>
          intro id' hid'
          rcases hadded.placed id' hid' with hin | hnone
          · rw [show _ = _ from hfuncs] at hin
            rcases List.mem_cons.mp hin with heq | hrest
            · obtain rfl := Closure.addTimer.inj heq
              exact .inr (TimerQueue.created_addTimerInLoop s.timers id' clock)
            · exact .inl hrest
          · exact .inr hnone
        case add_returned => exact fun id' hid' => h.add_returned id' (hmem _ hid')
        case erase_returned => exact fun id' hid' => h.erase_returned id' (hmem _ hid')
        case erasing_returned => exact h.erasing_returned
        case order => exact htail
        case gone => exact hadded.gone
      | eraseTimer id =>
        have hreturned : id ∈ s.returned := by
          apply h.erase_returned
          rw [hfuncs]
          exact List.mem_cons_self
        -- the closure that adds the timer has been run, for it came first
        have hnot : .addTimer id ∉ s.funcs := by
          rw [hfuncs]
          intro hin
          rcases List.mem_cons.mp hin with heq | hrest
          · cases heq
          · obtain ⟨before, later, rfl⟩ := List.append_of_mem hrest
            exact horder (.eraseTimer id :: before) _ later rfl id rfl List.mem_cons_self
        have hnone := (h.placed id hreturned).resolve_left hnot
        have herased := h.stepTimers (.invalidateTimer id)
        have hpopped : Inv { s with
            funcs := funcs, timers := s.timers.step (.invalidateTimer id) } := { herased with
          placed := by
            intro id' hid'
            refine (herased.placed id' hid').imp_left fun hin => ?_
            rw [show _ = _ from hfuncs] at hin
            rcases List.mem_cons.mp hin with heq | hrest
            · cases heq
            · exact hrest
          add_returned := fun id' hid' => h.add_returned id' (hmem _ hid')
          erase_returned := fun id' hid' => h.erase_returned id' (hmem _ hid')
          order := htail }
        exact hpopped.cancel hreturned (Finset.notMem_erase _ _) hnone

/-- The callback that runs is of a timer in the set. -/
theorem mem_of_next {t : Timer} (h : s.next = some t) : t.id ∈ s.timers.timerIdSet := by
  unfold next at h
  split at h
  · split at h
    case isTrue hmem =>
      obtain rfl := Option.some.inj h
      exact hmem
    case isFalse => cases h
  · cases h

theorem inv_callback (h : s.Inv) : (s.step .callback).Inv := by
  have hstep := h.stepTimers .callback
  simp only [step]
  cases hnext : s.next with
  | none => exact hstep
  | some t =>
    refine { hstep with silent := ?_, gone := fun id hid => ?_ }
    · exact each_concat.mpr ⟨h.silent, fun hin => (h.gone t.id hin).2.1 (mem_of_next hnext)⟩
    · rcases List.mem_append.mp hid with hold | hnew
      · exact hstep.gone id hold
      · cases List.mem_singleton.mp hnew

theorem inv_step (s : EventLoopTimers P) (op : Op) (h : s.Inv) (hheeded : s.heeded op = true) :
    (s.step op).Inv := by
  -- the guard matters to `invalidateTimer` alone
  cases op with
  | loop =>
    simp only [step]
    split
    · exact h
    · exact { h with }
  | clearQuit =>
    simp only [step]
    split
    · exact { h with }
    · exact h
  | endLoop =>
    simp only [step]
    split
    · exact { h with }
    · exact h
  | quit => exact { h with }
  | addTimer when interval => exact h.stepTimers _
  | addInLoop id clock => exact inv_addInLoop h id clock
  | queueAdd id => exact inv_queueAdd h id
  | invalidateTimer inLoop id => exact inv_invalidateTimer h inLoop id hheeded
  | queueErase id => exact inv_queueErase h id
  | runFunc clock => exact inv_runFunc h clock
  | handleRead now =>
    simp only [step]
    split
    · exact h.stepTimers _
    · exact h
  | callback => exact inv_callback h
  | resetExpired clock => exact h.stepTimers _

/-- **Cancelled timers stay silent** in every run whose calls of `invalidateTimer` are made
while the loop is running and, in the loop thread, not before the closure that adds the
timer has run. -/
theorem always_neverFires (P : PriorityQueue.{0, 0, u} Timer.when) {ops : List Op}
    (h : Runs.Along step (fun s op => s.heeded op = true) (new P) ops) :
    Runs.Always step NeverFires (new P) ops :=
  (Runs.always_of_along inv_step inv_new h).mono fun _ hinv => hinv.silent

/-- Another thread cancels a timer of a running loop, which then comes to its time. -/
theorem always_neverFires_queued :
    Runs.Always step NeverFires (new (PriorityQueue.ofList Timer.when))
      [.addTimer 5 0, .addInLoop 1 0, .loop, .clearQuit, .invalidateTimer false 1, .queueErase 1,
        .runFunc 3, .handleRead 7, .callback, .resetExpired 7] :=
  always_neverFires _ (by decide +kernel)

/-- The timer is cancelled before `loop()`, and fires. -/
theorem not_neverFires_before_loop :
    ¬ Runs.Always step NeverFires (new (PriorityQueue.ofList Timer.when))
      [.addTimer 5 0, .addInLoop 1 0, .invalidateTimer true 1, .loop, .clearQuit, .handleRead 7,
        .callback] := by
  intro h
  have hlog : (Runs.run step (new (PriorityQueue.ofList Timer.when))
      [.addTimer 5 0, .addInLoop 1 0, .invalidateTimer true 1, .loop, .clearQuit, .handleRead 7,
        .callback]).log = [.cancelled 1] ++ .ran 1 :: [] := by decide +kernel
  exact h.last [.cancelled 1] (.ran 1) [] hlog List.mem_cons_self

end EventLoopTimers

end XiaoNet
