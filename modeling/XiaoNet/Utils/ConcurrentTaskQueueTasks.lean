import XiaoNet.Lib.Census
import XiaoNet.Lib.Mutex
import XiaoNet.Utils.ConcurrentTaskQueueStop

/-!
# What becomes of the tasks

- `Traced`: a queue with the tasks that were pushed, started and finished, and those that had
  been started when a call of `stop` came back from its joins.
- `Accounted`: `taskMutex_` keeps the threads apart, tasks start in the order in which they were
  pushed, each in one worker, which finishes it before it starts the next, and after `stop`
  nothing runs. `always_accounted`: in every interleaving.
- `WorkConserving`: when a worker is blocked, the tasks that wait are no more than the workers
  that are on their way to the queue. `always_workConserving`: so it is whenever no thread is at
  its `notify_one`.
-/

namespace XiaoNet

universe u v

namespace ConcurrentTaskQueue

variable {n : Nat} {ι : Type u} {F : Type v}

/-! ## Who has the mutex -/

/-- Between getting the mutex and giving it back, in `queueFunc`. -/
def Worker.inside : Worker F → Bool
  | .testing | .toWait | .taking => true
  | _ => false

/-- The same in `runTaskInQueue`. -/
def Caller.inside : Caller F → Bool
  | .pushing _ | .notifyingOne | .unlocking => true
  | _ => false

/-- The thread has locked `taskMutex_`. -/
def Inside (s : ConcurrentTaskQueue n ι F) (t : Thread n ι) : Prop :=
  (s.callers t).inside = true ∨ ∃ w, t = .worker w ∧ (s.workers w).inside = true

/-- The worker is running a task. -/
def Worker.task : Worker F → Option F
  | .running r => some r
  | _ => none

/-- A worker makes calls only from the task that it runs. -/
def CallsFromTask (s : ConcurrentTaskQueue n ι F) : Prop :=
  ∀ w, (s.workers w).task = none → s.callers (.worker w) = .idle

/-- The mutex is where the threads are. -/
structure Locked (s : ConcurrentTaskQueue n ι F) : Prop where
  guards : Guards s.taskMutex s.Inside
  calls : s.CallsFromTask

variable {s : ConcurrentTaskQueue n ι F}

theorem inside_of_worker {w : Fin n} (h : (s.workers w).inside = true) :
    s.Inside (.worker w) :=
  .inr ⟨w, rfl, h⟩

theorem inside_worker_iff {w : Fin n} :
    s.Inside (.worker w) ↔
      (s.callers (.worker w)).inside = true ∨ (s.workers w).inside = true := by
  constructor
  · rintro (hcaller | ⟨w', heq, hw⟩)
    · exact .inl hcaller
    · cases heq
      exact .inr hw
  · rintro (hcaller | hw)
    · exact .inl hcaller
    · exact inside_of_worker hw

theorem inside_setWorker_of_ne {w : Fin n} {pc : Worker F} {t : Thread n ι} (ht : t ≠ .worker w) :
    (s.setWorker w pc).Inside t ↔ s.Inside t := by
  unfold Inside
  refine or_congr Iff.rfl (exists_congr fun w' => and_congr_right fun heq => ?_)
  have hne : w' ≠ w := by
    rintro rfl
    exact ht heq
  show (Function.update s.workers w pc w').inside = true ↔ _
  rw [Function.update_of_ne hne]

theorem inside_setWorker_self {w : Fin n} {pc : Worker F} (hidle : s.callers (.worker w) = .idle) :
    (s.setWorker w pc).Inside (.worker w) ↔ pc.inside = true := by
  rw [inside_worker_iff]
  show (s.callers (.worker w)).inside = true ∨ (Function.update s.workers w pc w).inside = true ↔ _
  rw [hidle, Function.update_self]
  exact or_iff_right Bool.false_ne_true

theorem inside_idle {w : Fin n} (hidle : s.callers (.worker w) = .idle) :
    s.Inside (.worker w) ↔ (s.workers w).inside = true := by
  rw [inside_worker_iff, hidle]
  exact or_iff_right Bool.false_ne_true

/-- A thread that makes calls is outside the loop of `queueFunc`. -/
def Calling (s : ConcurrentTaskQueue n ι F) (p : Thread n ι) : Prop :=
  ∀ w, p = .worker w → (s.workers w).task ≠ none

theorem Calling.not_inside {p : Thread n ι} (h : s.Calling p) {w : Fin n} (hw : p = .worker w) :
    (s.workers w).inside = false := by
  have htask := h w hw
  cases hpc : s.workers w with
  | running r => rfl
  | _ =>
    rw [hpc] at htask
    exact absurd rfl htask

theorem Calling.inside_iff {p : Thread n ι} (h : s.Calling p) :
    s.Inside p ↔ (s.callers p).inside = true := by
  refine or_iff_left ?_
  rintro ⟨w, hw, hin⟩
  rw [h.not_inside hw] at hin
  cases hin

theorem Locked.calling (h : s.Locked) {p : Thread n ι} (hp : s.callers p ≠ .idle) :
    s.Calling p := by
  rintro w rfl htask
  exact hp (h.calls w htask)

theorem calling_of_free {p : Thread n ι} (hfree : s.free p = true) :
    s.callers p = .idle ∧ s.Calling p := by
  unfold free at hfree
  split at hfree
  · rename_i q hidle
    refine ⟨hidle, ?_⟩
    intro w hw
    cases hw
  · rename_i w hidle
    refine ⟨hidle, ?_⟩
    intro w' hw htask
    cases hw
    cases hpc : s.workers w with
    | running r =>
      rw [hpc] at htask
      cases htask
    | _ =>
      rw [hpc] at hfree
      cases hfree
  · cases hfree

/-! ### Steps of a worker -/

theorem CallsFromTask.setWorker (h : s.CallsFromTask) {w : Fin n} {pc : Worker F}
    (hidle : s.callers (.worker w) = .idle) : (s.setWorker w pc).CallsFromTask := by
  intro w' htask
  change (Function.update s.workers w pc w').task = none at htask
  by_cases hw : w' = w
  · subst hw
    exact hidle
  · rw [Function.update_of_ne hw] at htask
    exact h w' htask

/-- A worker that goes on without the mutex, or with it. -/
theorem Locked.setWorker (h : s.Locked) {w : Fin n} {pc : Worker F}
    (hidle : s.callers (.worker w) = .idle) (hsame : pc.inside = (s.workers w).inside) :
    (s.setWorker w pc).Locked where
  guards := h.guards.congr fun t => by
    by_cases ht : t = .worker w
    · subst ht
      rw [inside_setWorker_self hidle, hsame, inside_idle hidle]
    · exact inside_setWorker_of_ne ht
  calls := h.calls.setWorker hidle

theorem Locked.acquireWorker (h : s.Locked) (hmutex : s.taskMutex = none) {w : Fin n}
    {pc : Worker F} (hidle : s.callers (.worker w) = .idle) (hin : pc.inside = true) :
    Locked { s.setWorker w pc with taskMutex := some (.worker w) } where
  guards := by
    have hguards := h.guards
    rw [hmutex] at hguards
    exact hguards.acquire ((inside_setWorker_self hidle).mpr hin)
      fun t ht => inside_setWorker_of_ne (s := s) ht
  calls := h.calls.setWorker hidle

theorem Locked.releaseWorker (h : s.Locked) {w : Fin n} {pc : Worker F}
    (hidle : s.callers (.worker w) = .idle) (hin : (s.workers w).inside = true)
    (hout : pc.inside = false) (taskQueue : List F) :
    Locked { s.setWorker w pc with taskQueue := taskQueue, taskMutex := none } where
  guards := by
    refine h.guards.release ((inside_idle hidle).mpr hin) ?_
      fun t ht => inside_setWorker_of_ne (s := s) ht
    intro hinside
    have hpc := (inside_setWorker_self hidle).mp hinside
    rw [hout] at hpc
    cases hpc
  calls := h.calls.setWorker hidle

/-- What the mutex does not look at. -/
theorem Locked.data (h : s.Locked) (taskQueue : List F) (stop : Bool) :
    Locked { s with taskQueue := taskQueue, stop := stop } :=
  ⟨h.guards, h.calls⟩

theorem Locked.notifyAll (h : s.Locked) : s.notifyAll.Locked where
  guards := h.guards.congr fun t => by
    unfold Inside
    refine or_congr Iff.rfl (exists_congr fun w => and_congr_right fun _ => ?_)
    show ((s.workers w).notified).inside = true ↔ _
    cases s.workers w <;> exact Iff.rfl
  calls := fun w htask => h.calls w (by
    change ((s.workers w).notified).task = none at htask
    cases hpc : s.workers w with
    | running r =>
      rw [hpc] at htask
      cases htask
    | _ => rfl)

theorem locked_stepWorker (h : s.Locked) (w : Fin n) :
    (s.stepWorker w (s.workers w)).Locked := by
  -- a worker calls into the queue only from within a task
  have hidle : (s.workers w).task = none → s.callers (.worker w) = .idle := h.calls w
  cases hpc : s.workers w with
  | outer =>
    rw [hpc] at hidle
    refine h.setWorker (hidle rfl) ?_
    rw [hpc]
    split <;> rfl
  | locking =>
    rw [hpc] at hidle
    rw [stepWorker]
    split
    · rename_i hmutex
      exact h.acquireWorker (Option.isNone_iff_eq_none.mp hmutex) (hidle rfl) rfl
    · exact h
  | woken =>
    rw [hpc] at hidle
    rw [stepWorker]
    split
    · rename_i hmutex
      exact h.acquireWorker (Option.isNone_iff_eq_none.mp hmutex) (hidle rfl) rfl
    · exact h
  | testing =>
    rw [hpc] at hidle
    refine h.setWorker (hidle rfl) ?_
    rw [hpc]
    split <;> rfl
  | toWait =>
    -- the wait gives the mutex back, and so does the worker that has its task
    rw [hpc] at hidle
    exact h.releaseWorker (hidle rfl) (by rw [hpc]; rfl) rfl _
  | blocked =>
    rw [hpc] at hidle
    exact h.setWorker (hidle rfl) (by rw [hpc]; rfl)
  | taking =>
    rw [hpc] at hidle
    rw [stepWorker]
    split
    · exact h.releaseWorker (hidle rfl) (by rw [hpc]; rfl) rfl _
    · exact h.releaseWorker (hidle rfl) (by rw [hpc]; rfl) rfl _
  | running r =>
    rw [stepWorker]
    split
    · rename_i hfree
      exact h.setWorker (calling_of_free hfree).1 (by rw [hpc]; rfl)
    · exact h
  | returned => exact h

variable [DecidableEq ι]

/-! ### Steps of a caller -/

theorem inside_setCaller_of_ne {p t : Thread n ι} {pc : Caller F} (ht : t ≠ p) :
    (s.setCaller p pc).Inside t ↔ s.Inside t := by
  unfold Inside
  refine or_congr ?_ Iff.rfl
  show (Function.update s.callers p pc t).inside = true ↔ _
  rw [Function.update_of_ne ht]

theorem inside_setCaller_self {p : Thread n ι} {pc : Caller F} (h : s.Calling p) :
    (s.setCaller p pc).Inside p ↔ pc.inside = true := by
  have hcalling : (s.setCaller p pc).Calling p := h
  rw [hcalling.inside_iff]
  show (Function.update s.callers p pc p).inside = true ↔ _
  rw [Function.update_self]

theorem Locked.callsOf (h : s.Locked) {p : Thread n ι} {pc : Caller F} (hp : s.Calling p) :
    (s.setCaller p pc).CallsFromTask := by
  intro w htask
  have hne : Thread.worker w ≠ p := by
    rintro rfl
    exact hp w rfl htask
  show Function.update s.callers p pc (.worker w) = .idle
  rw [Function.update_of_ne hne]
  exact h.calls w htask

theorem Locked.setCaller (h : s.Locked) {p : Thread n ι} {pc : Caller F} (hp : s.Calling p)
    (hsame : pc.inside = (s.callers p).inside) : (s.setCaller p pc).Locked where
  guards := h.guards.congr fun t => by
    by_cases ht : t = p
    · subst ht
      rw [inside_setCaller_self hp, hsame, hp.inside_iff]
    · exact inside_setCaller_of_ne ht
  calls := h.callsOf hp

theorem Locked.acquireCaller (h : s.Locked) (hmutex : s.taskMutex = none) {p : Thread n ι}
    {pc : Caller F} (hp : s.Calling p) (hin : pc.inside = true) :
    Locked { s.setCaller p pc with taskMutex := some p } where
  guards := by
    have hguards := h.guards
    rw [hmutex] at hguards
    exact hguards.acquire ((inside_setCaller_self hp).mpr hin)
      fun t ht => inside_setCaller_of_ne (s := s) ht
  calls := h.callsOf hp

theorem Locked.releaseCaller (h : s.Locked) {p : Thread n ι} {pc : Caller F} (hp : s.Calling p)
    (hin : (s.callers p).inside = true) (hout : pc.inside = false) :
    Locked { s.setCaller p pc with taskMutex := none } where
  guards := by
    refine h.guards.release (hp.inside_iff.mpr hin) ?_
      fun t ht => inside_setCaller_of_ne (s := s) ht
    intro hinside
    have hpc := (inside_setCaller_self hp).mp hinside
    rw [hout] at hpc
    cases hpc
  calls := h.callsOf hp

theorem locked_stepCaller (h : s.Locked) (p : Thread n ι) (w : Option (Fin n)) :
    (s.stepCaller p w (s.callers p)).Locked := by
  -- a worker that calls is within a task of its own
  have hcalling : s.callers p ≠ .idle → s.Calling p := h.calling
  cases hpc : s.callers p with
  | idle => exact h
  | locking task =>
    have hp := hcalling (by simp [hpc])
    rw [stepCaller]
    split
    · rename_i hmutex
      exact h.acquireCaller (Option.isNone_iff_eq_none.mp hmutex) hp rfl
    · exact h
  | pushing task =>
    have hp := hcalling (by simp [hpc])
    have hpushed : (s.setCaller p .notifyingOne).Locked := h.setCaller hp (by rw [hpc]; rfl)
    exact hpushed.data _ _
  | notifyingOne =>
    have hp := hcalling (by simp [hpc])
    cases w with
    | some w =>
      rw [stepCaller]
      split
      · rename_i hblocked
        cases hw : s.workers w with
        | blocked =>
          have hidle : s.callers (.worker w) = .idle := h.calls w (by rw [hw]; rfl)
          have hwoken : (s.setWorker w .woken).Locked := h.setWorker hidle (by rw [hw]; rfl)
          have hp' : (s.setWorker w .woken).Calling p := hwoken.calling (by
            show s.callers p ≠ .idle
            simp [hpc])
          refine hwoken.setCaller hp' ?_
          show _ = (s.callers p).inside
          rw [hpc]
          rfl
        | _ =>
          rw [hw] at hblocked
          cases hblocked
      · exact h
    | none =>
      rw [stepCaller]
      split
      · exact h
      · exact h.setCaller hp (by rw [hpc]; rfl)
  | unlocking =>
    have hp := hcalling (by simp [hpc])
    exact h.releaseCaller hp (by rw [hpc]; rfl) rfl
  | settingStop =>
    -- `stop_` is set and announced without the mutex
    have hp := hcalling (by simp [hpc])
    have hset : (s.setCaller p .notifyingAll).Locked := h.setCaller hp (by rw [hpc]; rfl)
    exact hset.data _ _
  | notifyingAll =>
    have hall := h.notifyAll
    refine hall.setCaller (hall.calling ?_) ?_
    · show s.callers p ≠ .idle
      simp [hpc]
    · show _ = (s.callers p).inside
      rw [hpc]
      rfl
  | joining =>
    have hp := hcalling (by simp [hpc])
    rw [stepCaller]
    split
    · exact h.setCaller hp (by rw [hpc]; rfl)
    · exact h

theorem locked_step (h : s.Locked) (a : Act n ι F) : (s.step a).Locked := by
  cases a with
  | worker w => exact locked_stepWorker h w
  | runTaskInQueue p task =>
    rw [step]
    split
    · rename_i hfree
      obtain ⟨hidle, hp⟩ := calling_of_free hfree
      exact h.setCaller hp (by rw [hidle]; rfl)
    · exact h
  | stop p =>
    rw [step]
    split
    · rename_i hfree
      obtain ⟨hidle, hp⟩ := calling_of_free (Bool.and_eq_true_iff.mp hfree).1
      exact h.setCaller hp (by rw [hidle]; rfl)
    · exact h
  | caller p w => exact locked_stepCaller h p w

omit [DecidableEq ι] in
theorem locked_new : (new : ConcurrentTaskQueue n ι F).Locked where
  guards := fun t => by
    refine iff_of_false ?_ (by rintro ⟨⟩)
    rintro (hcaller | ⟨w, -, hw⟩)
    · cases hcaller
    · cases hw
  calls := fun _ _ => rfl

/-! ## Tasks -/

/-- A queue and what has become of the tasks. -/
structure Traced (n : Nat) (ι : Type u) (F : Type v) where
  queue : ConcurrentTaskQueue n ι F
  pushed : List F
  /-- With the worker that took the task. -/
  started : List (Fin n × F)
  finished : List (Fin n × F)
  /-- What had been started when a call of `stop` first came back from its joins. -/
  stopped : Option (List (Fin n × F))

namespace Traced

def new : Traced n ι F where
  queue := .new
  pushed := []
  started := []
  finished := []
  stopped := none

/-- The task that a thread pushes in its next step. -/
def pushing : Caller F → List F
  | .pushing task => [task]
  | _ => []

/-- The task that a worker takes off the queue and starts in its next step. -/
def starting (w : Fin n) (taskQueue : List F) : Worker F → List (Fin n × F)
  | .taking => (taskQueue.take 1).map (Prod.mk w)
  | _ => []

/-- The task that returns in the next step of a worker, when the worker is in no call. -/
def finishing (w : Fin n) (free : Bool) : Worker F → List (Fin n × F)
  | .running r => if free then [(w, r)] else []
  | _ => []

def pushes (s : ConcurrentTaskQueue n ι F) : Act n ι F → List F
  | .caller p _ => pushing (s.callers p)
  | _ => []

def starts (s : ConcurrentTaskQueue n ι F) : Act n ι F → List (Fin n × F)
  | .worker w => starting w s.taskQueue (s.workers w)
  | _ => []

def finishes (s : ConcurrentTaskQueue n ι F) : Act n ι F → List (Fin n × F)
  | .worker w => finishing w (s.free (.worker w)) (s.workers w)
  | _ => []

/-- A call of `stop` comes back from its joins. -/
def comesBack (s : ConcurrentTaskQueue n ι F) : Act n ι F → Bool
  | .caller p _ =>
    match s.callers p with
    | .joining => decide (∀ w, (s.workers w).hasReturned = true)
    | _ => false
  | _ => false

def step (t : Traced n ι F) (a : Act n ι F) : Traced n ι F where
  queue := t.queue.step a
  pushed := t.pushed ++ pushes t.queue a
  started := t.started ++ starts t.queue a
  finished := t.finished ++ finishes t.queue a
  stopped := t.stopped <|> if comesBack t.queue a then some t.started else none

/-- The tasks of one worker. -/
def of (w : Fin n) (l : List (Fin n × F)) : List F := (l.filter (·.1 = w)).map Prod.snd

/-- **Every task once, in order.** -/
structure Accounted (t : Traced n ι F) : Prop where
  /-- No two threads are between lock and unlock of `taskMutex_`. -/
  exclusive : ∀ p q, t.queue.Inside p → t.queue.Inside q → p = q
  /-- Tasks start in the order in which they were pushed. -/
  fifo : t.pushed = t.started.map Prod.snd ++ t.queue.taskQueue
  /-- A worker finishes a task before it starts the next. -/
  one : ∀ w, of w t.started = of w t.finished ++ (t.queue.workers w).task.toList
  /-- When a call of `stop` comes back every task that was started has finished, and none is
  started any more. -/
  quiet : ∀ l, t.stopped = some l → t.started = l ∧ ∀ w, of w l = of w t.finished

end Traced

/-! ### What a step does to the workers -/

/-- A worker changes in a step of its own, or is woken up. -/
theorem workers_step (s : ConcurrentTaskQueue n ι F) (a : Act n ι F) (w : Fin n) :
    (s.step a).workers w = s.workers w ∨ a = .worker w ∨
      (s.workers w = .blocked ∧ (s.step a).workers w = .woken) := by
  cases a with
  | worker w' =>
    by_cases hw : w' = w
    · subst hw
      exact .inr (.inl rfl)
    -- a step of one worker moves no other
    have hne : ∀ pc, Function.update s.workers w' pc w = s.workers w :=
      fun pc => Function.update_of_ne (Ne.symm hw) _ _
    refine .inl ?_
    rw [step]
    cases s.workers w' with
    | outer => exact hne _
    | locking =>
      rw [stepWorker]
      split
      · exact hne _
      · rfl
    | woken =>
      rw [stepWorker]
      split
      · exact hne _
      · rfl
    | testing => exact hne _
    | toWait => exact hne _
    | blocked => exact hne _
    | taking =>
      rw [stepWorker]
      split <;> exact hne _
    | running r =>
      rw [stepWorker]
      split
      · exact hne _
      · rfl
    | returned => rfl
  | runTaskInQueue p task =>
    rw [step]
    split <;> exact .inl rfl
  | stop p =>
    rw [step]
    split <;> exact .inl rfl
  | caller p w' =>
    rw [step]
    cases s.callers p with
    | idle => exact .inl rfl
    | locking task =>
      rw [stepCaller]
      split <;> exact .inl rfl
    | pushing task => exact .inl rfl
    | notifyingOne =>
      cases w' with
      | some w' =>
        rw [stepCaller]
        split
        · rename_i hblocked
          by_cases hw : w' = w
          · subst hw
            refine .inr (.inr ⟨?_, Function.update_self _ _ _⟩)
            cases hpc : s.workers w' with
            | blocked => rfl
            | _ =>
              rw [hpc] at hblocked
              cases hblocked
          · exact .inl (Function.update_of_ne (Ne.symm hw) _ _)
        · exact .inl rfl
      | none =>
        rw [stepCaller]
        split <;> exact .inl rfl
    | unlocking => exact .inl rfl
    | settingStop => exact .inl rfl
    | notifyingAll =>
      -- all that are blocked wake up, the rest stay where they are
      show ((s.workers w).notified = _ ∨ _ ∨ _ ∧ (s.workers w).notified = _)
      cases s.workers w with
      | blocked => exact .inr (.inr ⟨rfl, rfl⟩)
      | _ => exact .inl rfl
    | joining =>
      rw [stepCaller]
      split <;> exact .inl rfl

/-- Where a step of its own takes a worker. -/
def after (s : ConcurrentTaskQueue n ι F) (w : Fin n) : Worker F → Worker F
  | .outer => if s.stop then .returned else .locking
  | .locking => if s.taskMutex.isNone then .testing else .locking
  | .woken => if s.taskMutex.isNone then .testing else .woken
  | .testing => if !s.stop && s.taskQueue.isEmpty then .toWait else .taking
  | .toWait => .blocked
  | .blocked => .woken
  | .taking =>
    match s.taskQueue with
    | r :: _ => .running r
    | [] => .outer
  | .running r => if s.free (.worker w) then .outer else .running r
  | .returned => .returned

theorem worker_step (s : ConcurrentTaskQueue n ι F) (w : Fin n) :
    (s.step (.worker w)).workers w = s.after w (s.workers w) := by
  have hset : ∀ pc, Function.update s.workers w pc w = pc :=
    fun pc => Function.update_self w pc s.workers
  rw [step]
  cases hpc : s.workers w with
  | outer => exact hset _
  | locking =>
    rw [stepWorker, after]
    split
    · exact hset _
    · exact hpc
  | woken =>
    rw [stepWorker, after]
    split
    · exact hset _
    · exact hpc
  | testing => exact hset _
  | toWait => exact hset _
  | blocked => exact hset _
  | taking =>
    rw [stepWorker, after]
    cases s.taskQueue with
    | nil => exact hset _
    | cons r rest => exact hset _
  | running r =>
    rw [stepWorker, after]
    split
    · exact hset _
    · exact hpc
  | returned => exact hpc

/-- A worker that has returned stays so. -/
theorem hasReturned_step (a : Act n ι F) {w : Fin n} (h : (s.workers w).hasReturned = true) :
    ((s.step a).workers w).hasReturned = true := by
  rcases workers_step s a w with hsame | rfl | ⟨hblocked, -⟩
  · rw [hsame]
    exact h
  · cases hpc : s.workers w with
    | returned =>
      rw [worker_step, hpc]
      rfl
    | _ =>
      rw [hpc] at h
      cases h
  · rw [hblocked] at h
    cases h

namespace Traced

/-- What waits and what is pushed is what starts and what still waits. -/
theorem taskQueue_step (s : ConcurrentTaskQueue n ι F) (a : Act n ι F) :
    s.taskQueue ++ pushes s a = (starts s a).map Prod.snd ++ (s.step a).taskQueue := by
  cases a with
  | worker w =>
    show s.taskQueue ++ [] = (starting w s.taskQueue (s.workers w)).map Prod.snd ++
      (s.stepWorker w (s.workers w)).taskQueue
    rw [List.append_nil]
    cases s.workers w with
    | taking =>
      -- the front task is the one that starts
      rw [stepWorker]
      split
      · rename_i r rest hq
        rw [hq]
        rfl
      · rename_i hq
        show s.taskQueue = _ ++ s.taskQueue
        rw [hq]
        rfl
    | locking =>
      rw [stepWorker]
      split <;> rfl
    | woken =>
      rw [stepWorker]
      split <;> rfl
    | running r =>
      rw [stepWorker]
      split <;> rfl
    | _ => rfl
  | runTaskInQueue p task =>
    show s.taskQueue ++ [] = (ConcurrentTaskQueue.step _ _).taskQueue
    rw [List.append_nil, ConcurrentTaskQueue.step]
    split <;> rfl
  | stop p =>
    show s.taskQueue ++ [] = (ConcurrentTaskQueue.step _ _).taskQueue
    rw [List.append_nil, ConcurrentTaskQueue.step]
    split <;> rfl
  | caller p w =>
    show s.taskQueue ++ pushing (s.callers p) = (s.stepCaller p w (s.callers p)).taskQueue
    cases s.callers p with
    | pushing task =>
      -- the only call that puts a task in
      rfl
    | locking task =>
      rw [stepCaller]
      split <;> exact List.append_nil _
    | notifyingOne =>
      cases w with
      | some w =>
        rw [stepCaller]
        split <;> exact List.append_nil _
      | none =>
        rw [stepCaller]
        split <;> exact List.append_nil _
    | joining =>
      rw [stepCaller]
      split <;> exact List.append_nil _
    | _ => exact List.append_nil _

theorem of_append (w : Fin n) (l l' : List (Fin n × F)) : of w (l ++ l') = of w l ++ of w l' := by
  rw [of, List.filter_append, List.map_append]
  rfl

theorem of_other {w w' : Fin n} (h : w' ≠ w) (l : List F) : of w (l.map (Prod.mk w')) = [] := by
  induction l with
  | nil => rfl
  | cons r l ih =>
    rw [List.map_cons, of, List.filter_cons_of_neg (by simpa using h)]
    exact ih

theorem of_self (w : Fin n) (r : F) : of w [(w, r)] = [r] := by
  simp [of]

omit [DecidableEq ι] in
/-- A step of another worker. -/
theorem of_step_other {a : Act n ι F} {w : Fin n} (h : a ≠ .worker w) :
    of w (starts s a) = [] ∧ of w (finishes s a) = [] := by
  cases a with
  | worker w' =>
    have hw : w' ≠ w := by
      rintro rfl
      exact h rfl
    show of w (starting w' s.taskQueue (s.workers w')) = [] ∧
      of w (finishing w' (s.free (.worker w')) (s.workers w')) = []
    cases s.workers w' with
    | taking => exact ⟨of_other hw _, rfl⟩
    | running r =>
      rw [finishing]
      split
      · exact ⟨rfl, of_other hw [r]⟩
      · exact ⟨rfl, rfl⟩
    | _ => exact ⟨rfl, rfl⟩
  | _ => exact ⟨rfl, rfl⟩

/-- What a worker runs, and what it starts, is what it finishes or runs then. -/
theorem task_step (s : ConcurrentTaskQueue n ι F) (a : Act n ι F) (w : Fin n) :
    (s.workers w).task.toList ++ of w (starts s a) =
      of w (finishes s a) ++ ((s.step a).workers w).task.toList := by
  -- only the worker's own steps start and end its task
  by_cases hself : a = .worker w
  · subst hself
    rw [worker_step]
    show _ ++ of w (starting w s.taskQueue (s.workers w)) =
      of w (finishing w (s.free (.worker w)) (s.workers w)) ++ _
    cases s.workers w with
    | outer =>
      rw [after]
      split <;> rfl
    | locking =>
      rw [after]
      split <;> rfl
    | woken =>
      rw [after]
      split <;> rfl
    | testing =>
      rw [after]
      split <;> rfl
    | taking =>
      -- it holds the task that it has taken from now on
      rw [after, starting]
      cases s.taskQueue with
      | nil => rfl
      | cons r rest =>
        show [] ++ of w [(w, r)] = [] ++ [r]
        rw [of_self]
    | running r =>
      rw [after, finishing]
      split
      · show [r] ++ [] = of w [(w, r)] ++ []
        rw [of_self]
      · rfl
    | _ => rfl
  · obtain ⟨hstarts, hfinishes⟩ := of_step_other (s := s) hself
    rw [hstarts, hfinishes, List.append_nil, List.nil_append]
    rcases workers_step s a w with hsame | hw | ⟨hblocked, hwoken⟩
    · rw [hsame]
    · exact absurd hw hself
    · rw [hblocked, hwoken]
      rfl

omit [DecidableEq ι] in
/-- The workers have all returned when a call of `stop` comes back. -/
theorem returned_of_comesBack {a : Act n ι F} (h : comesBack s a = true) (w : Fin n) :
    (s.workers w).hasReturned = true := by
  cases a with
  | caller p v =>
    rw [comesBack] at h
    split at h
    · exact of_decide_eq_true h w
    · cases h
  | _ => cases h

/-- `Accounted`, and what it rests on. -/
structure Inv (t : Traced n ι F) : Prop where
  locked : t.queue.Locked
  fifo : t.pushed = t.started.map Prod.snd ++ t.queue.taskQueue
  one : ∀ w, of w t.started = of w t.finished ++ (t.queue.workers w).task.toList
  quiet : ∀ l, t.stopped = some l →
    t.started = l ∧ ∀ w, (t.queue.workers w).hasReturned = true

variable {t : Traced n ι F}

theorem task_of_hasReturned {pc : Worker F} (h : pc.hasReturned = true) : pc.task = none := by
  cases pc with
  | running r => cases h
  | _ => rfl

omit [DecidableEq ι] in
theorem Inv.accounted (h : t.Inv) : t.Accounted where
  exclusive _ _ hp hq := h.locked.guards.exclusive hp hq
  fifo := h.fifo
  one := h.one
  quiet l hl := by
    obtain ⟨hstarted, hreturned⟩ := h.quiet l hl
    refine ⟨hstarted, fun w => ?_⟩
    rw [← hstarted, h.one, task_of_hasReturned (hreturned w)]
    exact List.append_nil _

omit [DecidableEq ι] in
theorem inv_new : (new : Traced n ι F).Inv where
  locked := locked_new
  fifo := rfl
  one _ := rfl
  quiet _ h := by cases h

omit [DecidableEq ι] in
/-- A worker that has returned starts nothing. -/
theorem starts_eq_nil (h : ∀ w, (s.workers w).hasReturned = true) (a : Act n ι F) :
    starts s a = [] := by
  cases a with
  | worker w =>
    have hw := h w
    show starting w s.taskQueue (s.workers w) = []
    cases hpc : s.workers w with
    | taking =>
      rw [hpc] at hw
      cases hw
    | _ => rfl
  | _ => rfl

/-- A call of `stop` has come back before the step, or does in it. -/
theorem returned_of_stopped (h : t.Inv) {a : Act n ι F} {l : List (Fin n × F)}
    (hl : (t.step a).stopped = some l) :
    t.started = l ∧ ∀ w, (t.queue.workers w).hasReturned = true := by
  change (t.stopped <|> if comesBack t.queue a then some t.started else none) = some l at hl
  cases hstopped : t.stopped with
  | some l' =>
    rw [hstopped] at hl
    exact h.quiet l (hstopped.trans hl)
  | none =>
    rw [hstopped] at hl
    change (if comesBack t.queue a then some t.started else none) = some l at hl
    split at hl
    · rename_i hback
      exact ⟨Option.some.inj hl, returned_of_comesBack hback⟩
    · cases hl

theorem inv_step (h : t.Inv) (a : Act n ι F) : (t.step a).Inv where
  locked := locked_step h.locked a
  fifo := by
    show t.pushed ++ pushes t.queue a =
      (t.started ++ starts t.queue a).map Prod.snd ++ (t.queue.step a).taskQueue
    rw [h.fifo, List.map_append, List.append_assoc, List.append_assoc, taskQueue_step]
  one w := by
    show of w (t.started ++ starts t.queue a) =
      of w (t.finished ++ finishes t.queue a) ++ ((t.queue.step a).workers w).task.toList
    rw [of_append, of_append, h.one, List.append_assoc, List.append_assoc, task_step]
  quiet l hl := by
    obtain ⟨hstarted, hreturned⟩ := returned_of_stopped h hl
    refine ⟨?_, fun w => hasReturned_step a (hreturned w)⟩
    show t.started ++ starts t.queue a = l
    rw [starts_eq_nil hreturned, List.append_nil, hstarted]

/-- **Tasks are accounted for**: in every interleaving of the workers with any threads that push
tasks and stop the queue. -/
theorem always_accounted (as : List (Act n ι F)) :
    Runs.Always step Accounted (new : Traced n ι F) as := by
  have hinv : Runs.Always step Inv (new : Traced n ι F) as :=
    Runs.always_of_step (I := Inv) (fun _ a h => inv_step h a) inv_new as
  exact hinv.mono fun _ h => h.accounted

end Traced

/-! ## No worker rests while tasks wait -/

/-- The worker is going to look at the queue. -/
def Worker.comes : Worker F → Bool
  | .outer | .locking | .testing | .woken | .taking => true
  | _ => false

/-- **Work conservation**: when a worker is blocked and no thread is at its `notify_one`, there
are at least as many workers on their way to the queue as tasks in it. -/
def WorkConserving (s : ConcurrentTaskQueue n ι F) : Prop :=
  s.stop = false → (∀ p, s.callers p ≠ .notifyingOne) → (∃ w, s.workers w = .blocked) →
    s.taskQueue.length ≤ census Worker.comes s.workers

/-- A thread has pushed a task and is at its `notify_one`. -/
def Notifying (s : ConcurrentTaskQueue n ι F) : Prop := ∃ p, s.callers p = .notifyingOne

/-- The workers on their way are enough for the tasks, or one more is about to be notified. -/
def Enough (s : ConcurrentTaskQueue n ι F) : Prop :=
  s.taskQueue.length ≤ census Worker.comes s.workers ∨
    (s.Notifying ∧ s.taskQueue.length ≤ census Worker.comes s.workers + 1)

/-- While a worker rests the others are enough. -/
structure Covered (s : ConcurrentTaskQueue n ι F) : Prop where
  locked : s.Locked
  enough : s.stop = false → (∃ w, (s.workers w).rests = true) → s.Enough

omit [DecidableEq ι] in
theorem Covered.workConserving (h : s.Covered) : s.WorkConserving := by
  rintro hstop hnotifying ⟨w, hw⟩
  rcases h.enough hstop ⟨w, by rw [hw]; rfl⟩ with hle | ⟨⟨p, hp⟩, -⟩
  · exact hle
  · exact absurd hp (hnotifying p)

omit [DecidableEq ι] in
/-- A worker goes on: the tasks do not grow more than the workers on their way. -/
theorem Covered.setWorker (h : s.Covered) {w : Fin n} {pc : Worker F} {taskQueue : List F}
    {taskMutex : Option (Thread n ι)} (hrests : pc.rests = true → (s.workers w).rests = true)
    (hlen : taskQueue.length + (if (s.workers w).comes = true then 1 else 0) ≤
      s.taskQueue.length + (if pc.comes = true then 1 else 0))
    (hstop : s.stop = false)
    (hrest : ∃ v, ((s.setWorker w pc).workers v).rests = true) :
    Enough { s.setWorker w pc with taskQueue := taskQueue, taskMutex := taskMutex } := by
  have hcensus := census_update Worker.comes s.workers w pc
  have hbefore : ∃ v, (s.workers v).rests = true := by
    obtain ⟨v, hv⟩ := hrest
    change (Function.update s.workers w pc v).rests = true at hv
    by_cases hvw : v = w
    · subst hvw
      rw [Function.update_self] at hv
      exact ⟨v, hrests hv⟩
    · rw [Function.update_of_ne hvw] at hv
      exact ⟨v, hv⟩
  show taskQueue.length ≤ census Worker.comes (Function.update s.workers w pc) ∨
    (s.Notifying ∧ taskQueue.length ≤ census Worker.comes (Function.update s.workers w pc) + 1)
  rcases h.enough hstop hbefore with hle | ⟨hnotifying, hle⟩
  · exact .inl (by omega)
  · exact .inr ⟨hnotifying, by omega⟩

omit [DecidableEq ι] in
theorem covered_stepWorker (h : s.Covered) (w : Fin n) :
    (s.stepWorker w (s.workers w)).Covered := by
  refine ⟨locked_stepWorker h.locked w, ?_⟩
  cases hpc : s.workers w with
  | outer =>
    intro hstop hrest
    change s.stop = false at hstop
    rw [stepWorker, hstop] at hrest ⊢
    exact h.setWorker (by rintro ⟨⟩) (by rw [hpc]; exact Nat.le_refl _) hstop hrest
  | locking =>
    rw [stepWorker]
    split
    · exact h.setWorker (by rintro ⟨⟩) (by rw [hpc]; exact Nat.le_refl _)
    · exact h.enough
  | woken =>
    rw [stepWorker]
    split
    · exact h.setWorker (by rintro ⟨⟩) (by rw [hpc]; exact Nat.le_refl _)
    · exact h.enough
  | testing =>
    -- before it rests it has seen the queue empty, under the mutex
    intro hstop hrest
    change s.stop = false at hstop
    rw [stepWorker, hstop] at hrest ⊢
    cases hq : s.taskQueue with
    | nil =>
      refine .inl ?_
      show s.taskQueue.length ≤ _
      rw [hq]
      exact Nat.zero_le _
    | cons r rest =>
      rw [hq] at hrest
      refine h.setWorker (by rintro ⟨⟩) ?_ hstop hrest
      rw [hpc]
      exact Nat.le_refl _
  | toWait =>
    refine h.setWorker (fun _ => by rw [hpc]; rfl) ?_
    rw [hpc]
    exact Nat.le_refl _
  | blocked =>
    refine h.setWorker (by rintro ⟨⟩) ?_
    rw [hpc]
    exact Nat.le_succ _
  | taking =>
    -- one task fewer waits, and one worker fewer is on its way to them
    rw [stepWorker]
    split
    · rename_i r rest hq
      refine h.setWorker (by rintro ⟨⟩) ?_
      rw [hpc, hq]
      exact Nat.le_refl _
    · rename_i hq
      intro _ _
      exact .inl (hq ▸ Nat.zero_le _)
  | running r =>
    rw [stepWorker]
    split
    · refine h.setWorker (by rintro ⟨⟩) ?_
      rw [hpc]
      exact Nat.le_succ _
    · exact h.enough
  | returned => exact h.enough

/-- A thread goes on in its call, but not from or to its `notify_one`. -/
theorem Covered.setCaller (h : s.Covered) {p : Thread n ι} {pc : Caller F}
    (hp : s.callers p ≠ .notifyingOne) (hstop : s.stop = false)
    (hrest : ∃ w, (s.workers w).rests = true) : (s.setCaller p pc).Enough := by
  rcases h.enough hstop hrest with hle | ⟨⟨q, hq⟩, hle⟩
  · exact .inl hle
  · have hne : q ≠ p := by
      rintro rfl
      exact hp hq
    exact .inr ⟨⟨q, (Function.update_of_ne hne _ _).trans hq⟩, hle⟩

/-- Nobody else is at its `notify_one` while a thread pushes. -/
theorem Covered.push (h : s.Covered) {p : Thread n ι} {task : F} (hp : s.callers p = .pushing task)
    (hstop : s.stop = false) (hrest : ∃ w, (s.workers w).rests = true) :
    Enough { s.setCaller p .notifyingOne with taskQueue := s.taskQueue ++ [task] } := by
  have hle : s.taskQueue.length ≤ census Worker.comes s.workers := by
    rcases h.enough hstop hrest with hle | ⟨⟨q, hq⟩, -⟩
    · exact hle
    · have heq : q = p :=
        h.locked.guards.exclusive (.inl (by rw [hq]; rfl)) (.inl (by rw [hp]; rfl))
      rw [heq, hp] at hq
      cases hq
  refine .inr ⟨⟨p, Function.update_self _ _ _⟩, ?_⟩
  show (s.taskQueue ++ [task]).length ≤ census Worker.comes s.workers + 1
  rw [List.length_append]
  exact Nat.succ_le_succ hle

/-- A blocked worker is notified. -/
theorem Covered.notify (h : s.Covered) {p : Thread n ι} {w : Fin n}
    (hw : s.workers w = .blocked) (hstop : s.stop = false) :
    ((s.setWorker w .woken).setCaller p .unlocking).Enough := by
  -- one more worker is on its way to the tasks
  have hmore : census Worker.comes (Function.update s.workers w .woken) =
      census Worker.comes s.workers + 1 := census_enter (by rw [hw]; rfl) rfl
  refine .inl ?_
  show s.taskQueue.length ≤ census Worker.comes (Function.update s.workers w .woken)
  rw [hmore]
  rcases h.enough hstop ⟨w, by rw [hw]; rfl⟩ with hle | ⟨-, hle⟩
  · exact Nat.le_succ_of_le hle
  · exact hle

omit [DecidableEq ι] in
/-- When a thread is at its `notify_one` and no worker is blocked, no worker rests: one that is
about to be blocked has the mutex. -/
theorem Covered.nobody_rests (h : s.Covered) {p : Thread n ι} (hp : s.callers p = .notifyingOne)
    (hnone : ¬ ∃ w, (s.workers w).isBlocked = true) (w : Fin n) :
    (s.workers w).rests = false := by
  cases hpc : s.workers w with
  | toWait =>
    have hin : s.Inside (.worker w) := inside_of_worker (by rw [hpc]; rfl)
    have heq : .worker w = p := h.locked.guards.exclusive hin (.inl (by rw [hp]; rfl))
    have hidle := h.locked.calls w (by rw [hpc]; rfl)
    rw [heq, hp] at hidle
    cases hidle
  | blocked => exact absurd ⟨w, by rw [hpc]; rfl⟩ hnone
  | _ => rfl

omit [DecidableEq ι] in
theorem Covered.notifyAll (h : s.Covered) : s.notifyAll.Covered where
  locked := h.locked.notifyAll
  enough := by
    rintro hstop ⟨w, hw⟩
    change ((s.workers w).notified).rests = true at hw
    have hrest : (s.workers w).rests = true := by
      cases hv : s.workers w with
      | toWait => rfl
      | blocked => rfl
      | _ =>
        rw [hv] at hw
        exact hw
    have hmore : census Worker.comes s.workers ≤
        census Worker.comes fun w => (s.workers w).notified := by
      refine census_mono fun v hv => ?_
      cases hs : s.workers v with
      | blocked => rfl
      | _ =>
        rw [hs] at hv
        exact hv
    rcases h.enough hstop ⟨w, hrest⟩ with hle | ⟨hnotifying, hle⟩
    · exact .inl (Nat.le_trans hle hmore)
    · exact .inr ⟨hnotifying, Nat.le_trans hle (Nat.add_le_add_right hmore 1)⟩

theorem covered_stepCaller (h : s.Covered) (p : Thread n ι) (w : Option (Fin n)) :
    (s.stepCaller p w (s.callers p)).Covered := by
  refine ⟨locked_stepCaller h.locked p w, ?_⟩
  cases hpc : s.callers p with
  | idle => exact h.enough
  | locking task =>
    rw [stepCaller]
    split
    · exact h.setCaller (by simp [hpc])
    · exact h.enough
  | pushing task => exact h.push hpc
  | notifyingOne =>
    cases w with
    | some w =>
      rw [stepCaller]
      split
      · rename_i hblocked
        intro hstop _
        cases hw : s.workers w with
        | blocked => exact h.notify hw hstop
        | _ =>
          rw [hw] at hblocked
          cases hblocked
      · exact h.enough
    | none =>
      -- with nobody blocked there is nobody at rest, for the caller holds the mutex
      rw [stepCaller]
      split
      · exact h.enough
      · rename_i hnone
        rintro - ⟨w, hw⟩
        change (s.workers w).rests = true at hw
        rw [h.nobody_rests hpc hnone w] at hw
        cases hw
  | unlocking => exact h.setCaller (by simp [hpc])
  | settingStop =>
    -- nothing is promised once `stop_` is set
    intro hstop
    cases hstop
  | notifyingAll =>
    refine h.notifyAll.setCaller ?_
    show s.callers p ≠ .notifyingOne
    simp [hpc]
  | joining =>
    rw [stepCaller]
    split
    · exact h.setCaller (by simp [hpc])
    · exact h.enough

theorem covered_step (h : s.Covered) (a : Act n ι F) : (s.step a).Covered := by
  cases a with
  | worker w => exact covered_stepWorker h w
  | runTaskInQueue p task =>
    refine ⟨locked_step h.locked _, ?_⟩
    rw [step]
    split
    · rename_i hfree
      exact h.setCaller (by simp [(calling_of_free hfree).1])
    · exact h.enough
  | stop p =>
    refine ⟨locked_step h.locked _, ?_⟩
    rw [step]
    split
    · rename_i hfree
      exact h.setCaller (by simp [(calling_of_free (Bool.and_eq_true_iff.mp hfree).1).1])
    · exact h.enough
  | caller p w => exact covered_stepCaller h p w

omit [DecidableEq ι] in
theorem covered_new : (new : ConcurrentTaskQueue n ι F).Covered where
  locked := locked_new
  enough _ _ := .inl (Nat.zero_le _)

/-- **No worker sleeps while tasks wait**: in every interleaving, as long as the queue is not
stopped, the tasks in the queue are no more than the workers on their way to it whenever a worker
is blocked and every `notify_one` has been made. -/
theorem always_workConserving (as : List (Act n ι F)) :
    Runs.Always step WorkConserving (new : ConcurrentTaskQueue n ι F) as := by
  have hinv : Runs.Always step Covered (new : ConcurrentTaskQueue n ι F) as :=
    Runs.always_of_step (I := Covered) (fun _ a h => covered_step h a) covered_new as
  exact hinv.mono fun _ h => h.workConserving

end ConcurrentTaskQueue

end XiaoNet
