import XiaoNet.Utils.ConcurrentTaskQueue

/-!
# `stop` and the workers that wait

`stop` sets `stop_` without the mutex. A worker that has found `stop_` false and no task goes
on to `wait`; when `notify_all` comes in between, nobody wakes it up.

- `GetsBack`: no thread is in the joins of `stop` while a worker is blocked without a
  notification.
- `Outside`: `notify_all` is called while no worker is between its test and `wait`.
- `getsBack_of_outside`: then `GetsBack` holds throughout; and otherwise the worker can block.
-/

namespace XiaoNet

universe u v

namespace ConcurrentTaskQueue

variable {n : Nat} {ι : Type u} {F : Type v}

/-- No `stop` joins a worker that is blocked without a notification. -/
def GetsBack (s : ConcurrentTaskQueue n ι F) : Prop :=
  ∀ p w, s.callers p = .joining → s.workers w ≠ .blocked

/-- When the step is `notify_all`, no worker is between its test and `wait`. -/
def Outside (s : ConcurrentTaskQueue n ι F) : Act n ι F → Prop
  | .caller p _ => s.callers p = .notifyingAll → ∀ w, s.workers w ≠ .toWait
  | _ => True

/-- Blocked without a notification, or on the way. -/
def Worker.rests : Worker F → Bool
  | .toWait | .blocked => true
  | _ => false

/-- Once `stop` joins, no worker rests. -/
structure Inv (s : ConcurrentTaskQueue n ι F) : Prop where
  stopped : ∀ p, s.callers p = .notifyingAll ∨ s.callers p = .joining → s.stop = true
  awake : ∀ p, s.callers p = .joining → ∀ w, (s.workers w).rests = false

variable {s : ConcurrentTaskQueue n ι F}

theorem Inv.getsBack (h : s.Inv) : s.GetsBack := by
  intro p w hp hw
  have hrests := h.awake p hp w
  rw [hw] at hrests
  cases hrests

theorem inv_new : Inv (new : ConcurrentTaskQueue n ι F) where
  stopped := fun p hp => by
    rcases hp with hp | hp <;> cases hp
  awake := fun p hp => by cases hp

/-- A worker comes to rest only while `stop_` is false. -/
theorem Inv.setWorker (h : s.Inv) {w : Fin n} {pc : Worker F}
    (hpc : pc.rests = true → (s.workers w).rests = true ∨ s.stop = false) :
    (s.setWorker w pc).Inv where
  stopped := h.stopped
  awake := fun p hp w' => by
    show (Function.update s.workers w pc w').rests = false
    by_cases hw : w' = w
    · subst hw
      rw [Function.update_self]
      by_contra hrests
      rcases hpc (Bool.not_eq_false _ ▸ hrests) with hrest | hstop
      · rw [h.awake p hp w'] at hrest
        cases hrest
      · rw [h.stopped p (.inr hp)] at hstop
        cases hstop
    · rw [Function.update_of_ne hw]
      exact h.awake p hp w'

theorem Inv.setBusy (h : s.Inv) {w : Fin n} {pc : Worker F} (hpc : pc.rests = false) :
    (s.setWorker w pc).Inv :=
  h.setWorker fun hrests => by
    rw [hpc] at hrests
    cases hrests

/-- What is not looked at. -/
theorem Inv.data (h : s.Inv) (taskQueue : List F) (taskMutex : Option (Thread n ι)) :
    Inv { s with taskQueue := taskQueue, taskMutex := taskMutex } :=
  ⟨h.stopped, h.awake⟩

theorem inv_stepWorker (h : s.Inv) (w : Fin n) : (s.stepWorker w (s.workers w)).Inv := by
  cases hpc : s.workers w with
  | outer =>
    refine h.setBusy ?_
    split <;> rfl
  | locking =>
    rw [stepWorker]
    split
    · exact (h.setBusy rfl).data _ _
    · exact h
  | woken =>
    rw [stepWorker]
    split
    · exact (h.setBusy rfl).data _ _
    · exact h
  | testing =>
    -- it goes to rest only if it has found `stop_` unset
    refine h.setWorker fun hrests => .inr ?_
    cases hstop : s.stop with
    | false => rfl
    | true =>
      rw [hstop] at hrests
      cases hrests
  | toWait =>
    -- `wait` gives the mutex back and blocks in one step
    refine (h.setWorker fun _ => .inl ?_).data _ _
    rw [hpc]
    rfl
  | blocked => exact h.setBusy rfl
  | taking =>
    rw [stepWorker]
    split
    · exact (h.setBusy rfl).data _ _
    · exact (h.setBusy rfl).data _ _
  | running r =>
    -- the task is over when its thread has come back from its calls
    rw [stepWorker]
    split
    · exact h.setBusy rfl
    · exact h
  | returned => exact h

variable [DecidableEq ι]

/-- A thread goes on in its call, but not to `notify_all` or the joins. -/
theorem Inv.setCaller (h : s.Inv) {p : Thread n ι} {pc : Caller F} (hall : pc ≠ .notifyingAll)
    (hjoin : pc ≠ .joining) : (s.setCaller p pc).Inv where
  stopped := fun q hq => by
    change Function.update s.callers p pc q = _ ∨ Function.update s.callers p pc q = _ at hq
    by_cases hqp : q = p
    · subst hqp
      rw [Function.update_self] at hq
      exact (hq.elim hall hjoin).elim
    · rw [Function.update_of_ne hqp] at hq
      exact h.stopped q hq
  awake := fun q hq => by
    change Function.update s.callers p pc q = _ at hq
    by_cases hqp : q = p
    · subst hqp
      rw [Function.update_self] at hq
      exact (hjoin hq).elim
    · rw [Function.update_of_ne hqp] at hq
      exact h.awake q hq

/-- `stop_ = true`. -/
theorem inv_setStop (h : s.Inv) (p : Thread n ι) :
    Inv { s.setCaller p .notifyingAll with stop := true } where
  stopped := fun _ _ => rfl
  awake := fun q hq => by
    change Function.update s.callers p .notifyingAll q = .joining at hq
    by_cases hqp : q = p
    · subst hqp
      rw [Function.update_self] at hq
      cases hq
    · rw [Function.update_of_ne hqp] at hq
      exact h.awake q hq

/-- `notify_all` wakes up the workers that are blocked, and none is about to be. -/
theorem inv_notifyAll (h : s.Inv) {p : Thread n ι} (hp : s.callers p = .notifyingAll)
    (hout : ∀ w, s.workers w ≠ .toWait) :
    (s.notifyAll.setCaller p .joining).Inv where
  stopped := fun _ _ => h.stopped p (.inl hp)
  awake := fun _ _ w => by
    have hw := hout w
    show (s.workers w).notified.rests = false
    cases hpc : s.workers w with
    | toWait => exact absurd hpc hw
    | _ => rfl

theorem inv_stepCaller (h : s.Inv) (p : Thread n ι) (w : Option (Fin n))
    (hout : s.Outside (.caller p w)) : (s.stepCaller p w (s.callers p)).Inv := by
  cases hpc : s.callers p with
  | idle => exact h
  | locking task =>
    rw [stepCaller]
    split
    · exact (h.setCaller (by simp) (by simp)).data _ _
    · exact h
  | pushing task => exact (h.setCaller (by simp) (by simp)).data _ _
  | notifyingOne =>
    -- a blocked thread is woken, or there is none
    cases w with
    | some w =>
      rw [stepCaller]
      split
      · exact (h.setBusy rfl).setCaller (by simp) (by simp)
      · exact h
    | none =>
      rw [stepCaller]
      split
      · exact h
      · exact h.setCaller (by simp) (by simp)
  | unlocking => exact (h.setCaller (by simp) (by simp)).data _ _
  | settingStop => exact inv_setStop h p
  | notifyingAll =>
    -- the guard: no worker stands between its test and its wait
    exact inv_notifyAll h hpc (hout hpc)
  | joining =>
    rw [stepCaller]
    split
    · exact h.setCaller (by simp) (by simp)
    · exact h

theorem inv_step (h : s.Inv) (a : Act n ι F) (hout : s.Outside a) : (s.step a).Inv := by
  cases a with
  | worker w => exact inv_stepWorker h w
  | runTaskInQueue p task =>
    rw [step]
    split
    · exact h.setCaller (by simp) (by simp)
    · exact h
  | stop p =>
    rw [step]
    split
    · exact h.setCaller (by simp) (by simp)
    · exact h
  | caller p w => exact inv_stepCaller h p w hout

/-- A worker that `notify_all` passes by blocks after it. -/
theorem blocks_after_notify {p : Thread n ι} {w : Fin n} (hp : s.callers p = .notifyingAll)
    (hw : s.workers w = .toWait) :
    ¬ GetsBack (Runs.run step s [.caller p none, .worker w]) := by
  have hnotify : s.step (.caller p none) = s.notifyAll.setCaller p .joining := by
    rw [step, hp]
    rfl
  have hpc : (s.notifyAll.setCaller p .joining).workers w = .toWait := by
    show (s.workers w).notified = .toWait
    rw [hw]
    rfl
  intro hback
  rw [Runs.run_cons, Runs.run_cons, Runs.run_nil, hnotify, step, hpc] at hback
  refine hback p w ?_ (Function.update_self w _ _)
  exact Function.update_self p _ _

/-- **Stopping**: when no `notify_all` falls between the test of a worker and its `wait`, no
`stop` ever joins a worker that is blocked without a notification. One that falls there
leads to such a state with the next step of the worker. -/
theorem getsBack_of_outside :
    (∀ as : List (Act n ι F), Runs.Along step Outside new as → Runs.Always step GetsBack new as) ∧
    ∀ (as : List (Act n ι F)) (p : Thread n ι) (w : Fin n),
      (Runs.run step new as).callers p = .notifyingAll →
      (Runs.run step new as).workers w = .toWait →
      ¬ Runs.Always step GetsBack new (as ++ [.caller p none, .worker w]) := by
  constructor
  · intro as hout
    have hinv : Runs.Always step Inv new as :=
      Runs.always_of_along (I := Inv) (fun s a h hG => inv_step h a hG) inv_new hout
    exact hinv.mono fun s h => h.getsBack
  · intro as p w hp hw hback
    have hlast := hback.last
    rw [Runs.run_append] at hlast
    exact blocks_after_notify hp hw hlast

/-- One worker, and a call of `stop` while it is blocked already. -/
theorem getsBack_blocked :
    Runs.Always step GetsBack (new : ConcurrentTaskQueue 1 Unit Unit)
      [.worker 0, .worker 0, .worker 0, .worker 0, .stop (.other ()), .caller (.other ()) none,
        .caller (.other ()) none] := by
  refine getsBack_of_outside.1 _ ⟨trivial, trivial, trivial, trivial, trivial, ?_, ?_, trivial⟩
  · intro h
    cases h
  · intro _ w hw
    obtain rfl : w = 0 := Subsingleton.elim _ _
    cases hw

/-- One worker between its test and `wait` when `stop` notifies: it blocks for good. -/
theorem getsBack_missed :
    ¬ Runs.Always step GetsBack (new : ConcurrentTaskQueue 1 Unit Unit)
      [.worker 0, .worker 0, .worker 0, .stop (.other ()), .caller (.other ()) none,
        .caller (.other ()) none, .worker 0] := by
  intro h
  exact h.last (.other ()) 0 rfl rfl

end ConcurrentTaskQueue

end XiaoNet
