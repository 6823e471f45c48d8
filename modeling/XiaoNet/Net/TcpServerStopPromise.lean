import XiaoNet.Lib.Runs
import XiaoNet.Net.TcpServerStop

/-!
# `stop` from another thread

`stop` waits for a promise that its closure is to fulfil, and then for one per timing wheel.

- `CanBeFulfilled`: some way to go on sets the promise.
- `Deadlocked`: the caller waits and there is no such way.
- `FromElsewhere`: what holds as long as `stop` has not been called in the thread of the loop. The
  closure closes the connections and does not call `set_value`, which only the closures for the
  wheels do, and those are queued by a caller that got past the first wait.
- `deadlocked_of_other`: a `stop` from another thread deadlocks in every run.
-/

namespace XiaoNet

open Runs

namespace TcpServerStop

/-- What is queued or running can still call `set_value`. -/
def CanBeFulfilled (s : TcpServerStop) : Prop :=
  ∃ as, (run step s as).pro = true

/-- The caller of `stop` waits for a promise that nothing fulfils. -/
def Deadlocked (s : TcpServerStop) : Prop :=
  (s.stopping = .waiting ∨ ∃ wheels, s.stopping = .waitingWheel wheels) ∧ ¬ s.CanBeFulfilled

structure Unanswered (s : TcpServerStop) : Prop where
  pro : s.pro = false
  wheelFuncs : s.wheelFuncs = []
  notCalled : s.caller = none → s.stopping = .notCalled
  waiting : s.caller = some .other → s.stopping = .waiting

/-- The caller of `stop` is not the thread of the loop, if there is one. -/
def FromElsewhere (s : TcpServerStop) : Prop :=
  s.caller ≠ some .loopThread → s.Unanswered

variable {s s' : TcpServerStop}

theorem Unanswered.stopping (h : s.Unanswered) (hcaller : s.caller ≠ some .loopThread) :
    s.stopping = .notCalled ∨ s.stopping = .waiting := by
  match hc : s.caller with
  | none => exact .inl (h.notCalled hc)
  | some .other => exact .inr (h.waiting hc)
  | some .loopThread => exact absurd hc hcaller

/-- A step that leaves the caller, the promise and the closures for the wheels alone. -/
theorem FromElsewhere.of_same (h : s.FromElsewhere) (hcaller : s'.caller = s.caller)
    (hstopping : s'.stopping = s.stopping) (hpro : s'.pro = s.pro)
    (hwheels : s'.wheelFuncs = s.wheelFuncs) : s'.FromElsewhere := by
  intro hc
  have hs := h (hcaller ▸ hc)
  exact
    { pro := hpro.trans hs.pro
      wheelFuncs := hwheels.trans hs.wheelFuncs
      notCalled := fun hn => hstopping.trans (hs.notCalled (hcaller ▸ hn))
      waiting := fun ho => hstopping.trans (hs.waiting (hcaller ▸ ho)) }

/-- A step of a caller that is past the first wait. -/
theorem FromElsewhere.of_past (h : s.FromElsewhere) (hcaller : s'.caller = s.caller)
    (hn : s.stopping ≠ .notCalled) (hw : s.stopping ≠ .waiting) : s'.FromElsewhere := by
  intro hc
  have hc' : s.caller ≠ some .loopThread := hcaller ▸ hc
  exact ((h hc').stopping hc').elim (absurd · hn) (absurd · hw)

/-- No step gets the caller past the first wait. -/
theorem FromElsewhere.step (h : s.FromElsewhere) (a : Act) : (s.step a).FromElsewhere := by
  cases a with
  | server | runStop | close | exit =>
    rw [TcpServerStop.step]
    split
    · exact h.of_same rfl rfl rfl rfl
    · exact h
  | start =>
    rw [TcpServerStop.step]
    split
    · exact h
    · exact h.of_same rfl rfl rfl rfl
  | stop connPtrs =>
    -- the loop's own thread is no caller from elsewhere
    rw [TcpServerStop.step]
    split
    · exact fun hc => absurd rfl hc
    · exact h
  | stopElsewhere =>
    -- the caller makes its promise and waits for it
    rw [TcpServerStop.step]
    split
    · rename_i hnone
      have hs := h (by simp [hnone])
      exact fun _ =>
        { pro := rfl, wheelFuncs := hs.wheelFuncs, notCalled := by simp, waiting := fun _ => rfl }
    · exact h
  | closed =>
    rw [TcpServerStop.step]
    split
    · -- only a `stop` of the loop's own thread goes on from here, the closure does not
      by_cases hclosing : s.stopping = .closing
      · exact h.of_past rfl (by simp [hclosing]) (by simp [hclosing])
      · exact h.of_same rfl (if_neg hclosing) rfl rfl
    · exact h
  | gotPromise =>
    rw [TcpServerStop.step]
    split
    · rename_i hpro
      rw [TcpServerStop.gotPromise]
      split
      · -- the promise of the first wait is never fulfilled
        intro hc
        simp [(h hc).pro] at hpro
      · rename_i hwaiting
        exact h.of_past rfl (by simp [hwaiting]) (by simp [hwaiting])
      · exact h
    · exact h
  | release =>
    rw [TcpServerStop.step]
    split
    · rename_i hreleasing
      exact h.of_past rfl (by simp [hreleasing]) (by simp [hreleasing])
    · rename_i hreleasing
      exact h.of_past rfl (by simp [hreleasing]) (by simp [hreleasing])
    · exact h
  | joined =>
    rw [TcpServerStop.step]
    split
    · rename_i hjoining
      split
      · exact h.of_past rfl (by simp [hjoining]) (by simp [hjoining])
      · exact h
    · exact h
  | resetWheel =>
    rw [TcpServerStop.step]
    split
    · rename_i hresetting
      rw [TcpServerStop.resetWheel]
      split
      · exact h.of_past rfl (by simp [hresetting]) (by simp [hresetting])
      · exact h.of_past rfl (by simp [hresetting]) (by simp [hresetting])
    · rename_i hresetting
      exact h.of_past rfl (by simp [hresetting]) (by simp [hresetting])
    · exact h
  | runWheel l =>
    rw [TcpServerStop.step]
    split
    · rename_i hwheel
      intro hc
      simp [(h hc).wheelFuncs] at hwheel
    · exact h

theorem fromElsewhere_new (loop : Nat) (ioLoops loopPool : List Nat) (idleTimeout : Nat) :
    (new loop ioLoops loopPool idleTimeout).FromElsewhere :=
  fun _ => { pro := rfl, wheelFuncs := rfl, notCalled := fun _ => rfl, waiting := by simp [new] }

theorem fromElsewhere_run (h : s.FromElsewhere) (as : List Act) :
    (run step s as).FromElsewhere :=
  (always_of_step (I := FromElsewhere) (fun _ a h => h.step a) h as).last

/-- The thread that has called `stop` stays the caller. -/
theorem caller_step {c : StopCaller} (h : s.caller = some c) (a : Act) :
    (s.step a).caller = some c := by
  cases a <;> rw [TcpServerStop.step]
  case stop | stopElsewhere => simp [h]
  case gotPromise =>
    rw [TcpServerStop.gotPromise]
    (repeat' split) <;> exact h
  case resetWheel =>
    split
    · rw [TcpServerStop.resetWheel]
      split <;> exact h
    · exact h
    · exact h
  all_goals (repeat' split) <;> exact h

theorem caller_run {c : StopCaller} (h : s.caller = some c) (as : List Act) :
    (run step s as).caller = some c :=
  (always_of_step (I := fun s : TcpServerStop => s.caller = some c) (fun _ a h => caller_step h a) h as).last

theorem FromElsewhere.deadlocked (h : s.FromElsewhere) (hcaller : s.caller = some .other) :
    s.Deadlocked := by
  refine ⟨.inl ((h (by simp [hcaller])).waiting hcaller), ?_⟩
  rintro ⟨as, hpro⟩
  have hcaller' := caller_run hcaller as
  simp [(fromElsewhere_run h as (by simp [hcaller'])).pro] at hpro

/-- **`stop` from another thread deadlocks**: whatever the server, its connections and the
interleaving, the caller waits for a promise that nothing fulfils. -/
theorem deadlocked_of_other {loop : Nat} {ioLoops loopPool : List Nat} {idleTimeout : Nat}
    {as : List Act}
    (h : (run step (new loop ioLoops loopPool idleTimeout) as).caller = some .other) :
    (run step (new loop ioLoops loopPool idleTimeout) as).Deadlocked :=
  (fromElsewhere_run (fromElsewhere_new loop ioLoops loopPool idleTimeout) as).deadlocked h

theorem deadlocked_before_closure : (run step (new 0 [0] [] 0) [.stopElsewhere]).Deadlocked :=
  deadlocked_of_other rfl

/-- One connection, in a loop of its own: its close is handled, and the caller still waits. -/
theorem deadlocked_stop :
    (run step (new 0 [1] [] 0)
      [.start, .server (.newConnection none), .server (.connectEstablished 0), .stopElsewhere,
        .runStop [0], .close, .closed, .server (.call 0 .runFunc []), .server .runFunc,
        .server (.call 0 .runFunc [])]).Deadlocked :=
  (fromElsewhere_run (fromElsewhere_new 0 [1] [] 0) _).deadlocked (by decide)

end TcpServerStop

end XiaoNet
