import XiaoNet.Net.EventLoopThread
import XiaoNet.Net.EventLoopWakeup

/-!
# The destructor of `EventLoopThread` ends the loop

`loop()` overwrites `quit_` when it starts, so a `quit()` before that is lost. The destructor
calls `run` first, which returns only when a function run by the loop has set
`promiseForLoop_`; by then `quit_` has been cleared (`Cleared`), and nothing clears it again.

- `Continues`, `callers_step_…`: what a step of the loop does to `quit_` and to a thread in a
  call.
- `Inv`: the handshake; a lemma `inv_…` for each kind of step.
- `always_shutsDown`: the `quit()` of the destructor is seen by the loop.
-/

namespace XiaoNet

universe u v

namespace EventLoop

variable {ι : Type u} {F : Type v} {s : EventLoop ι F}

/-- A step of the loop after `loop()` has been called: `quit_` is cleared only at the start,
and a loop that is to quit does not poll again. -/
structure Continues (s s' : EventLoop ι F) : Prop where
  threadId : s'.threadId = s.threadId
  quit : s.quit = true → s.pc ≠ .started → s'.quit = true
  started : s'.pc = .started → s.pc = .started
  polling : s.quit = true → s'.pc = .polling → s.pc = .polling ∧ s.wakeupFd ≤ s'.wakeupFd

theorem Continues.refl (s : EventLoop ι F) : Continues s s :=
  ⟨rfl, fun h _ => h, id, fun _ h => ⟨h, Nat.le_refl _⟩⟩

theorem wakeupFd_le_writeWakeupFd (s : EventLoop ι F) :
    s.wakeupFd ≤ s.writeWakeupFd.wakeupFd := by
  show s.wakeupFd ≤ if s.wakeupFd < eventfdMax then s.wakeupFd + 1 else s.wakeupFd
  split
  · exact Nat.le_succ _
  · exact Nat.le_refl _

theorem Continues.loopStep {pc : LoopPc} {next : EventLoop ι F} (h : s.pc = pc → Continues s next) :
    Continues s (s.loopStep pc next) := by
  unfold EventLoop.loopStep
  split
  case isTrue hcond => exact h hcond.1
  case isFalse => exact .refl s

/-- A step that takes the loop thread to a place other than the start and the poll. -/
theorem Continues.goTo {next : EventLoop ι F} (hthread : next.threadId = s.threadId)
    (hquit : next.quit = s.quit) (hstarted : next.pc ≠ .started) (hpolling : next.pc ≠ .polling) :
    Continues s next where
  threadId := hthread
  quit h _ := hquit ▸ h
  started h := absurd h hstarted
  polling _ h := absurd h hpolling

/-- A step of a thread in a call. -/
theorem Continues.call {next : EventLoop ι F} (hthread : next.threadId = s.threadId)
    (hquit : s.quit = true → next.quit = true) (hpc : next.pc = s.pc)
    (hfd : s.wakeupFd ≤ next.wakeupFd) : Continues s next where
  threadId := hthread
  quit h _ := hquit h
  started h := hpc ▸ h
  polling _ h := ⟨hpc ▸ h, hfd⟩

theorem callers_loopStep {pc : LoopPc} {next : EventLoop ι F} (h : next.callers = s.callers) :
    (s.loopStep pc next).callers = s.callers := by
  unfold EventLoop.loopStep
  split
  · exact h
  · rfl

variable [DecidableEq ι]

theorem continues_step (s : EventLoop ι F) {a : Act ι F} (ha : a ≠ .loop) :
    Continues s (s.step a) := by
  -- the threads in a call first, then the steps of the loop
  cases a with
  | queueInLoop p f =>
    simp only [step]
    split
    · exact .call rfl id rfl (Nat.le_refl _)
    · exact .refl s
  | exchange p => exact .call rfl id rfl (Nat.le_refl _)
  | link p =>
    simp only [step]
    split
    · exact .call rfl id rfl (Nat.le_refl _)
    · exact .refl s
  | testWakeup p =>
    simp only [step]
    split
    · exact .call rfl id rfl (Nat.le_refl _)
    · exact .refl s
  | wakeup p =>
    simp only [step]
    split
    · exact .call rfl id rfl (wakeupFd_le_writeWakeupFd s)
    · exact .refl s
  | quit p =>
    simp only [step]
    split
    · split
      · exact .call rfl (fun _ => rfl) rfl (Nat.le_refl _)
      · exact .call rfl (fun _ => rfl) rfl (Nat.le_refl _)
    · exact .refl s
  | loop => exact absurd rfl ha
  | clearQuit =>
    exact .loopStep fun hpc => ⟨rfl, fun _ hne => absurd hpc hne, by simp, by simp⟩
  | testQuit =>
    refine .loopStep fun hpc => ?_
    split
    case isTrue => exact .goTo rfl rfl (by simp) (by simp)
    case isFalse hquit => exact ⟨rfl, fun h _ => h, by simp, fun h => absurd h hquit⟩
  | poll woken =>
    refine .loopStep fun _ => ?_
    split
    · exact .refl s
    · exact .goTo rfl rfl (by simp) (by simp)
  | wakeupRead => exact .loopStep fun _ => .goTo rfl rfl (by simp) (by simp)
  | handled => exact .loopStep fun _ => .goTo rfl rfl (by simp) (by simp)
  | testFuncs =>
    refine .loopStep fun _ => ?_
    split
    · exact .goTo rfl rfl (by simp) (by simp)
    · exact .goTo rfl rfl (by simp) (by simp)
  | dequeue =>
    refine .loopStep fun _ => ?_
    split
    · exact .goTo rfl rfl (by simp) (by simp)
    · exact .goTo rfl rfl (by simp) (by simp)
  | take => exact .loopStep fun _ => .goTo rfl rfl (by simp) (by simp)
  | funcReturns => exact .loopStep fun _ => .goTo rfl rfl (by simp) (by simp)
  | userThrows =>
    -- nothing but the place in the loop changes
    simp only [step]
    split
    · split
      · exact .goTo rfl rfl (by simp) (by simp)
      · exact .refl s
    · split
      · exact .goTo rfl rfl (by simp) (by simp)
      · exact .refl s
    · exact .refl s
  | caught => exact .loopStep fun _ => .goTo rfl rfl (by simp) (by simp)

/-! ## A thread in a call -/

/-- The steps of the loop leave the callers alone. -/
theorem callers_step_loop {a : Act ι F} (ha : match a with
    | .queueInLoop _ _ | .exchange _ | .link _ | .testWakeup _ | .wakeup _ | .quit _ => False
    | _ => True) : (s.step a).callers = s.callers := by
  cases a with
  | queueInLoop p f => cases ha
  | exchange p => cases ha
  | link p => cases ha
  | testWakeup p => cases ha
  | wakeup p => cases ha
  | quit p => cases ha
  | userThrows =>
    simp only [step]
    split
    · split <;> rfl
    · split <;> rfl
    · rfl
  | testQuit =>
    refine callers_loopStep ?_
    split <;> rfl
  | poll woken =>
    refine callers_loopStep ?_
    split <;> rfl
  | _ => exact callers_loopStep rfl

/-- The step begins a call of thread `p`. -/
def Act.begins (p : ι) : Act ι F → Prop
  | .queueInLoop q _ | .quit q => q = p
  | _ => False

theorem callers_setCaller_of_ne {p q : ι} (hqp : q ≠ p) (s : EventLoop ι F) (caller : Caller) :
    (s.setCaller q caller).callers p = s.callers p :=
  Function.update_of_ne hqp.symm _ _

/-- A thread that is in no call, or at the `write` of `quit`, goes on only by a call of its
own or by the `write`. -/
theorem callers_step (h : s.Inv) {p : ι} (hp : s.callers p = .idle ∨ s.callers p = .quitting)
    {a : Act ι F} (hbegins : ¬ a.begins p) :
    (s.step a).callers p = s.callers p ∨
      (s.step a).callers p = .idle ∧ 0 < (s.step a).wakeupFd := by
  -- such a thread is neither inside `enqueue` nor between it and the test
  have hproducer : s.funcs.producers p = .idle := by
    apply h.producing
    rcases hp with heq | heq <;> rw [heq] <;> exact nofun
  have hnot : s.callers p ≠ .enqueued := by
    rcases hp with heq | heq <;> rw [heq] <;> exact nofun
  cases a with
  | queueInLoop q f =>
    left
    simp only [step]
    split
    · exact callers_setCaller_of_ne hbegins _ _
    · rfl
  | exchange q => exact .inl rfl
  | link q =>
    left
    simp only [step]
    split
    case h_1 heq =>
      refine callers_setCaller_of_ne ?_ _ _
      rintro rfl
      rw [hproducer] at heq
      cases heq
    case h_2 => rfl
  | testWakeup q =>
    left
    simp only [step]
    split
    case isTrue heq =>
      refine callers_setCaller_of_ne ?_ _ _
      rintro rfl
      exact hnot heq
    case isFalse => rfl
  | wakeup q =>
    simp only [step]
    split
    case isTrue =>
      by_cases hq : q = p
      · subst hq
        exact .inr ⟨callers_setCaller _ _ _, writeWakeupFd_pos s⟩
      · exact .inl (callers_setCaller_of_ne hq _ _)
    case isFalse => exact .inl rfl
  | quit q =>
    left
    simp only [step]
    split
    · split
      · exact callers_setCaller_of_ne hbegins _ _
      · rfl
    · rfl
  | _ => exact .inl (congrFun (callers_step_loop trivial) p)

end EventLoop

/-- The owner is in the destructor, and `run` has returned. -/
def Owner.pastRun : Owner → Bool
  | .reading | .quitting | .waking | .joining | .destroyed => true
  | _ => false

namespace EventLoopThread

variable {ι : Type u} {F : Type v}

/-- `loop()` has cleared `quit_`. -/
def Cleared (s : EventLoopThread ι F) : Prop :=
  (s.loopFuncs = .looping ∨ s.loopFuncs = .looped ∨ s.loopFuncs = .returned) ∧
    s.loop.pc ≠ .started

/-- A loop that waits is going to be woken up. -/
def Woken (s : EventLoopThread ι F) : Prop := s.loop.pc = .polling → 0 < s.loop.wakeupFd

/-- The loop thread ends, whenever the owner destroys the object. -/
structure ShutsDown (s : EventLoopThread ι F) : Prop where
  /-- The `quit()` of the destructor comes after `loop()` has cleared `quit_`. -/
  cleared : s.owner = .quitting ∨ s.owner = .waking ∨ s.owner = .joining → s.Cleared
  /-- In `join` the loop thread waits neither for `promiseForRun_` nor with `quit_` false, and
  `poll` is going to return. -/
  joining : s.owner = .joining → s.loopFuncs ≠ .getting ∧
    (s.loopFuncs = .looping → s.loop.quit = true ∧ s.Woken)

theorem not_cleared {s : EventLoopThread ι F}
    (h : s.loopFuncs = .started ∨ s.loopFuncs = .queueing ∨ s.loopFuncs = .getting) :
    ¬ s.Cleared := by
  rintro ⟨hphase, -⟩
  rcases h with heq | heq | heq <;> rw [heq] at hphase <;> simp at hphase

variable [DecidableEq ι]

structure Inv (s : EventLoopThread ι F) : Prop where
  loop : s.loop.Inv
  threadId : s.loop.threadId = .loopThread
  before : s.loopFuncs = .started ∨ s.loopFuncs = .queueing ∨ s.loopFuncs = .getting →
    s.loop.pc = .outside
  getting : s.loopFuncs = .getting → s.loop.callers .loopThread = .idle
  promised : s.promiseForLoop = true → s.Cleared
  returned : s.once = .returned → s.promiseForLoop = true
  ran : s.owner = .running → s.runs .owner = .idle → s.once = .returned
  past : s.owner.pastRun = true → s.once = .returned
  lost : s.owner ≠ .constructing → s.hasLoop = false → s.loopFuncs = .returned
  waking : s.owner = .waking → s.loop.quit = true ∧
    (s.loop.callers .owner = .quitting ∨ s.loop.callers .owner = .idle ∧ s.Woken)
  joining : s.owner = .joining → s.loopFuncs = .returned ∨ s.loop.quit = true ∧ s.Woken

variable {s : EventLoopThread ι F}

theorem inv_start : (start : EventLoopThread ι F).Inv where
  loop := EventLoop.inv_new _
  threadId := rfl
  before _ := rfl
  getting := nofun
  promised := nofun
  returned := nofun
  ran := nofun
  past := nofun
  lost h := absurd rfl h
  waking := nofun
  joining := nofun

/-- Once `run` has returned, in the destructor or not, `quit_` has been cleared. -/
theorem Inv.cleared (h : s.Inv) (hpast : s.owner.pastRun = true) : s.Cleared :=
  h.promised (h.returned (h.past hpast))

theorem Inv.cleared_of_waking (h : s.Inv) (hw : s.owner = .waking) : s.Cleared := by
  apply h.cleared
  rw [hw]
  rfl

theorem Inv.cleared_of_joining (h : s.Inv) (hj : s.owner = .joining) : s.Cleared := by
  apply h.cleared
  rw [hj]
  rfl

theorem free_owner (h : s.free .owner = true) :
    s.owner = .constructed ∧ s.loop.free .owner = true := by
  simp only [free, Bool.and_eq_true, beq_iff_eq] at h
  exact ⟨h.2, h.1.1⟩

theorem free_loopThread (h : s.free .loopThread = true) : s.loopFuncs = .looping := by
  simp only [free, Bool.and_eq_true, beq_iff_eq] at h
  exact h.2

/-! ## The steps of the loop -/

theorem free_of_begins {a : EventLoop.Act (Party ι) (LoopFunc F)} {p : Party ι}
    (ha : s.allowed a = true) (hb : a.begins p) : s.free p = true := by
  cases a with
  | queueInLoop q f =>
    cases f with
    | promiseForLoop => cases ha
    | user f => exact (show q = p from hb) ▸ ha
  | quit q =>
    simp only [allowed, Bool.and_eq_true] at ha
    exact (show q = p from hb) ▸ ha.1
  | _ => cases hb

theorem Woken.step {a : EventLoop.Act (Party ι) (LoopFunc F)} {s' : EventLoopThread ι F}
    (h : s.Woken) (hquit : s.loop.quit = true) (ha : a ≠ .loop) (hs' : s'.loop = s.loop.step a) :
    s'.Woken := by
  intro hpc
  rw [hs'] at hpc ⊢
  obtain ⟨hold, hfd⟩ := (EventLoop.continues_step s.loop ha).polling hquit hpc
  exact Nat.lt_of_lt_of_le (h hold) hfd

/-- Before `loop()` runs only other threads take steps. -/
theorem pc_of_allowed {a : EventLoop.Act (Party ι) (LoopFunc F)} (ha : s.allowed a = true)
    (hphase : s.loopFuncs ≠ .looping) : (s.loop.step a).pc = s.loop.pc := by
  cases a with
  | queueInLoop p f =>
    simp only [EventLoop.step]
    split <;> rfl
  | exchange p => rfl
  | link p =>
    simp only [EventLoop.step]
    split <;> rfl
  | testWakeup p =>
    simp only [EventLoop.step]
    split <;> rfl
  | wakeup p =>
    simp only [EventLoop.step]
    split <;> rfl
  | quit p =>
    simp only [EventLoop.step]
    split
    · split <;> rfl
    · rfl
  | loop => cases ha
  | userThrows | caught => cases ha
  | _ =>
    simp only [allowed, Bool.and_eq_true, beq_iff_eq] at ha
    exact absurd ha.1 hphase

theorem inv_loop (h : s.Inv) (a : EventLoop.Act (Party ι) (LoopFunc F)) :
    (s.step (.loop a)).Inv := by
  simp only [step]
  split
  case isFalse => exact h
  case isTrue hallowed =>
    have hne : a ≠ .loop := by
      rintro rfl
      cases hallowed
    have hcont := EventLoop.continues_step s.loop hne
    have hcleared : s.Cleared → ∀ b, Cleared { s with
        loop := s.loop.step a, promiseForLoop := b } := by
      rintro ⟨hphase, hpc⟩ b
      exact ⟨hphase, fun hstarted => hpc (hcont.started hstarted)⟩
    constructor
    case loop =>
      refine EventLoop.inv_step_of_ne h.loop ?_
      rintro rfl
      cases hallowed
    case threadId => exact hcont.threadId.trans h.threadId
    case before =>
      intro hphase
      refine (pc_of_allowed hallowed ?_).trans (h.before hphase)
      rcases hphase with heq | heq | heq <;> rw [show s.loopFuncs = _ from heq] <;> exact nofun
    case getting =>
      intro hgetting
      have hidle := h.getting hgetting
      have hbegins : ¬ a.begins .loopThread := by
        -- the loop thread begins no call while it waits for the promise
        intro hb
        rw [free_loopThread (free_of_begins hallowed hb)] at hgetting
        cases hgetting
      rcases EventLoop.callers_step h.loop (.inl hidle) hbegins with heq | ⟨heq, -⟩
      · exact heq.trans hidle
      · exact heq
    case promised =>
      intro hpromise
      rcases Bool.or_eq_true_iff.mp hpromise with hold | hsets
      · exact hcleared (h.promised hold) _
      · -- the function that sets the promise has been run by the loop
        cases a with
        | funcReturns =>
          simp only [setsLoop, Bool.and_eq_true, beq_iff_eq] at hsets
          simp only [allowed, Bool.and_eq_true, beq_iff_eq] at hallowed
          refine hcleared ⟨.inl hallowed.1, ?_⟩ _
          rw [hsets.1.1]
          exact nofun
        | _ => cases hsets
    case returned =>
      intro honce
      exact Bool.or_eq_true_iff.mpr (.inl (h.returned honce))
    case ran => exact h.ran
    case past => exact h.past
    case lost => exact h.lost
    case waking =>
      intro hw
      obtain ⟨hquit, hcaller⟩ := h.waking hw
      have hpc := (h.cleared_of_waking hw).2
      have hbegins : ¬ a.begins .owner := by
        intro hb
        rw [(free_owner (free_of_begins hallowed hb)).1] at hw
        cases hw
      refine ⟨hcont.quit hquit hpc, ?_⟩
      -- either the `write` of `quit` is still to come, or it has been made
      rcases hcaller with hquitting | ⟨hidle, hwoken⟩
      · rcases EventLoop.callers_step h.loop (.inr hquitting) hbegins with heq | ⟨heq, hfd⟩
        · exact .inl (heq.trans hquitting)
        · exact .inr ⟨heq, fun _ => hfd⟩
      · refine .inr ⟨?_, hwoken.step hquit hne rfl⟩
        rcases EventLoop.callers_step h.loop (.inl hidle) hbegins with heq | ⟨heq, -⟩
        · exact heq.trans hidle
        · exact heq
    case joining =>
      intro hj
      rcases h.joining hj with hreturned | ⟨hquit, hwoken⟩
      · exact .inl hreturned
      · exact .inr ⟨hcont.quit hquit (h.cleared_of_joining hj).2, hwoken.step hquit hne rfl⟩

/-! ## The loop thread -/

/-- Before `loop()` nothing has been promised and the owner is not past `run`. -/
theorem inv_early (h : s.Inv)
    (hphase : s.loopFuncs = .started ∨ s.loopFuncs = .queueing ∨ s.loopFuncs = .getting)
    {loop : EventLoop (Party ι) (LoopFunc F)} {pointer : Bool} {loopFuncs : LoopFuncs}
    (hloop : loop.Inv) (hthread : loop.threadId = .loopThread)
    (hbefore : loopFuncs = .started ∨ loopFuncs = .queueing ∨ loopFuncs = .getting →
      loop.pc = .outside)
    (hgetting : loopFuncs = .getting → loop.callers .loopThread = .idle) :
    Inv { s with loop := loop, promiseForLoopPointer := pointer, loopFuncs := loopFuncs } where
  loop := hloop
  threadId := hthread
  before := hbefore
  getting := hgetting
  promised hpromise := absurd (h.promised hpromise) (not_cleared hphase)
  returned := h.returned
  ran := h.ran
  past := h.past
  lost howner hlost := by
    rw [h.lost howner hlost] at hphase
    rcases hphase with heq | heq | heq <;> cases heq
  waking hw := absurd (h.cleared_of_waking hw) (not_cleared hphase)
  joining hj := absurd (h.cleared_of_joining hj) (not_cleared hphase)

theorem inv_queueFirst (h : s.Inv) : (s.step .queueFirst).Inv := by
  simp only [step]
  split
  case isFalse => exact h
  case isTrue hphase =>
    have hcont := EventLoop.continues_step s.loop
      (a := .queueInLoop .loopThread .promiseForLoop) (by simp)
    have hpc : (s.loop.step (.queueInLoop .loopThread .promiseForLoop)).pc = s.loop.pc := by
      simp only [EventLoop.step]
      split <;> rfl
    refine inv_early h (.inl hphase) ?_ (hcont.threadId.trans h.threadId) ?_ (by simp)
    · exact EventLoop.inv_step_of_ne h.loop (by simp)
    · exact fun _ => hpc.trans (h.before (.inl hphase))

theorem inv_setLoopPointer (h : s.Inv) : (s.step .setLoopPointer).Inv := by
  simp only [step]
  split
  case isFalse => exact h
  case isTrue hcond =>
    obtain ⟨hphase, hown⟩ := hcond
    refine inv_early h (.inr (.inl hphase)) h.loop h.threadId ?_ ?_
    · exact fun _ => h.before (.inr (.inl hphase))
    · exact fun _ => h.threadId ▸ EventLoop.own_iff.mp hown

theorem inv_gotRun (h : s.Inv) : (s.step .gotRun).Inv := by
  simp only [step]
  split
  case isFalse => exact h
  case isTrue hcond =>
    have hthread : (s.loop.step .loop).threadId = s.loop.threadId := by
      simp only [EventLoop.step, EventLoop.loopStep]
      split <;> rfl
    refine inv_early h (.inr (.inr hcond.1)) ?_ (hthread.trans h.threadId) ?_ (by simp)
    · exact EventLoop.inv_step_of_ne h.loop (by simp)
    · rintro (heq | heq | heq) <;> cases heq

theorem inv_loopReturns (h : s.Inv) : (s.step .loopReturns).Inv := by
  simp only [step]
  split
  case isFalse => exact h
  case isTrue hcond =>
    obtain ⟨hphase, hpc⟩ := hcond
    constructor
    case loop => exact h.loop
    case threadId => exact h.threadId
    case before => rintro (heq | heq | heq) <;> cases heq
    case getting => exact nofun
    case promised => exact fun hpromise => ⟨.inr (.inl rfl), (h.promised hpromise).2⟩
    case returned => exact h.returned
    case ran => exact h.ran
    case past => exact h.past
    case lost =>
      intro howner hlost
      rw [h.lost howner hlost] at hphase
      cases hphase
    case waking => exact h.waking
    case joining =>
      intro hj
      rcases h.joining hj with hreturned | hquit
      · rw [hreturned] at hphase
        cases hphase
      · exact .inr hquit

theorem inv_resetLoop (h : s.Inv) : (s.step .resetLoop).Inv := by
  simp only [step]
  split
  case isFalse => exact h
  case isTrue hphase =>
    constructor
    case loop => exact h.loop
    case threadId => exact h.threadId
    case before => rintro (heq | heq | heq) <;> cases heq
    case getting => exact nofun
    case promised => exact fun hpromise => ⟨.inr (.inr rfl), (h.promised hpromise).2⟩
    case returned => exact h.returned
    case ran => exact h.ran
    case past => exact h.past
    case lost => exact fun _ _ => rfl
    case waking => exact h.waking
    case joining => exact fun _ => .inl rfl

/-! ## `run` -/

theorem setRuns_self (s : EventLoopThread ι F) (p : Party ι) (run : Run) :
    (s.setRuns p run).runs p = run :=
  Function.update_self _ _ _

theorem setRuns_of_ne {p q : Party ι} (hqp : q ≠ p) (s : EventLoopThread ι F) (run : Run) :
    (s.setRuns p run).runs q = s.runs q :=
  Function.update_of_ne hqp _ _

/-- A thread goes on in `run` without returning from it. -/
theorem Inv.setRuns (h : s.Inv) (p : Party ι) {run : Run}
    (hran : s.owner = .running → p = .owner → run = .idle → s.once = .returned) :
    (s.setRuns p run).Inv where
  loop := h.loop
  threadId := h.threadId
  before := h.before
  getting := h.getting
  promised := h.promised
  returned := h.returned
  ran howner hidle := by
    by_cases hp : .owner = p
    · subst hp
      exact hran howner rfl ((setRuns_self s .owner run).symm.trans hidle)
    · exact h.ran howner ((setRuns_of_ne hp s run).symm.trans hidle)
  past := h.past
  lost := h.lost
  waking := h.waking
  joining := h.joining

theorem inv_run (h : s.Inv) (p : Party ι) : (s.step (.run p)).Inv := by
  simp only [step]
  split
  · exact h.setRuns p fun _ _ => nofun
  · exact h

theorem inv_callOnce (h : s.Inv) (p : Party ι) : (s.step (.callOnce p)).Inv := by
  simp only [step]
  split
  case isFalse => exact h
  case isTrue =>
    cases honce : s.once with
    | active => exact h
    | returned => exact h.setRuns p fun _ _ _ => honce
    | notCalled =>
      have hnot : s.once ≠ .returned := by
        rw [honce]
        exact nofun
      -- the first caller runs the body of `call_once`, the others wait for it
      have hactive : Inv { s with once := .active } := { h with
        returned := nofun
        ran := fun howner hidle => absurd (h.ran howner hidle) hnot
        past := fun hpast => absurd (h.past hpast) hnot }
      exact hactive.setRuns p fun _ _ => nofun

theorem inv_setRun (h : s.Inv) (p : Party ι) : (s.step (.setRun p)).Inv := by
  simp only [step]
  split
  case isFalse => exact h
  case isTrue =>
    have hset : Inv { s with promiseForRun := true } := { h with }
    exact hset.setRuns p fun _ _ => nofun

theorem inv_gotLoop (h : s.Inv) (p : Party ι) : (s.step (.gotLoop p)).Inv := by
  simp only [step]
  split
  case isFalse => exact h
  case isTrue hcond =>
    have hreturned : Inv { s with once := .returned } := { h with
      returned := fun _ => hcond.2
      ran := fun _ _ => rfl
      past := fun _ => rfl }
    exact hreturned.setRuns p fun _ _ _ => rfl

/-! ## The owner -/

/-- The owner goes on. -/
theorem Inv.setOwner (h : s.Inv) {owner : Owner} {joinable : Bool}
    (hran : owner = .running → s.runs .owner = .idle → s.once = .returned)
    (hpast : owner.pastRun = true → s.once = .returned)
    (hlost : owner ≠ .constructing → s.owner ≠ .constructing) (hwaking : owner ≠ .waking)
    (hjoining : owner = .joining → s.loopFuncs = .returned ∨ s.loop.quit = true ∧ s.Woken) :
    Inv { s with owner := owner, joinable := joinable } where
  loop := h.loop
  threadId := h.threadId
  before := h.before
  getting := h.getting
  promised := h.promised
  returned := h.returned
  ran := hran
  past := hpast
  lost hne := h.lost (hlost hne)
  waking hw := absurd hw hwaking
  joining := hjoining

theorem inv_construct (h : s.Inv) : (s.step .construct).Inv := by
  simp only [step]
  split
  case isFalse => exact h
  case isTrue => exact { h with
    ran := nofun
    past := nofun
    lost := fun _ => nofun
    waking := nofun
    joining := nofun }

theorem inv_wait (h : s.Inv) : (s.step .wait).Inv := by
  simp only [step]
  split
  case isFalse => exact h
  case isTrue hcond =>
    refine h.setOwner nofun nofun ?_ nofun nofun
    rw [(free_owner hcond.1).1]
    exact fun _ => nofun

theorem inv_waited (h : s.Inv) : (s.step .waited).Inv := by
  simp only [step]
  split
  case isFalse => exact h
  case isTrue hcond =>
    refine h.setOwner nofun nofun ?_ nofun nofun
    rw [hcond.1]
    exact fun _ => nofun

theorem inv_destroy (h : s.Inv) : (s.step .destroy).Inv := by
  simp only [step]
  split
  case isFalse => exact h
  case isTrue hfree =>
    have hcalling : (s.setRuns .owner .calling).Inv := h.setRuns .owner fun _ _ => nofun
    refine hcalling.setOwner ?_ nofun ?_ nofun nofun
    · intro _ hidle
      cases (setRuns_self s .owner .calling).symm.trans hidle
    · rw [show (s.setRuns .owner .calling).owner = .constructed from (free_owner hfree).1]
      exact fun _ => nofun

theorem inv_ran (h : s.Inv) : (s.step .ran).Inv := by
  simp only [step]
  split
  case isFalse => exact h
  case isTrue hcond =>
    refine h.setOwner nofun (fun _ => h.ran hcond.1 hcond.2) ?_ nofun nofun
    rw [hcond.1]
    exact fun _ => nofun

/-- A null pointer says that the loop thread has left `loop()`. -/
theorem inv_read (h : s.Inv) : (s.step .read).Inv := by
  simp only [step]
  split
  case isFalse => exact h
  case isTrue howner =>
    have hnot : s.owner ≠ .constructing := by
      rw [howner]
      exact nofun
    have honce : s.once = .returned := by
      apply h.past
      rw [howner]
      rfl
    split
    case isTrue => exact h.setOwner nofun (fun _ => honce) (fun _ => hnot) nofun nofun
    case isFalse hlost =>
      have hreturned := h.lost hnot (eq_false_of_ne_true hlost)
      exact h.setOwner nofun (fun _ => honce) (fun _ => hnot) nofun fun _ => .inl hreturned

/-- `quit_` is set after it was cleared. -/
theorem inv_quit (h : s.Inv) : (s.step .quit).Inv := by
  simp only [step]
  split
  case isFalse => exact h
  case isTrue hcond =>
    obtain ⟨howner, hfree⟩ := hcond
    have hpast : s.owner.pastRun = true := by
      rw [howner]
      rfl
    -- the owner is another thread than the loop's, so it is going to write to the eventfd
    have hother : Party.owner ≠ s.loop.threadId := by
      rw [h.threadId]
      simp
    have hstep : s.loop.step (.quit .owner)
        = { s.loop with quit := true }.setCaller .owner .quitting := by
      simp only [EventLoop.step, hfree, if_true, if_pos hother]
    have hloop := EventLoop.inv_step_of_ne (a := .quit .owner) h.loop (by simp)
    rw [hstep] at hloop ⊢
    constructor
    case loop => exact hloop
    case threadId => exact h.threadId
    case before => exact h.before
    case getting =>
      intro hgetting
      have hne : Party.owner ≠ (Party.loopThread : Party ι) := by simp
      exact (EventLoop.callers_setCaller_of_ne hne _ _).trans (h.getting hgetting)
    case promised => exact fun hpromise => h.promised hpromise
    case returned => exact h.returned
    case ran => simp
    case past => exact fun _ => h.past hpast
    case lost =>
      refine fun _ => h.lost ?_
      rw [howner]
      simp
    case waking => exact fun _ => ⟨rfl, .inl (EventLoop.callers_setCaller _ _ _)⟩
    case joining => simp

theorem inv_woken (h : s.Inv) : (s.step .woken).Inv := by
  simp only [step]
  split
  case isFalse => exact h
  case isTrue hcond =>
    obtain ⟨howner, hidle⟩ := hcond
    obtain ⟨hquit, hcaller⟩ := h.waking howner
    have hwoken : s.Woken := by
      rcases hcaller with hquitting | ⟨-, hwoken⟩
      · rw [hidle] at hquitting
        cases hquitting
      · exact hwoken
    refine h.setOwner nofun ?_ ?_ nofun fun _ => .inr ⟨hquit, hwoken⟩
    · refine fun _ => h.past ?_
      rw [howner]
      rfl
    · rw [howner]
      exact fun _ => nofun

theorem inv_joined (h : s.Inv) : (s.step .joined).Inv := by
  simp only [step]
  split
  case isFalse => exact h
  case isTrue hcond =>
    refine h.setOwner nofun ?_ ?_ nofun nofun
    · refine fun _ => h.past ?_
      rw [hcond.1]
      rfl
    · rw [hcond.1]
      exact fun _ => nofun

theorem inv_step (s : EventLoopThread ι F) (a : Act ι F) (h : s.Inv) : (s.step a).Inv := by
  cases a with
  | queueFirst => exact inv_queueFirst h
  | setLoopPointer => exact inv_setLoopPointer h
  | gotRun => exact inv_gotRun h
  | loopReturns => exact inv_loopReturns h
  | resetLoop => exact inv_resetLoop h
  | loop a => exact inv_loop h a
  | run p => exact inv_run h p
  | callOnce p => exact inv_callOnce h p
  | setRun p => exact inv_setRun h p
  | gotLoop p => exact inv_gotLoop h p
  | construct => exact inv_construct h
  | wait => exact inv_wait h
  | waited => exact inv_waited h
  | destroy => exact inv_destroy h
  | ran => exact inv_ran h
  | read => exact inv_read h
  | quit => exact inv_quit h
  | woken => exact inv_woken h
  | joined => exact inv_joined h

theorem Inv.shutsDown (h : s.Inv) : s.ShutsDown where
  cleared howner := by
    apply h.cleared
    rcases howner with heq | heq | heq <;> rw [heq] <;> rfl
  joining hj := by
    constructor
    · intro hgetting
      exact not_cleared (.inr (.inr hgetting)) (h.cleared_of_joining hj)
    · intro hlooping
      rcases h.joining hj with hreturned | hquit
      · rw [hlooping] at hreturned
        cases hreturned
      · exact hquit

/-- **Shutdown in every order.** Whatever the order in which the loop thread, the owner and
the other threads take their steps, the destructor never joins a thread that waits for good. -/
theorem always_shutsDown (as : List (Act ι F)) :
    Runs.Always step ShutsDown (start : EventLoopThread ι F) as :=
  (Runs.always_of_step inv_step inv_start as).mono fun _ h => h.shutsDown

/-- The destructor wakes up a loop that polls, and the thread ends. -/
example :
    (Runs.run step (start : EventLoopThread Empty Empty)
      [.queueFirst, .loop (.exchange .loopThread), .loop (.link .loopThread),
        .loop (.testWakeup .loopThread), .loop (.wakeup .loopThread), .setLoopPointer, .construct,
        .destroy, .callOnce .owner, .setRun .owner, .gotRun, .loop .clearQuit, .loop .testQuit,
        .loop (.poll false), .loop .handled, .loop .testFuncs, .loop .dequeue, .loop .take,
        .loop .funcReturns, .gotLoop .owner, .ran, .read, .loop .dequeue, .loop .testFuncs,
        .loop .testQuit, .quit, .loop (.wakeup .owner), .woken, .loop (.poll true),
        .loop .wakeupRead, .loop .handled, .loop .testFuncs, .loop .testQuit, .loopReturns,
        .resetLoop, .joined]).owner = .destroyed := by
  decide +kernel

end EventLoopThread

end XiaoNet
