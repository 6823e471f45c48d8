import XiaoNet.Net.EventLoop
import XiaoNet.Utils.LockFreeQueueFifo

/-!
# No wakeup is lost

A function in the queue is either going to be run in this round of the loop, or the counter
of the `eventfd` is not 0, or a thread in `queueInLoop` is still going to write to it
(`Wakes`). A queue that looks empty because of a gap is such a case: the producer that has
to close the gap is another thread, and it wakes the loop up after it.

- `Inv`: the invariant, with the order of the steps of each thread; a lemma `inv_…` for
  each step.
- `KeepsWakeup`: an exception that is caught outside `loop()` left no function that nobody is
  going to notice. The counter was read before the callbacks, and what they leave in the queue is
  found by no later call of `loop()`.
- `noLostWakeup_of_keepsWakeup`: the loop never sleeps on a function while this is so.
-/

namespace XiaoNet

universe u v

namespace MpscQueue.Threads

variable {ι : Type u} {F : Type v} [DecidableEq ι]

/-- An item has been put in and not taken out. -/
def Holds (s : Threads ι F) : Prop := s.dequeued.length < s.enqueued.length

instance (s : Threads ι F) : Decidable s.Holds := inferInstanceAs (Decidable (_ < _))

theorem Inv.holds_iff {s : Threads ι F} {rest : List (Entry ι F)} (h : s.Inv rest) :
    s.Holds ↔ rest ≠ [] := by
  obtain ⟨taken, henqueued, hdequeued⟩ := h.split
  unfold Holds
  rw [henqueued, hdequeued, List.length_map, List.length_append]
  constructor
  · rintro hlt rfl
    simp at hlt
  · intro hne
    have hpos := List.length_pos_iff.mpr hne
    omega

end MpscQueue.Threads

/-- The loop thread will look at the queue before it polls again. -/
def LoopPc.drains : LoopPc → Bool
  | .handling _ | .outer | .inner | .taking | .running => true
  | _ => false

namespace EventLoop

variable {ι : Type u} {F : Type v}

/-- A thread that has put a function in and is going to write to the `eventfd`. -/
def Wakes (s : EventLoop ι F) (p : ι) : Prop :=
  ((s.callers p = .enqueueing ∧ ∃ node prevhead, s.funcs.producers p = .exchanged node prevhead) ∨
      s.callers p = .enqueued) ∧ (p ≠ s.threadId ∨ s.looping = false) ∨
    s.callers p = .waking

/-- The function in the queue is not forgotten. -/
def Noticed (s : EventLoop ι F) : Prop :=
  0 < s.wakeupFd ∨ s.pc.drains = true ∨ s.pc = .threw ∨ ∃ p, s.Wakes p

variable {s : EventLoop ι F}

/-- In a call of its own the loop thread is in a callback or outside `loop()`. -/
theorem drains_or_not_looping (hruns : s.pc.runsUser = true)
    (hlooping : s.looping = false ↔ s.pc = .outside ∨ s.pc = .threw) :
    s.pc.drains = true ∨ s.looping = false := by
  rw [hlooping]
  cases hpc : s.pc with
  | outside => exact .inr (.inl rfl)
  | threw => exact .inr (.inr rfl)
  | handling woken => exact .inl rfl
  | running => exact .inl rfl
  | _ => rw [hpc] at hruns; cases hruns

/-- A thread that has its function in the queue is going to notice it, or the loop thread
does before it polls. -/
theorem noticed_of_busy (hown : s.callers s.threadId ≠ .idle → s.pc.runsUser = true)
    (hlooping : s.looping = false ↔ s.pc = .outside ∨ s.pc = .threw) {p : ι}
    (hbusy : (s.callers p = .enqueueing ∧ ∃ node prevhead,
      s.funcs.producers p = .exchanged node prevhead) ∨ s.callers p = .enqueued) : s.Noticed := by
  by_cases hp : p = s.threadId
  · have hnot : s.callers s.threadId ≠ .idle := by
      intro hidle
      rw [← hp] at hidle
      rcases hbusy with ⟨hcaller, -⟩ | hcaller <;> rw [hidle] at hcaller <;> cases hcaller
    rcases drains_or_not_looping (hown hnot) hlooping with hdrains | hnot
    · exact .inr (.inl hdrains)
    · exact .inr (.inr (.inr ⟨p, .inl ⟨hbusy, .inr hnot⟩⟩))
  · exact .inr (.inr (.inr ⟨p, .inl ⟨hbusy, .inl hp⟩⟩))

theorem Wakes.not_idle {p : ι} (h : s.Wakes p) : s.callers p ≠ .idle := by
  intro hidle
  rcases h with ⟨⟨hcaller, -⟩ | hcaller, -⟩ | hcaller <;> rw [hidle] at hcaller <;> cases hcaller

theorem Wakes.not_quitting {p : ι} (h : s.Wakes p) : s.callers p ≠ .quitting := by
  intro hquitting
  rcases h with ⟨⟨hcaller, -⟩ | hcaller, -⟩ | hcaller <;> rw [hquitting] at hcaller <;>
    cases hcaller

theorem own_iff : s.own = true ↔ s.callers s.threadId = .idle := by
  simp [own]

/-- The loop thread itself does not wake the loop up while it goes on in `loop()`. -/
theorem Wakes.other {p : ι} (h : s.Wakes p) (hown : s.own = true) : p ≠ s.threadId := by
  rintro rfl
  exact h.not_idle (own_iff.mp hown)

/-- Outside a round of the loop it is another thread or the counter that remembers the
function, and both are left alone. -/
theorem Noticed.go {s' : EventLoop ι F} (h : s.Noticed) (hown : s.own = true)
    (hthread : s'.threadId = s.threadId) (hcallers : s'.callers = s.callers)
    (hfuncs : s'.funcs = s.funcs) (hfd : s'.wakeupFd = s.wakeupFd) (hpc : s.pc.drains = false)
    (hthrew : s.pc ≠ .threw) :
    s'.Noticed := by
  rcases h with hpos | hdrains | ht | ⟨q, hq⟩
  · exact .inl (hfd ▸ hpos)
  · rw [hpc] at hdrains
    cases hdrains
  · exact absurd ht hthrew
  · refine .inr (.inr (.inr ⟨q, ?_⟩))
    have hother := hq.other hown
    unfold Wakes
    rw [hcallers, hfuncs, hthread]
    exact hq.imp_left fun ⟨hbusy, _⟩ => ⟨hbusy, .inl hother⟩

/-- The counter is not 0 after a `write`, also when it was full. -/
theorem writeWakeupFd_pos (s : EventLoop ι F) : 0 < s.writeWakeupFd.wakeupFd := by
  unfold writeWakeupFd
  dsimp only
  split
  · exact Nat.succ_pos _
  · unfold eventfdMax at *
    omega

variable [DecidableEq ι]

structure Inv (s : EventLoop ι F) : Prop where
  funcs : ∃ rest, s.funcs.Inv rest
  producing : ∀ p, s.callers p ≠ .enqueueing → s.funcs.producers p = .idle
  consuming : s.funcs.consumer = .idle ∨ s.pc = .taking
  taking : s.pc = .taking → ∃ tail next, s.funcs.consumer = .loaded tail next
  looping_iff : s.looping = false ↔ s.pc = .outside ∨ s.pc = .threw
  own : s.callers s.threadId ≠ .idle → s.pc.runsUser = true
  noticed : s.funcs.Holds → s.Noticed

/-- The loop thread waits, nothing wakes it up and no thread is in `queueInLoop`: the queue
is empty. -/
def NoLostWakeup (s : EventLoop ι F) : Prop :=
  s.pc = .polling → s.wakeupFd = 0 → (∀ p, s.callers p = .idle ∨ s.callers p = .quitting) →
    s.funcs.dequeued = s.funcs.enqueued.map MpscQueue.Entry.input ∧ s.funcs.isEmpty = true

/-- A thread in `enqueue` is in a call of `queueInLoop`. -/
theorem Inv.enqueueing (h : s.Inv) {p : ι} (hp : s.funcs.producers p ≠ .idle) :
    s.callers p = .enqueueing := by
  by_contra hne
  exact hp (h.producing p hne)

theorem inv_new (threadId : ι) : (new threadId : EventLoop ι F).Inv where
  funcs := ⟨[], MpscQueue.Threads.inv_start⟩
  producing _ _ := rfl
  consuming := .inl rfl
  taking h := nomatch h
  looping_iff := ⟨fun _ => .inl rfl, fun _ => rfl⟩
  own h := absurd rfl h
  noticed h := absurd h (Nat.lt_irrefl 0)

/-! ## Callers -/

theorem free_iff {p : ι} :
    s.free p = true ↔ s.callers p = .idle ∧ (p ≠ s.threadId ∨ s.pc.runsUser = true) := by
  simp [free]

/-- What a step of thread `p` in a call leaves alone. -/
structure Calling (s s' : EventLoop ι F) (p : ι) : Prop where
  threadId : s'.threadId = s.threadId
  looping : s'.looping = s.looping
  wakeupFd : s.wakeupFd ≤ s'.wakeupFd
  pc : s'.pc = s.pc
  consumer : s'.funcs.consumer = s.funcs.consumer
  others : ∀ q, q ≠ p → s'.callers q = s.callers q ∧
    s'.funcs.producers q = s.funcs.producers q

variable {s' : EventLoop ι F} {p : ι}

/-- The other threads still wake the loop up; only `p` itself has to be followed. -/
theorem Calling.noticed (hc : Calling s s' p) (h : s.Noticed) (hself : s.Wakes p → s'.Noticed) :
    s'.Noticed := by
  rcases h with hpos | hdrains | hthrew | ⟨q, hq⟩
  · exact .inl (Nat.lt_of_lt_of_le hpos hc.wakeupFd)
  · exact .inr (.inl (hc.pc ▸ hdrains))
  · exact .inr (.inr (.inl (hc.pc ▸ hthrew)))
  · by_cases hqp : q = p
    · exact hself (hqp ▸ hq)
    · obtain ⟨hcaller, hproducer⟩ := hc.others q hqp
      refine .inr (.inr (.inr ⟨q, ?_⟩))
      unfold Wakes
      rw [hcaller, hproducer, hc.threadId, hc.looping]
      exact hq

theorem Calling.inv (hc : Calling s s' p) (h : s.Inv) (hfuncs : ∃ rest, s'.funcs.Inv rest)
    (hproducing : s'.callers p ≠ .enqueueing → s'.funcs.producers p = .idle)
    (hown : s'.callers p ≠ .idle → p = s.threadId → s.pc.runsUser = true)
    (hnoticed : s'.funcs.Holds → s'.Noticed) : s'.Inv where
  funcs := hfuncs
  producing q hq := by
    -- the thread in the call, and the others
    by_cases hqp : q = p
    · rw [hqp] at hq ⊢
      exact hproducing hq
    · obtain ⟨hcaller, hproducer⟩ := hc.others q hqp
      rw [hproducer]
      exact h.producing q (hcaller ▸ hq)
  consuming := by
    rw [hc.consumer, hc.pc]
    exact h.consuming
  taking := by
    rw [hc.consumer, hc.pc]
    exact h.taking
  looping_iff := by
    rw [hc.looping, hc.pc]
    exact h.looping_iff
  own := by
    rw [hc.threadId, hc.pc]
    intro hq
    by_cases hqp : s.threadId = p
    · exact hown (hqp ▸ hq) hqp.symm
    · exact h.own ((hc.others _ hqp).1 ▸ hq)
  noticed := hnoticed

/-- The part of the invariant that says who is in a call. -/
theorem Calling.noticed_of_busy (hc : Calling s s' p) (h : s.Inv)
    (hown : s'.callers p ≠ .idle → p = s.threadId → s.pc.runsUser = true)
    (hbusy : (s'.callers p = .enqueueing ∧ ∃ node prevhead,
      s'.funcs.producers p = .exchanged node prevhead) ∨ s'.callers p = .enqueued) :
    s'.Noticed := by
  refine EventLoop.noticed_of_busy ?_ ?_ hbusy
  · rw [hc.threadId, hc.pc]
    intro hq
    by_cases hqp : s.threadId = p
    · exact hown (hqp ▸ hq) hqp.symm
    · exact h.own ((hc.others _ hqp).1 ▸ hq)
  · rw [hc.looping, hc.pc]
    exact h.looping_iff

theorem callers_setCaller (s : EventLoop ι F) (p : ι) (caller : Caller) :
    (s.setCaller p caller).callers p = caller :=
  Function.update_self _ _ _

theorem calling_setCaller {q : MpscQueue.Threads ι F} (hconsumer : q.consumer = s.funcs.consumer)
    (hothers : ∀ r, r ≠ p → q.producers r = s.funcs.producers r) (caller : Caller) :
    Calling s ({ s with funcs := q }.setCaller p caller) p :=
  ⟨rfl, rfl, Nat.le_refl _, rfl, hconsumer, fun r hr =>
    ⟨Function.update_of_ne hr _ _, hothers r hr⟩⟩

/-- A thread that is in a call stays in code of the user. -/
theorem Inv.own_of_busy (h : s.Inv) (hbusy : s.callers p ≠ .idle) (hp : p = s.threadId) :
    s.pc.runsUser = true :=
  h.own (hp ▸ hbusy)

/-- A call of `queueInLoop` begins. -/
theorem inv_queueInLoop (h : s.Inv) (p : ι) (f : F) : (s.step (.queueInLoop p f)).Inv := by
  simp only [step]
  split
  case isFalse => exact h
  case isTrue hfree =>
    obtain ⟨hidle, hthread⟩ := free_iff.mp hfree
    have hproducer : s.funcs.producers p = .idle := by
      apply h.producing
      rw [hidle]
      exact nofun
    -- the queue sees a new buffer node, which nothing points to yet
    have hstep : s.funcs.step (.enqueue p f) = { s.funcs with
        queue := s.funcs.queue.newBufferNode f
        producers := Function.update s.funcs.producers p (.created s.funcs.queue.fresh f)
        inputs := Function.update s.funcs.inputs p (s.funcs.inputs p ++ [f]) } := by
      simp only [MpscQueue.Threads.step, hproducer]
    have hqueue := MpscQueue.Threads.inv_step h.funcs (.enqueue p f)
    rw [hstep] at hqueue ⊢
    have hc := calling_setCaller (s := s) (p := p) (q := { s.funcs with
        queue := s.funcs.queue.newBufferNode f
        producers := Function.update s.funcs.producers p (.created s.funcs.queue.fresh f)
        inputs := Function.update s.funcs.inputs p (s.funcs.inputs p ++ [f]) }) rfl
      (fun r hr => Function.update_of_ne hr _ _) .enqueueing
    refine hc.inv h hqueue ?_ ?_ ?_
    · intro hne
      exact absurd (Function.update_self _ _ _) hne
    · intro _ hp
      exact hthread.resolve_left (not_not_intro hp)
    · intro hholds
      exact hc.noticed (h.noticed hholds) fun hw => absurd hidle hw.not_idle

/-- The function is in the queue; from here on it has to be noticed. -/
theorem inv_exchange (h : s.Inv) (p : ι) : (s.step (.exchange p)).Inv := by
  have hqueue := MpscQueue.Threads.inv_step h.funcs (.exchange p)
  simp only [step]
  -- only a thread with a node that is not in the queue gets on
  cases hp : s.funcs.producers p with
  | idle =>
    have hstep : s.funcs.step (.exchange p) = s.funcs := by
      simp only [MpscQueue.Threads.step, hp]
    rw [hstep]
    exact h
  | exchanged node prevhead =>
    have hstep : s.funcs.step (.exchange p) = s.funcs := by
      simp only [MpscQueue.Threads.step, hp]
    rw [hstep]
    exact h
  | created node input =>
    have hcaller := h.enqueueing (p := p) (by simp [hp])
    have hstep : s.funcs.step (.exchange p) = { s.funcs with
        queue := { s.funcs.queue with head := node }
        producers := Function.update s.funcs.producers p (.exchanged node s.funcs.queue.head)
        enqueued := s.funcs.enqueued ++ [⟨p, node, input⟩] } := by
      simp only [MpscQueue.Threads.step, hp, MpscQueue.exchange]
    rw [hstep] at hqueue ⊢
    have hc : Calling s { s with funcs := { s.funcs with
        queue := { s.funcs.queue with head := node }
        producers := Function.update s.funcs.producers p (.exchanged node s.funcs.queue.head)
        enqueued := s.funcs.enqueued ++ [⟨p, node, input⟩] } } p :=
      ⟨rfl, rfl, Nat.le_refl _, rfl, rfl, fun r hr => ⟨rfl, Function.update_of_ne hr _ _⟩⟩
    -- it is in its call still, so it will write to the eventfd
    have hbusy : s.callers p ≠ .idle := by
      rw [hcaller]
      simp
    refine hc.inv h hqueue ?_ (fun _ => h.own_of_busy hbusy) fun _ => ?_
    · intro hne
      exact absurd hcaller hne
    · refine hc.noticed_of_busy h (fun _ => h.own_of_busy hbusy) (.inl ⟨hcaller, ?_⟩)
      exact ⟨node, s.funcs.queue.head, Function.update_self _ _ _⟩

/-- The link is stored; the thread goes on to the test. -/
theorem inv_link (h : s.Inv) (p : ι) : (s.step (.link p)).Inv := by
  have hqueue := MpscQueue.Threads.inv_step h.funcs (.link p)
  simp only [step]
  cases hp : s.funcs.producers p with
  | idle => exact h
  | created node input => exact h
  | exchanged node prevhead =>
    have hcaller := h.enqueueing (p := p) (by simp [hp])
    have hbusy : s.callers p ≠ .idle := by
      rw [hcaller]
      exact nofun
    obtain ⟨rest, hrest⟩ := h.funcs
    obtain ⟨queue, hstep⟩ := hrest.step_link hp
    rw [hstep] at hqueue
    simp only [hstep]
    have hc := calling_setCaller (s := s) (p := p) (q := { s.funcs with
        queue := queue
        producers := Function.update s.funcs.producers p .idle }) rfl
      (fun r hr => Function.update_of_ne hr _ _) .enqueued
    refine hc.inv h hqueue (fun _ => Function.update_self _ _ _)
      (fun _ => h.own_of_busy hbusy) fun _ => ?_
    exact hc.noticed_of_busy h (fun _ => h.own_of_busy hbusy) (.inr (Function.update_self _ _ _))

/-- A thread that goes on in its call without touching the queue. -/
theorem Inv.setCaller (h : s.Inv) {caller : Caller} (hcaller : s.callers p ≠ .enqueueing)
    (hown : caller ≠ .idle → p = s.threadId → s.pc.runsUser = true)
    (hself : s.Wakes p → (s.setCaller p caller).Noticed) : (s.setCaller p caller).Inv := by
  have hc : Calling s (s.setCaller p caller) p := calling_setCaller rfl (fun _ _ => rfl) caller
  refine hc.inv h h.funcs (fun _ => h.producing p hcaller) ?_ fun hholds => ?_
  · intro hne
    rw [callers_setCaller] at hne
    exact hown hne
  · exact hc.noticed (h.noticed hholds) hself

/-- The thread writes to the `eventfd`, unless it is the loop thread in a callback of the
loop. -/
theorem inv_testWakeup (h : s.Inv) (p : ι) : (s.step (.testWakeup p)).Inv := by
  simp only [step]
  split
  case isFalse => exact h
  case isTrue hcaller =>
    have hbusy : s.callers p ≠ .idle := by
      rw [hcaller]
      exact nofun
    refine h.setCaller ?_ (fun _ => h.own_of_busy hbusy) fun _ => ?_
    · rw [hcaller]
      exact nofun
    · split
      case isTrue => exact .inr (.inr (.inr ⟨p, .inr (Function.update_self _ _ _)⟩))
      case isFalse hnot =>
        rw [not_or, not_not] at hnot
        -- no write: the loop thread is in a callback and will look at the queue itself
        rcases drains_or_not_looping (h.own_of_busy hbusy hnot.1) h.looping_iff with hdrains | hno
        · exact .inr (.inl hdrains)
        · exact absurd hno hnot.2

theorem inv_wakeup (h : s.Inv) (p : ι) : (s.step (.wakeup p)).Inv := by
  simp only [step]
  split
  case isFalse => exact h
  case isTrue hcaller =>
    have hpos : 0 < (s.writeWakeupFd.setCaller p .idle).wakeupFd := writeWakeupFd_pos s
    have hc : Calling s (s.writeWakeupFd.setCaller p .idle) p := by
      refine ⟨rfl, rfl, ?_, rfl, rfl, fun r hr => ⟨Function.update_of_ne hr _ _, rfl⟩⟩
      show s.wakeupFd ≤ if s.wakeupFd < eventfdMax then s.wakeupFd + 1 else s.wakeupFd
      split
      · exact Nat.le_succ _
      · exact Nat.le_refl _
    refine hc.inv h h.funcs (fun _ => h.producing p ?_) ?_ fun _ => .inl hpos
    · rcases hcaller with hcaller | hcaller <;> rw [hcaller] <;> exact nofun
    · intro hne
      exact absurd (Function.update_self _ _ _) hne

theorem inv_quit (h : s.Inv) (p : ι) : (s.step (.quit p)).Inv := by
  have hquit : Inv { s with quit := true } := { h with }
  simp only [step]
  split
  case isFalse => exact h
  case isTrue hfree =>
    obtain ⟨hidle, hthread⟩ := free_iff.mp hfree
    split
    case isFalse => exact hquit
    case isTrue hp =>
      refine hquit.setCaller ?_ (fun _ heq => absurd heq hp) fun hw => absurd hidle hw.not_idle
      rw [hidle]
      exact nofun

/-! ## The loop thread -/

theorem Inv.loopStep (h : s.Inv) {pc : LoopPc} {next : EventLoop ι F}
    (hnext : s.pc = pc → s.own = true → next.Inv) : (s.loopStep pc next).Inv := by
  unfold EventLoop.loopStep
  split
  case isTrue hcond => exact hnext hcond.1 hcond.2
  case isFalse => exact h

/-- The loop thread goes on and the queue is as it was. -/
theorem Inv.go (h : s.Inv) (hown : s.own = true) (hthread : s'.threadId = s.threadId)
    (hcallers : s'.callers = s.callers) (hfuncs : s'.funcs = s.funcs) (hpc : s.pc ≠ .taking)
    (hpc' : s'.pc ≠ .taking)
    (hlooping : s'.looping = false ↔ s'.pc = .outside ∨ s'.pc = .threw)
    (hnoticed : s.funcs.Holds → s'.Noticed) : s'.Inv where
  funcs := hfuncs ▸ h.funcs
  producing := by
    rw [hcallers, hfuncs]
    exact h.producing
  consuming := by
    rw [hfuncs]
    exact .inl (h.consuming.resolve_right hpc)
  taking htaking := absurd htaking hpc'
  looping_iff := hlooping
  own := by
    rw [hcallers, hthread]
    intro hne
    exact absurd (own_iff.mp hown) hne
  noticed := by
    rw [hfuncs]
    exact hnoticed

theorem inv_loop (h : s.Inv) : (s.step .loop).Inv := by
  refine h.loopStep fun hpc hown => ?_
  refine h.go hown rfl rfl rfl ?_ nofun ?_ fun hholds => ?_
  · rw [hpc]
    exact nofun
  · constructor
    · exact nofun
    · rintro (heq | heq) <;> cases heq
  · refine (h.noticed hholds).go hown rfl rfl rfl rfl ?_ ?_ <;> rw [hpc]
    · rfl
    · exact nofun

theorem inv_clearQuit (h : s.Inv) : (s.step .clearQuit).Inv := by
  refine h.loopStep fun hpc hown => ?_
  refine h.go hown rfl rfl rfl ?_ nofun ?_ fun hholds => ?_
  · rw [hpc]
    exact nofun
  · have hlooping := h.looping_iff
    rw [hpc] at hlooping
    simpa using hlooping
  · refine (h.noticed hholds).go hown rfl rfl rfl rfl ?_ ?_ <;> rw [hpc]
    · rfl
    · exact nofun

theorem inv_testQuit (h : s.Inv) : (s.step .testQuit).Inv := by
  refine h.loopStep fun hpc hown => ?_
  have hnottaking : s.pc ≠ .taking := by
    rw [hpc]
    exact nofun
  have hnoticed : ∀ s' : EventLoop ι F, s'.threadId = s.threadId → s'.callers = s.callers →
      s'.funcs = s.funcs → s'.wakeupFd = s.wakeupFd → s.funcs.Holds → s'.Noticed := by
    intro s' hthread hcallers hfuncs hfd hholds
    refine (h.noticed hholds).go hown hthread hcallers hfuncs hfd ?_ ?_ <;> rw [hpc]
    · rfl
    · exact nofun
  split
  case isTrue =>
    refine h.go hown rfl rfl rfl hnottaking nofun ?_ (hnoticed _ rfl rfl rfl rfl)
    exact iff_of_true rfl (.inl rfl)
  case isFalse =>
    refine h.go hown rfl rfl rfl hnottaking nofun ?_ (hnoticed _ rfl rfl rfl rfl)
    have hlooping := h.looping_iff
    rw [hpc] at hlooping
    simpa using hlooping

/-- A step within a round of the loop. -/
theorem Inv.goRound (h : s.Inv) (hown : s.own = true) {n : Nat} {pc : LoopPc}
    (hpc : s.pc = .polling ∨ s.pc = .running ∨ ∃ woken, s.pc = .handling woken)
    (hdrains : pc.drains = true) (hpc' : pc ≠ .taking) :
    Inv { s with wakeupFd := n, pc := pc } := by
  refine h.go hown rfl rfl rfl ?_ hpc' ?_ fun _ => .inr (.inl hdrains)
  · rcases hpc with heq | heq | ⟨woken, heq⟩ <;> rw [heq] <;> exact nofun
  · have hlooping := h.looping_iff
    constructor
    · intro hfalse
      have hold := hlooping.mp hfalse
      rcases hpc with heq | heq | ⟨woken, heq⟩ <;> rw [heq] at hold <;> simp at hold
    · rintro (heq | heq) <;> rw [show pc = _ from heq] at hdrains <;> cases hdrains

theorem inv_poll (h : s.Inv) (woken : Bool) : (s.step (.poll woken)).Inv := by
  refine h.loopStep fun hpc hown => ?_
  split
  case isTrue => exact h
  case isFalse => exact h.goRound hown (.inl hpc) rfl nofun

theorem inv_wakeupRead (h : s.Inv) : (s.step .wakeupRead).Inv := by
  refine h.loopStep fun hpc hown => ?_
  exact h.goRound hown (.inr (.inr ⟨true, hpc⟩)) rfl nofun

theorem inv_handled (h : s.Inv) : (s.step .handled).Inv := by
  refine h.loopStep fun hpc hown => ?_
  exact h.goRound hown (.inr (.inr ⟨false, hpc⟩)) rfl nofun

theorem inv_funcReturns (h : s.Inv) : (s.step .funcReturns).Inv := by
  refine h.loopStep fun hpc hown => ?_
  exact h.goRound hown (.inr (.inl hpc)) rfl nofun

/-- A round ends only on a queue that looks empty: then either it is, or its next producer
is in the gap and wakes the loop up later. -/
theorem Inv.noticed_of_empty (h : s.Inv) (hown : s.own = true) (hempty : s.funcs.isEmpty = true)
    (hholds : s.funcs.Holds) : ∃ p, s.Wakes p := by
  obtain ⟨rest, hrest⟩ := h.funcs
  rcases hrest.false_only hempty with hlength | ⟨e, prevhead, -, hproducer⟩
  · exact absurd hlength (Nat.ne_of_lt hholds)
  · have hcaller := h.enqueueing (p := e.producer) (by simp [hproducer])
    -- the loop thread is in no call, so the gap is another thread's
    have hother : e.producer ≠ s.threadId := by
      intro heq
      rw [heq, own_iff.mp hown] at hcaller
      cases hcaller
    exact ⟨e.producer, .inl ⟨.inl ⟨hcaller, e.node, prevhead, hproducer⟩, .inl hother⟩⟩

theorem inv_testFuncs (h : s.Inv) : (s.step .testFuncs).Inv := by
  refine h.loopStep fun hpc hown => ?_
  obtain ⟨rest, hrest⟩ := h.funcs
  rw [hrest.step_empty]
  have hnottaking : s.pc ≠ .taking := by
    rw [hpc]
    exact nofun
  have hlooping := h.looping_iff
  rw [hpc] at hlooping
  split
  case isTrue hempty =>
    -- the loop goes back to `poll`, and only a thread in the gap is left to wake it
    refine h.go hown rfl rfl rfl hnottaking nofun ?_ fun hholds => ?_
    · simpa using hlooping
    · obtain ⟨p, hp⟩ := h.noticed_of_empty hown hempty hholds
      exact .inr (.inr (.inr ⟨p, hp⟩))
  case isFalse =>
    refine h.go hown rfl rfl rfl hnottaking nofun ?_ fun _ => .inr (.inl rfl)
    simpa using hlooping

theorem inv_dequeue (h : s.Inv) : (s.step .dequeue).Inv := by
  refine h.loopStep fun hpc hown => ?_
  have hnottaking : s.pc ≠ .taking := by
    rw [hpc]
    exact nofun
  have hidle := h.consuming.resolve_right hnottaking
  have hlooping := h.looping_iff
  rw [hpc] at hlooping
  have hqueue := MpscQueue.Threads.inv_step h.funcs .dequeue
  obtain ⟨rest, hrest⟩ := h.funcs
  split
  case isTrue hempty =>
    rw [MpscQueue.Threads.step_dequeue_empty hidle hempty]
    refine h.go hown rfl rfl rfl hnottaking nofun ?_ fun _ => .inr (.inl rfl)
    simpa using hlooping
  case isFalse hempty =>
    obtain ⟨nx, hstep⟩ := hrest.step_dequeue hidle (eq_false_of_ne_true hempty)
    rw [hstep] at hqueue ⊢
    constructor
    case funcs => exact hqueue
    case producing => exact h.producing
    case consuming => exact .inr rfl
    case taking => exact fun _ => ⟨_, nx, rfl⟩
    case looping_iff => simpa using hlooping
    case own => exact fun hne => absurd (own_iff.mp hown) hne
    case noticed => exact fun _ => .inr (.inl rfl)

theorem inv_take (h : s.Inv) : (s.step .take).Inv := by
  refine h.loopStep fun hpc hown => ?_
  obtain ⟨tail, nx, hloaded⟩ := h.taking hpc
  have hlooping := h.looping_iff
  rw [hpc] at hlooping
  have hqueue := MpscQueue.Threads.inv_step h.funcs .take
  obtain ⟨rest, hrest⟩ := h.funcs
  obtain ⟨queue, output, hstep⟩ := hrest.step_take hloaded
  rw [hstep] at hqueue ⊢
  constructor
  case funcs => exact hqueue
  case producing => exact h.producing
  case consuming => exact .inl rfl
  case taking => exact nofun
  case looping_iff => simpa using hlooping
  case own => exact fun hne => absurd (own_iff.mp hown) hne
  case noticed => exact fun _ => .inr (.inl rfl)

theorem inv_userThrows (h : s.Inv) : (s.step .userThrows).Inv := by
  have hthrew : s.own = true → s.pc ≠ .taking →
      Inv { s with looping := false, pc := .threw } := by
    intro hown hpc
    refine h.go hown rfl rfl rfl hpc nofun ?_ fun _ => .inr (.inr (.inl rfl))
    exact iff_of_true rfl (.inr rfl)
  simp only [step]
  cases hpc : s.pc with
  | handling woken =>
    dsimp only
    split
    case isTrue hown => exact hthrew hown (hpc ▸ nofun)
    case isFalse => exact h
  | running =>
    dsimp only
    split
    case isTrue hown => exact hthrew hown (hpc ▸ nofun)
    case isFalse => exact h
  | _ => exact h

/-- What an exception may leave for the next call of `loop()`: no function, or one that the counter
or a thread in `queueInLoop` remembers. -/
def KeepsWakeup (s : EventLoop ι F) : Act ι F → Prop
  | .caught => s.pc = .threw → s.funcs.Holds → 0 < s.wakeupFd ∨ ∃ p, s.Wakes p
  | _ => True

/-- `loop()` can be called again. -/
theorem inv_caught (h : s.Inv) (hkeeps : s.KeepsWakeup .caught) : (s.step .caught).Inv := by
  refine h.loopStep fun hpc hown => ?_
  refine h.go hown rfl rfl rfl ?_ nofun ?_ fun hholds => ?_
  · rw [hpc]
    exact nofun
  · exact iff_of_true (h.looping_iff.mpr (.inr hpc)) (.inl rfl)
  · rcases hkeeps hpc hholds with hpos | ⟨p, hp⟩
    · exact .inl hpos
    · exact .inr (.inr (.inr ⟨p, hp⟩))

theorem inv_step (s : EventLoop ι F) (a : Act ι F) (h : s.Inv) (hkeeps : s.KeepsWakeup a) :
    (s.step a).Inv := by
  cases a with
  | queueInLoop p f => exact inv_queueInLoop h p f
  | exchange p => exact inv_exchange h p
  | link p => exact inv_link h p
  | testWakeup p => exact inv_testWakeup h p
  | wakeup p => exact inv_wakeup h p
  | quit p => exact inv_quit h p
  | loop => exact inv_loop h
  | clearQuit => exact inv_clearQuit h
  | testQuit => exact inv_testQuit h
  | poll woken => exact inv_poll h woken
  | wakeupRead => exact inv_wakeupRead h
  | handled => exact inv_handled h
  | testFuncs => exact inv_testFuncs h
  | dequeue => exact inv_dequeue h
  | take => exact inv_take h
  | funcReturns => exact inv_funcReturns h
  | userThrows => exact inv_userThrows h
  | caught => exact inv_caught h hkeeps

/-- Where `loop()` is not called again after an exception, nothing has to be asked. -/
theorem inv_step_of_ne (h : s.Inv) {a : Act ι F} (ha : a ≠ .caught) : (s.step a).Inv := by
  refine inv_step s a h ?_
  cases a with
  | caught => exact absurd rfl ha
  | _ => trivial

/-- When the loop thread waits and nobody is left to wake it up, nothing is in the queue. -/
theorem Inv.noLostWakeup (h : s.Inv) : s.NoLostWakeup := by
  intro hpc hfd hcallers
  obtain ⟨rest, hrest⟩ := h.funcs
  -- nobody is left who would notice a function in the queue
  have hnotholds : ¬ s.funcs.Holds := by
    intro hholds
    rcases h.noticed hholds with hpos | hdrains | hthrew | ⟨p, hp⟩
    · rw [hfd] at hpos
      cases hpos
    · rw [hpc] at hdrains
      cases hdrains
    · rw [hpc] at hthrew
      cases hthrew
    · rcases hcallers p with hidle | hquitting
      · exact hp.not_idle hidle
      · exact hp.not_quitting hquitting
  -- so there is none
  have hnil : rest = [] := not_not.mp (mt hrest.holds_iff.mpr hnotholds)
  subst hnil
  obtain ⟨taken, henqueued, hdequeued⟩ := hrest.split
  constructor
  · rw [henqueued, hdequeued, List.append_nil]
  · have hnone : s.funcs.queue.next s.funcs.queue.tail = none := hrest.chain
    unfold MpscQueue.Threads.isEmpty
    rw [hrest.loadNext_eq, hnone]
    rfl

/-- **No lost wakeup.** In every interleaving of the loop with the threads that hand functions to
it, in which no exception leaves a function unnoticed, a loop thread that waits on a counter of 0
while no call is under way has an empty queue. -/
theorem noLostWakeup_of_keepsWakeup (threadId : ι) (as : List (Act ι F))
    (hkeeps : Runs.Along step KeepsWakeup (new threadId : EventLoop ι F) as) :
    Runs.Always step NoLostWakeup (new threadId : EventLoop ι F) as :=
  (Runs.always_of_along inv_step (inv_new threadId) hkeeps).mono fun _ h => h.noLostWakeup

/-- The queue is empty when the function throws, so the next `loop()` sleeps on nothing. -/
theorem noLostWakeup_of_keepsWakeup_thrown :
    Runs.Always step NoLostWakeup (new 0 : EventLoop (Fin 2) Nat)
      [.queueInLoop 1 7, .exchange 1, .link 1, .testWakeup 1, .wakeup 1, .loop, .clearQuit,
        .testQuit, .poll true, .wakeupRead, .handled, .testFuncs, .dequeue, .take, .userThrows,
        .caught, .loop, .clearQuit, .testQuit] :=
  noLostWakeup_of_keepsWakeup 0 _
    ⟨trivial, trivial, trivial, trivial, trivial, trivial, trivial, trivial, trivial, trivial,
      trivial, trivial, trivial, trivial, trivial, fun _ hholds => absurd hholds (by decide),
      trivial, trivial, trivial, trivial⟩

/-- Two functions are queued and the counter is read; the first throws, and the next `loop()`
sleeps on the second. -/
theorem not_noLostWakeup_thrown :
    ¬ Runs.Always step NoLostWakeup (new 0 : EventLoop (Fin 2) Nat)
      [.queueInLoop 1 7, .exchange 1, .link 1, .testWakeup 1, .wakeup 1,
        .queueInLoop 1 8, .exchange 1, .link 1, .testWakeup 1, .wakeup 1, .loop, .clearQuit,
        .testQuit, .poll true, .wakeupRead, .handled, .testFuncs, .dequeue, .take, .userThrows,
        .caught, .loop, .clearQuit, .testQuit] := by
  intro h
  have hempty := (h.last rfl rfl (by decide)).2
  revert hempty
  decide

/-- The loop sees a queue that looks empty because of a gap and polls; the thread that
closes the gap writes to the `eventfd`. -/
example :
    (Runs.run step (new 0 : EventLoop (Fin 2) Nat)
      [.loop, .clearQuit, .testQuit, .queueInLoop 1 7, .exchange 1, .poll false, .handled,
        .testFuncs, .testQuit, .link 1, .testWakeup 1, .wakeup 1]).wakeupFd = 1 := by
  decide

end EventLoop

end XiaoNet
