import XiaoNet.Net.EventLoopWakeup

/-!
# What becomes of the functions of a loop

A function that is given to `queueInLoop` is first held by the thread that made its node
(`created`), then in the queue, then the loop thread runs it (`FuncPhase`). `Effect` says all that a
step can do to these; `effect` reads it off the code once, for everything that reasons about
functions and not about how the queue is built.
-/

namespace XiaoNet

universe u v

/-- What the loop thread is doing with functions. -/
inductive FuncPhase where
  /-- It is in a queued function. -/
  | running
  /-- An exception has left `loop()`. -/
  | threw
  | other
  deriving DecidableEq, Repr

def LoopPc.phase : LoopPc → FuncPhase
  | .running => .running
  | .threw => .threw
  | _ => .other

namespace EventLoop

variable {ι : Type u} {F : Type v}

/-- What a producer has made a node for and not put into the queue. -/
def createdBy : MpscQueue.Producer F → Option F
  | .created _ input => some input
  | _ => none

/-- The function a thread has made a node for and not put into the queue. -/
def created (s : EventLoop ι F) (p : ι) : Option F := createdBy (s.funcs.producers p)

/-- The functions in the order in which they were put into the queue. -/
def enqueued (s : EventLoop ι F) : List F := s.funcs.enqueued.map MpscQueue.Entry.input

variable [DecidableEq ι]

/-- The thread is where it can make this step: a call of `queueInLoop`, the return of a function,
or the end of an exception. -/
def Ready (s : EventLoop ι F) : Act ι F → Prop
  | .queueInLoop p _ => s.free p = true
  | .funcReturns => s.pc = .running ∧ s.own = true
  | .caught => s.pc = .threw ∧ s.own = true
  | _ => False

/-- What a step does to the functions. -/
inductive Effect (s : EventLoop ι F) : Act ι F → EventLoop ι F → Prop where
  | quiet {a : Act ι F} {s' : EventLoop ι F}
      (hready : ¬ s.Ready a)
      (henqueued : s'.enqueued = s.enqueued)
      (hdequeued : s'.funcs.dequeued = s.funcs.dequeued)
      (hcreated : s'.created = s.created) (hphase : s'.pc.phase = s.pc.phase) : Effect s a s'
  /-- A call of `queueInLoop` begins. -/
  | call {p : ι} {f : F} {s' : EventLoop ι F} (hfree : s.free p = true)
      (henqueued : s'.enqueued = s.enqueued)
      (hdequeued : s'.funcs.dequeued = s.funcs.dequeued)
      (hcreated : s'.created = Function.update s.created p (some f))
      (hphase : s'.pc.phase = s.pc.phase) : Effect s (.queueInLoop p f) s'
  /-- The function is in the queue. -/
  | put {p : ι} {f : F} {s' : EventLoop ι F} (hheld : s.created p = some f)
      (henqueued : s'.enqueued = s.enqueued ++ [f])
      (hdequeued : s'.funcs.dequeued = s.funcs.dequeued)
      (hcreated : s'.created = Function.update s.created p none)
      (hphase : s'.pc.phase = s.pc.phase) : Effect s (.exchange p) s'
  /-- The loop thread takes a function off the queue and runs it. -/
  | take {f : F} {s' : EventLoop ι F} (hbefore : s.pc.phase = .other)
      (henqueued : s'.enqueued = s.enqueued)
      (hdequeued : s'.funcs.dequeued = s.funcs.dequeued ++ [f])
      (hcreated : s'.created = s.created) (hafter : s'.pc.phase = .running) : Effect s .take s'
  | returns {s' : EventLoop ι F} (hbefore : s.pc = .running) (hown : s.own = true)
      (henqueued : s'.enqueued = s.enqueued)
      (hdequeued : s'.funcs.dequeued = s.funcs.dequeued)
      (hcreated : s'.created = s.created) (hafter : s'.pc.phase = .other) :
      Effect s .funcReturns s'
  | throws {s' : EventLoop ι F} (hbefore : s.pc.phase ≠ .threw)
      (henqueued : s'.enqueued = s.enqueued)
      (hdequeued : s'.funcs.dequeued = s.funcs.dequeued)
      (hcreated : s'.created = s.created) (hafter : s'.pc.phase = .threw) :
      Effect s .userThrows s'
  | caught {s' : EventLoop ι F} (hbefore : s.pc = .threw) (hown : s.own = true)
      (henqueued : s'.enqueued = s.enqueued)
      (hdequeued : s'.funcs.dequeued = s.funcs.dequeued)
      (hcreated : s'.created = s.created) (hafter : s'.pc.phase = .other) : Effect s .caught s'

variable {s : EventLoop ι F}

/-- A step that leaves the queue and the phase alone. -/
theorem Effect.of_funcs {a : Act ι F} {s' : EventLoop ι F} (hready : ¬ s.Ready a)
    (hfuncs : s'.funcs = s.funcs) (hphase : s'.pc.phase = s.pc.phase) : Effect s a s' := by
  refine .quiet hready ?_ ?_ ?_ hphase
  · rw [enqueued, hfuncs, enqueued]
  · rw [hfuncs]
  · funext p
    rw [created, hfuncs, created]

theorem Effect.refl {a : Act ι F} (hready : ¬ s.Ready a) : Effect s a s :=
  .of_funcs hready rfl rfl

/-- The functions a thread holds when its place in `enqueue` changes. -/
theorem created_update (q : MpscQueue.Threads ι F) (p : ι) (producer : MpscQueue.Producer F) :
    (fun r => createdBy (Function.update q.producers p producer r)) =
      Function.update (fun r => createdBy (q.producers r)) p (createdBy producer) := by
  funext r
  by_cases hr : r = p
  · subst hr
    rw [Function.update_self, Function.update_self]
  · rw [Function.update_of_ne hr, Function.update_of_ne hr]

theorem effect_queueInLoop (h : s.Inv) (p : ι) (f : F) :
    Effect s (.queueInLoop p f) (s.step (.queueInLoop p f)) := by
  simp only [step]
  split
  case isFalse hfree => exact .refl hfree
  case isTrue hfree =>
    have hproducer : s.funcs.producers p = .idle := by
      apply h.producing
      rw [(free_iff.mp hfree).1]
      simp
    have hstep : s.funcs.step (.enqueue p f) = { s.funcs with
        queue := s.funcs.queue.newBufferNode f
        producers := Function.update s.funcs.producers p (.created s.funcs.queue.fresh f)
        inputs := Function.update s.funcs.inputs p (s.funcs.inputs p ++ [f]) } := by
      simp only [MpscQueue.Threads.step, hproducer]
    rw [hstep]
    exact .call hfree rfl rfl (created_update s.funcs p _) rfl

theorem effect_exchange (p : ι) : Effect s (.exchange p) (s.step (.exchange p)) := by
  simp only [step]
  cases hp : s.funcs.producers p with
  | created node input =>
    have hstep : s.funcs.step (.exchange p) = { s.funcs with
        queue := { s.funcs.queue with head := node }
        producers := Function.update s.funcs.producers p (.exchanged node s.funcs.queue.head)
        enqueued := s.funcs.enqueued ++ [⟨p, node, input⟩] } := by
      simp only [MpscQueue.Threads.step, hp, MpscQueue.exchange]
    rw [hstep]
    have hheld : s.created p = some input := by
      rw [created, hp]
      rfl
    exact .put hheld List.map_append rfl (created_update s.funcs p _) rfl
  | _ =>
    have hstep : s.funcs.step (.exchange p) = s.funcs := by
      simp only [MpscQueue.Threads.step, hp]
    rw [hstep]
    exact .refl not_false

theorem effect_link (h : s.Inv) (p : ι) : Effect s (.link p) (s.step (.link p)) := by
  simp only [step]
  cases hp : s.funcs.producers p with
  | exchanged node prevhead =>
    obtain ⟨rest, hrest⟩ := h.funcs
    obtain ⟨queue, hstep⟩ := hrest.step_link hp
    simp only [hstep]
    refine .quiet not_false rfl rfl ?_ rfl
    refine (created_update s.funcs p _).trans ?_
    refine Function.update_eq_self_iff.mpr ?_
    show none = createdBy (s.funcs.producers p)
    rw [hp]
    rfl
  | _ => exact .refl not_false

theorem effect_take (h : s.Inv) : Effect s .take (s.step .take) := by
  simp only [step, loopStep]
  split
  case isFalse => exact .refl not_false
  case isTrue hcond =>
    obtain ⟨tail, nx, hloaded⟩ := h.taking hcond.1
    obtain ⟨rest, hrest⟩ := h.funcs
    obtain ⟨queue, output, hstep⟩ := hrest.step_take hloaded
    rw [hstep]
    refine .take ?_ rfl rfl rfl rfl
    rw [hcond.1]
    rfl

theorem effect_dequeue (h : s.Inv) : Effect s .dequeue (s.step .dequeue) := by
  simp only [step, loopStep]
  split
  case isFalse => exact .refl not_false
  case isTrue hcond =>
    have hidle := h.consuming.resolve_right (by simp [hcond.1])
    obtain ⟨rest, hrest⟩ := h.funcs
    split
    case isTrue hempty =>
      rw [MpscQueue.Threads.step_dequeue_empty hidle hempty]
      refine .of_funcs not_false rfl ?_
      rw [hcond.1]
      rfl
    case isFalse hempty =>
      obtain ⟨nx, hstep⟩ := hrest.step_dequeue hidle (eq_false_of_ne_true hempty)
      rw [hstep]
      refine .quiet not_false rfl rfl rfl ?_
      rw [hcond.1]
      rfl

/-- A step of the loop thread that leaves the queue alone and does not run functions. -/
theorem effect_loopStep {a : Act ι F} {pc : LoopPc} {next : EventLoop ι F}
    (ha : ¬ s.Ready a) (hpc : pc.phase = .other) (hfuncs : next.funcs = s.funcs)
    (hphase : s.pc = pc → next.pc.phase = .other) : Effect s a (s.loopStep pc next) := by
  unfold EventLoop.loopStep
  split
  case isFalse => exact .refl ha
  case isTrue hcond =>
    refine .of_funcs ha hfuncs ?_
    rw [hphase hcond.1, hcond.1, hpc]

theorem effect_funcReturns : Effect s .funcReturns (s.step .funcReturns) := by
  simp only [step, loopStep]
  split
  case isFalse hcond => exact .refl hcond
  case isTrue hcond => exact .returns hcond.1 hcond.2 rfl rfl rfl rfl

theorem effect_userThrows : Effect s .userThrows (s.step .userThrows) := by
  simp only [step]
  split
  · rename_i woken hpc
    split
    · refine .throws ?_ rfl rfl rfl rfl
      simp [hpc, LoopPc.phase]
    · exact .refl not_false
  · rename_i hpc
    split
    · refine .throws ?_ rfl rfl rfl rfl
      simp [hpc, LoopPc.phase]
    · exact .refl not_false
  · exact .refl not_false

theorem effect_caught : Effect s .caught (s.step .caught) := by
  simp only [step, loopStep]
  split
  case isFalse hcond => exact .refl hcond
  case isTrue hcond => exact .caught hcond.1 hcond.2 rfl rfl rfl rfl

/-- **Every step** of the loop and of the threads that call it. -/
theorem effect (h : s.Inv) (a : Act ι F) : Effect s a (s.step a) := by
  -- threads in a call put functions in, the loop takes them out
  cases a with
  | queueInLoop p f => exact effect_queueInLoop h p f
  | exchange p => exact effect_exchange p
  | link p => exact effect_link h p
  | testWakeup p =>
    simp only [step]
    split <;> exact .of_funcs not_false rfl rfl
  | wakeup p =>
    simp only [step]
    split <;> exact .of_funcs not_false rfl rfl
  | quit p =>
    simp only [step]
    split
    · split <;> exact .of_funcs not_false rfl rfl
    · exact .refl not_false
  | loop => exact effect_loopStep not_false rfl rfl fun _ => rfl
  | clearQuit => exact effect_loopStep not_false rfl rfl fun _ => rfl
  | testQuit =>
    refine effect_loopStep not_false rfl ?_ fun _ => ?_ <;> split <;> rfl
  | poll woken =>
    refine effect_loopStep not_false rfl ?_ fun hpc => ?_ <;> split
    · rfl
    · rfl
    · rw [hpc]
      rfl
    · rfl
  | wakeupRead => exact effect_loopStep not_false rfl rfl fun _ => rfl
  | handled => exact effect_loopStep not_false rfl rfl fun _ => rfl
  | testFuncs =>
    obtain ⟨rest, hrest⟩ := h.funcs
    refine effect_loopStep not_false rfl hrest.step_empty fun _ => ?_
    show LoopPc.phase (if s.funcs.isEmpty then .test else .inner) = .other
    split <;> rfl
  | dequeue => exact effect_dequeue h
  | take => exact effect_take h
  | funcReturns => exact effect_funcReturns
  | userThrows => exact effect_userThrows
  | caught => exact effect_caught

end EventLoop

end XiaoNet
