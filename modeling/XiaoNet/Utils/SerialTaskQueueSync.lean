import XiaoNet.Utils.SerialTaskQueue

/-!
# Order and synchronisation of a `SerialTaskQueue`

- `Serial`: functions return in the order in which they were put into the queue, at most one is
  under way, a call of `syncTaskInQueue` by another thread than the loop's comes back only after
  everything that was in the queue when it was made, and a loop that sleeps leaves nobody waiting.
- `Inv`: what this rests on; `inv_go` is the lemma for a step of the loop that neither makes nor
  sets a promise, `inv_call` for a call, `inv_funcReturns` for the return of a function.
- `always_serial`: a `SerialTaskQueue` is serial in every state of every run.
-/

namespace XiaoNet

universe u v

namespace SerialTaskQueue

variable {ι : Type u} {τ : Type v}

/-- The function with the promise that a thread waits for. -/
def Held (s : SerialTaskQueue ι τ) (p : ι) (k : Nat) : Prop :=
  (∃ f, s.loop.created p = some f ∧ f.promise = some k) ∨
    ∃ f ∈ s.loop.enqueued, f.promise = some k

/-- A wait for a promise that nothing put into the queue before the call has. -/
structure Waiting (s : SerialTaskQueue ι τ) (p : ι) (w : Wait) : Prop where
  made : w.promise < s.promises
  before_le : w.before ≤ s.loop.enqueued.length
  fresh : ∀ f ∈ s.loop.enqueued.take w.before, f.promise ≠ some w.promise
  held : s.Held p w.promise

variable {s s' : SerialTaskQueue ι τ}

theorem Waiting.mono {p : ι} {w : Wait} (h : s.Waiting p w) (hpromises : s.promises ≤ s'.promises)
    (henqueued : s.loop.enqueued <+: s'.loop.enqueued)
    (hheld : s.Held p w.promise → s'.Held p w.promise) : s'.Waiting p w where
  made := Nat.lt_of_lt_of_le h.made hpromises
  before_le := Nat.le_trans h.before_le henqueued.length_le
  fresh := by
    obtain ⟨more, hmore⟩ := henqueued
    rw [← hmore, List.take_append_of_le_length h.before_le]
    exact h.fresh
  held := hheld h.held

variable [DecidableEq ι]

/-- **Serial execution** of what other threads than the loop's put into the queue, and of what any
thread puts there with `queueInLoop`. A task that the loop's own thread passes to `runTaskInQueue`
or `syncTaskInQueue` is none of these: it runs at once, before what is queued. -/
structure Serial (s : SerialTaskQueue ι τ) : Prop where
  /-- Tasks return in the order in which they were put into the queue. -/
  order : s.returned <+: s.loop.enqueued
  /-- At most one has been started and has not returned. -/
  one : ∃ rest, s.loop.funcs.dequeued = s.returned ++ rest ∧ rest.length ≤ 1
  /-- What a thread that is in no call has queued is in the queue or has left it. -/
  called : ∀ p, s.loop.callers p = .idle → s.loop.funcs.inputs p = s.loop.funcs.enqueuedBy p
  /-- When `fut.get()` of another thread than the loop's can return, the task has returned, and all
  those have that had been put into the queue before the call. -/
  synced : ∀ p w, s.waits p = some w → s.isSet w.promise = true →
    (∃ f ∈ s.returned, f.promise = some w.promise) ∧ w.before ≤ s.returned.length
  /-- When the loop sleeps and no thread is in `queueInLoop`, every `fut.get()` can return. -/
  awake : s.loop.pc = .polling → s.loop.wakeupFd = 0 →
    (∀ p, s.loop.callers p = .idle ∨ s.loop.callers p = .quitting) →
    ∀ p w, s.waits p = some w → s.isSet w.promise = true

structure Inv (s : SerialTaskQueue ι τ) : Prop where
  loop : s.loop.Inv
  under_way : ∃ rest, s.loop.funcs.dequeued = s.returned ++ rest ∧ rest.length ≤ 1 ∧
    (s.loop.pc.phase = .other → rest = []) ∧ (s.loop.pc.phase = .running → rest ≠ [])
  queued_made : ∀ f ∈ s.loop.enqueued, ∀ k, f.promise = some k → k < s.promises
  created_made : ∀ p f, s.loop.created p = some f → ∀ k, f.promise = some k → k < s.promises
  isSet_iff : ∀ k, s.isSet k = true ↔ ∃ f ∈ s.returned, f.promise = some k
  waiting : ∀ p w, s.waits p = some w → s.Waiting p w

theorem inv_new (threadId : ι) : (new threadId : SerialTaskQueue ι τ).Inv where
  loop := EventLoop.inv_new threadId
  under_way := ⟨[], rfl, Nat.zero_le _, fun _ => rfl, by rintro ⟨⟩⟩
  queued_made _ hf := absurd hf List.not_mem_nil
  created_made _ _ hf := by cases hf
  isSet_iff k := by
    refine iff_of_false Bool.false_ne_true ?_
    rintro ⟨f, hf, -⟩
    exact List.not_mem_nil hf
  waiting _ _ hw := by cases hw

/-- What has been taken off the queue was put in first. -/
theorem dequeued_prefix {l : EventLoop ι (Func τ)} (h : l.Inv) :
    l.funcs.dequeued <+: l.enqueued := by
  obtain ⟨rest, hrest⟩ := h.funcs
  obtain ⟨taken, henqueued, hdequeued⟩ := hrest.split
  refine ⟨rest.map MpscQueue.Entry.input, ?_⟩
  rw [hdequeued, EventLoop.enqueued, henqueued, List.map_append]

theorem Inv.order (h : s.Inv) : s.returned <+: s.loop.enqueued := by
  obtain ⟨rest, hrest, -⟩ := h.under_way
  have hle := dequeued_prefix h.loop
  rw [hrest] at hle
  exact (List.prefix_append _ _).trans hle

theorem created_of_not (h : s.Inv) {p : ι} (hnot : s.loop.callers p ≠ .enqueueing) :
    s.loop.created p = none := by
  rw [EventLoop.created, h.loop.producing p hnot]
  rfl

/-- The functions before the call do not have the promise, so it is set after them. -/
theorem Inv.synced (h : s.Inv) {p : ι} {w : Wait} (hw : s.waits p = some w)
    (hset : s.isSet w.promise = true) :
    (∃ f ∈ s.returned, f.promise = some w.promise) ∧ w.before ≤ s.returned.length := by
  obtain ⟨f, hf, hpromise⟩ := (h.isSet_iff w.promise).mp hset
  refine ⟨⟨f, hf, hpromise⟩, ?_⟩
  by_contra hlt
  have hsub : s.returned <+: s.loop.enqueued.take w.before :=
    List.prefix_take_iff.mpr ⟨h.order, by omega⟩
  exact (h.waiting p w hw).fresh f (hsub.subset hf) hpromise

/-- A sleeping loop has nothing left in the queue, so the function of a waiting thread has
returned. -/
theorem Inv.awake (h : s.Inv) (hpc : s.loop.pc = .polling) (hfd : s.loop.wakeupFd = 0)
    (hcallers : ∀ p, s.loop.callers p = .idle ∨ s.loop.callers p = .quitting) {p : ι} {w : Wait}
    (hw : s.waits p = some w) : s.isSet w.promise = true := by
  obtain ⟨hall, -⟩ := h.loop.noLostWakeup hpc hfd hcallers
  obtain ⟨rest, hrest, -, hother, -⟩ := h.under_way
  have hreturned : s.returned = s.loop.enqueued := by
    rw [hother (by rw [hpc]; rfl), List.append_nil] at hrest
    exact hrest.symm.trans hall
  refine (h.isSet_iff w.promise).mpr ?_
  rcases (h.waiting p w hw).held with ⟨f, hf, -⟩ | hqueued
  · have hnot : s.loop.callers p ≠ .enqueueing := by
      rcases hcallers p with hp | hp <;> simp [hp]
    rw [created_of_not h hnot] at hf
    cases hf
  · rw [hreturned]
    exact hqueued

theorem Inv.serial (h : s.Inv) : s.Serial where
  order := h.order
  one := by
    obtain ⟨rest, hrest, hone, -⟩ := h.under_way
    exact ⟨rest, hrest, hone⟩
  called p hp := by
    obtain ⟨rest, hrest⟩ := h.loop.funcs
    rw [hrest.inputs p, h.loop.producing p (by simp [hp])]
    exact List.append_nil _
  synced _ _ := h.synced
  awake hpc hfd hcallers _ _ := h.awake hpc hfd hcallers

/-! ## Preservation -/

/-- The steps that leave the queue and the promises alone. -/
theorem inv_of_loop (h : s.Inv) {loop : EventLoop ι (Func τ)} (hloop : loop.Inv)
    (henqueued : loop.enqueued = s.loop.enqueued) (hcreated : loop.created = s.loop.created)
    (hway : ∃ rest, loop.funcs.dequeued = s.returned ++ rest ∧ rest.length ≤ 1 ∧
      (loop.pc.phase = .other → rest = []) ∧ (loop.pc.phase = .running → rest ≠ [])) :
    Inv { s with loop := loop } where
  loop := hloop
  under_way := hway
  queued_made := by
    rw [henqueued]
    exact h.queued_made
  created_made := by
    rw [hcreated]
    exact h.created_made
  isSet_iff := h.isSet_iff
  waiting p w hw := by
    refine (h.waiting p w hw).mono (Nat.le_refl _) (henqueued ▸ List.prefix_refl _) ?_
    · unfold Held
      rw [henqueued, hcreated]
      exact id

/-- A function comes to the end of the queue. -/
theorem inv_put (h : s.Inv) {loop : EventLoop ι (Func τ)} (hloop : loop.Inv) {p : ι} {f : Func τ}
    (hheld : s.loop.created p = some f) (henqueued : loop.enqueued = s.loop.enqueued ++ [f])
    (hdequeued : loop.funcs.dequeued = s.loop.funcs.dequeued)
    (hcreated : loop.created = Function.update s.loop.created p none)
    (hphase : loop.pc.phase = s.loop.pc.phase) : Inv { s with loop := loop } where
  loop := hloop
  under_way := by
    rw [hdequeued, hphase]
    exact h.under_way
  queued_made := by
    rw [henqueued]
    intro g hg
    rcases List.mem_append.mp hg with hg | hg
    · exact h.queued_made g hg
    · obtain rfl := List.mem_singleton.mp hg
      exact h.created_made p g hheld
  created_made := by
    rw [hcreated]
    intro q g hg
    by_cases hq : q = p
    · rw [hq, Function.update_self] at hg
      cases hg
    · rw [Function.update_of_ne hq] at hg
      exact h.created_made q g hg
  isSet_iff := h.isSet_iff
  waiting q w hw := by
    refine (h.waiting q w hw).mono (Nat.le_refl _) ?_ ?_
    · rw [henqueued]
      exact List.prefix_append _ _
    · unfold Held
      rw [henqueued, hcreated]
      rintro (⟨g, hg, hpromise⟩ | ⟨g, hg, hpromise⟩)
      · by_cases hq : q = p
        · -- the promise of the function that is now in the queue
          rw [hq, hheld] at hg
          cases hg
          exact .inr ⟨f, List.mem_append_right _ List.mem_cons_self, hpromise⟩
        · exact .inl ⟨g, (Function.update_of_ne hq _ _).trans hg, hpromise⟩
      · exact .inr ⟨g, List.mem_append_left _ hg, hpromise⟩

/-- A step that makes and sets no promise. -/
theorem inv_go (h : s.Inv) {a : EventLoop.Act ι (Func τ)} (ha : a ≠ .caught)
    (hready : ¬ s.loop.Ready a) : Inv { s with loop := s.loop.step a } := by
  have hloop := EventLoop.inv_step_of_ne h.loop ha
  obtain ⟨rest, hrest, hone, hother, hrunning⟩ := h.under_way
  have heffect := EventLoop.effect h.loop a
  revert hloop heffect
  generalize s.loop.step a = loop
  intro hloop heffect
  -- what the step does to the queue decides, not which step it is
  cases heffect with
  | quiet _ henqueued hdequeued hcreated hphase =>
    refine inv_of_loop h hloop henqueued hcreated ⟨rest, ?_⟩
    rw [hdequeued, hphase]
    exact ⟨hrest, hone, hother, hrunning⟩
  | call hfree => exact absurd hfree hready
  | put hheld henqueued hdequeued hcreated hphase =>
    exact inv_put h hloop hheld henqueued hdequeued hcreated hphase
  | take hbefore henqueued hdequeued hcreated hafter =>
    -- the task that is taken is the one under way until it returns
    rename_i f
    refine inv_of_loop h hloop henqueued hcreated ⟨[f], ?_, Nat.le_refl 1, ?_, ?_⟩
    · rw [hdequeued, hrest, hother hbefore, List.append_nil]
    · rw [hafter]
      rintro ⟨⟩
    · intro _
      exact List.cons_ne_nil f []
  | returns hbefore hown => exact absurd ⟨hbefore, hown⟩ hready
  | throws hbefore henqueued hdequeued hcreated hafter =>
    -- the task that threw was taken, so it stays under way for ever
    refine inv_of_loop h hloop henqueued hcreated ⟨rest, ?_⟩
    rw [hdequeued, hafter]
    refine ⟨hrest, hone, ?_, ?_⟩ <;> rintro ⟨⟩
  | caught => exact absurd rfl ha

/-- A thread begins a call of `queueInLoop`, and perhaps to wait for the promise of its
function. -/
theorem inv_call (h : s.Inv) {p : ι} {f : Func τ} {promises : Nat} {waits : ι → Option Wait}
    (hfree : s.loop.free p = true) (hpromises : s.promises ≤ promises)
    (hmade : ∀ k, f.promise = some k → k < promises)
    (hothers : ∀ q, q ≠ p → waits q = s.waits q)
    (hself : ∀ w, waits p = some w →
      f.promise = some w.promise ∧ s.promises ≤ w.promise ∧ w.before = s.loop.enqueued.length) :
    Inv { s.enqueue p f with promises := promises, waits := waits } := by
  have hloop := EventLoop.inv_step_of_ne (a := .queueInLoop p f) h.loop nofun
  have heffect := EventLoop.effect h.loop (.queueInLoop p f)
  unfold enqueue
  revert hloop heffect
  generalize s.loop.step (.queueInLoop p f) = loop
  intro hloop heffect
  cases heffect with
  | quiet hready => exact absurd hfree hready
  | call _ henqueued hdequeued hcreated hphase =>
    have hqueued : ∀ g ∈ s.loop.enqueued, ∀ k, g.promise = some k → k < s.promises :=
      h.queued_made
    refine ⟨hloop, ?_, ?_, ?_, h.isSet_iff, ?_⟩
    · show ∃ rest, loop.funcs.dequeued = s.returned ++ rest ∧ rest.length ≤ 1 ∧
        (loop.pc.phase = .other → rest = []) ∧ (loop.pc.phase = .running → rest ≠ [])
      rw [hdequeued, hphase]
      exact h.under_way
    · show ∀ g ∈ loop.enqueued, ∀ k, g.promise = some k → k < promises
      rw [henqueued]
      exact fun g hg k hk => Nat.lt_of_lt_of_le (hqueued g hg k hk) hpromises
    · show ∀ q g, loop.created q = some g → ∀ k, g.promise = some k → k < promises
      rw [hcreated]
      intro q g hg
      by_cases hq : q = p
      · rw [hq, Function.update_self] at hg
        cases hg
        exact hmade
      · rw [Function.update_of_ne hq] at hg
        exact fun k hk => Nat.lt_of_lt_of_le (h.created_made q g hg k hk) hpromises
    · -- the caller waits for a promise that is new, the others wait as before
      intro q w hw
      by_cases hq : q = p
      · obtain rfl := hq
        obtain ⟨hpromise, hnew, hbefore⟩ := hself w hw
        refine ⟨hmade _ hpromise, ?_, ?_, .inl ⟨f, ?_, hpromise⟩⟩
        · show w.before ≤ loop.enqueued.length
          exact Nat.le_of_eq (hbefore.trans (congrArg List.length henqueued.symm))
        · show ∀ g ∈ loop.enqueued.take w.before, g.promise ≠ some w.promise
          rw [henqueued]
          intro g hg hk
          exact absurd (hqueued g (List.mem_of_mem_take hg) _ hk) (Nat.not_lt.mpr hnew)
        · exact (congrFun hcreated q).trans (Function.update_self _ _ _)
      · refine (h.waiting q w ((hothers q hq).symm.trans hw)).mono hpromises ?_ ?_
        · show s.loop.enqueued <+: loop.enqueued
          exact henqueued ▸ List.prefix_refl _
        · unfold Held
          rw [henqueued, hcreated, Function.update_of_ne hq]
          exact id

/-- The promises that are set are those of the functions that have returned. -/
theorem isSet_iff_returns {isSet : Nat → Bool} {returned : List (Func τ)}
    (h : ∀ k, isSet k = true ↔ ∃ f ∈ returned, f.promise = some k) (f : Func τ) (k : Nat) :
    (match f.promise with
      | some j => Function.update isSet j true
      | none => isSet) k = true ↔ ∃ g ∈ returned ++ [f], g.promise = some k := by
  have hsplit : (∃ g ∈ returned ++ [f], g.promise = some k) ↔
      (∃ g ∈ returned, g.promise = some k) ∨ f.promise = some k := by
    simp [or_and_right, exists_or]
  rw [hsplit, ← h]
  cases hf : f.promise with
  | none => simp
  | some j =>
    by_cases hk : k = j
    · simp [hk]
    · show Function.update isSet j true k = true ↔ _
      rw [Function.update_of_ne hk]
      simp [Ne.symm hk]

/-- A function returns, and its promise is set. -/
theorem inv_funcReturns (h : s.Inv) (hpc : s.loop.pc = .running) (hown : s.loop.own = true) :
    s.funcReturns.Inv := by
  obtain ⟨rest, hrest, hone, -, hrunning⟩ := h.under_way
  obtain ⟨f, rfl⟩ : ∃ f, rest = [f] := by
    refine List.length_eq_one_iff.mp (Nat.le_antisymm hone ?_)
    exact List.length_pos_iff.mpr (hrunning (by rw [hpc]; rfl))
  have hloop := EventLoop.inv_step_of_ne (a := .funcReturns) h.loop nofun
  have heffect := EventLoop.effect h.loop .funcReturns
  -- the task that returns is the last one that was taken
  have hlast : s.loop.funcs.dequeued.getLast? = some f := by
    rw [hrest, List.getLast?_append_cons, List.getLast?_singleton]
  simp only [funcReturns, hlast]
  revert hloop heffect
  generalize s.loop.step .funcReturns = loop
  intro hloop heffect
  cases heffect with
  | quiet hready => exact absurd ⟨hpc, hown⟩ hready
  | returns _ _ henqueued hdequeued hcreated hafter =>
    refine ⟨hloop, ⟨[], ?_, Nat.zero_le 1, fun _ => rfl, ?_⟩, ?_, ?_, ?_, ?_⟩
    · show loop.funcs.dequeued = s.returned ++ [f] ++ []
      rw [hdequeued, hrest, List.append_nil]
    · show loop.pc.phase = .running → [] ≠ []
      rw [hafter]
      rintro ⟨⟩
    · show ∀ g ∈ loop.enqueued, ∀ k, g.promise = some k → k < s.promises
      rw [henqueued]
      exact h.queued_made
    · show ∀ q g, loop.created q = some g → ∀ k, g.promise = some k → k < s.promises
      rw [hcreated]
      exact h.created_made
    · exact isSet_iff_returns h.isSet_iff f
    · intro p w hw
      refine (h.waiting p w hw).mono (Nat.le_refl _) ?_ ?_
      · show s.loop.enqueued <+: loop.enqueued
        exact henqueued ▸ List.prefix_refl _
      · unfold Held
        rw [henqueued, hcreated]
        exact id

theorem inv_get (h : s.Inv) (p : ι) : (s.step (.get p)).Inv := by
  have hdone : Inv { s with waits := Function.update s.waits p none } := by
    refine ⟨h.loop, h.under_way, h.queued_made, h.created_made, h.isSet_iff, ?_⟩
    intro q w hw
    by_cases hq : q = p
    · subst hq
      cases (Function.update_self q none s.waits).symm.trans hw
    · have hwait := h.waiting q w ((Function.update_of_ne hq _ _).symm.trans hw)
      exact hwait.mono (Nat.le_refl _) (List.prefix_refl _) id
  unfold step
  dsimp only
  split
  · split
    · exact hdone
    · exact h
  · exact h

theorem inv_loop (h : s.Inv) (a : EventLoop.Act ι (Func τ)) : (s.stepLoop a).Inv := by
  cases a with
  | queueInLoop p f | caught => exact h
  | quit p =>
    simp only [stepLoop]
    split
    · exact inv_go h nofun not_false
    · exact h
  | funcReturns =>
    simp only [stepLoop]
    split
    case isTrue hcond => exact inv_funcReturns h hcond.1 hcond.2
    case isFalse => exact h
  | _ => exact inv_go h nofun not_false

theorem canCall_iff {p : ι} : s.canCall p = true ↔ s.waits p = none ∧ s.loop.free p = true := by
  simp [canCall]

/-- A call with a function that has no promise. -/
theorem inv_enqueue (h : s.Inv) {p : ι} (hcall : s.canCall p = true) (task : τ) :
    (s.enqueue p ⟨task, none⟩).Inv := by
  obtain ⟨hwaits, hfree⟩ := canCall_iff.mp hcall
  refine inv_call h hfree (Nat.le_refl _) ?_ (fun _ _ => rfl) ?_
  · rintro k ⟨⟩
  · intro w hw
    cases hwaits.symm.trans hw

theorem inv_syncTaskInQueue (h : s.Inv) (p : ι) (task : τ) :
    (s.step (.syncTaskInQueue p task)).Inv := by
  simp only [step]
  split
  case isFalse => exact h
  case isTrue hcond =>
    rw [Bool.and_eq_true] at hcond
    obtain ⟨-, hfree⟩ := canCall_iff.mp hcond.1
    refine inv_call h hfree (Nat.le_succ _) ?_ (fun _ hq => Function.update_of_ne hq _ _) ?_
    · rintro k ⟨⟩
      exact Nat.lt_succ_self _
    · intro w hw
      rw [Function.update_self] at hw
      cases hw
      exact ⟨rfl, Nat.le_refl _, rfl⟩

theorem inv_step (s : SerialTaskQueue ι τ) (a : Act ι τ) (h : s.Inv) : (s.step a).Inv := by
  cases a with
  | queueInLoop p task =>
    simp only [step]
    split
    case isTrue hcall => exact inv_enqueue h hcall task
    case isFalse => exact h
  | runTaskInQueue p task =>
    simp only [step]
    split
    case isTrue hcond =>
      rw [Bool.and_eq_true] at hcond
      exact inv_enqueue h hcond.1 task
    case isFalse => exact h
  | syncTaskInQueue p task => exact inv_syncTaskInQueue h p task
  | get p => exact inv_get h p
  | loop a => exact inv_loop h a

/-- **Serial execution** in every state of every run, of any threads that use the queue. -/
theorem always_serial (threadId : ι) (as : List (Act ι τ)) :
    Runs.Always step Serial (new threadId : SerialTaskQueue ι τ) as :=
  (Runs.always_of_step inv_step (inv_new threadId) as).mono fun _ h => h.serial

end SerialTaskQueue

end XiaoNet
