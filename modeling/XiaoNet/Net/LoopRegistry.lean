import Mathlib.Logic.Function.Basic
import XiaoNet.Lib.Runs

/-!
# The loop of a thread

`net/EventLoop.cpp` keeps the loop of each thread (`t_loopInThisThread`), and a loop keeps its
thread (`threadId_`) and where that thread keeps it (`threadLocalLoopPtr_`). The constructor,
`loop`, `quit`, `moveToCurrentThread` and the destructor are modelled, called from any thread.

- A failed assertion, `abortNotInLoopThread` and `exit(-1)` end the process (`exited`).
- `calls t` are the calls of `loop()` that thread `t` is in, the innermost first. A thread calls
  the functions of loops from outside `loop()`, from callbacks and from the functions on quit;
  these run after `looping_` is cleared.
- `Consistent`: the two directions agree, and `loop()` runs in the thread of its loop.
- `Legal`: what the callers have to see to; the checks of the code see to the rest.

A function between two waits is one step. Threads do not end.
-/

namespace XiaoNet

universe u v

/-- Where a call of `loop()` is. -/
inductive LoopCall where
  /-- `looping_` is set, and `quit_` not cleared yet. -/
  | entered
  /-- In `while (!quit_)`. -/
  | dispatching
  /-- `looping_` is cleared, and `t_loopInThisThread` not yet. -/
  | onQuit
  deriving DecidableEq, Repr

/-- What a loop knows of its thread. -/
structure LoopThread (τ : Type u) where
  threadId : τ
  /-- The thread whose `t_loopInThisThread` it points to. -/
  threadLocalLoopPtr : τ
  looping : Bool
  quit : Bool
  /-- `loop()` has cleared `t_loopInThisThread` since the loop came to its thread. -/
  returned : Bool

/-- The threads, and the loops by their addresses. -/
structure LoopRegistry (τ : Type u) (ι : Type v) where
  tLoopInThisThread : τ → Option ι
  loops : ι → Option (LoopThread τ)
  calls : τ → List (ι × LoopCall)
  exited : Bool

namespace LoopThread

variable {τ : Type u}

def isRunning (x : LoopThread τ) : Bool := x.looping && !x.quit

/-- As constructed in thread `t`. -/
def new (t : τ) : LoopThread τ where
  threadId := t
  threadLocalLoopPtr := t
  looping := false
  quit := false
  returned := false

end LoopThread

namespace LoopRegistry

variable {τ : Type u} {ι : Type v} [DecidableEq τ] [DecidableEq ι]

/-- No loop is constructed. -/
def start : LoopRegistry τ ι where
  tLoopInThisThread _ := none
  loops _ := none
  calls _ := []
  exited := false

def exit (s : LoopRegistry τ ι) : LoopRegistry τ ι := { s with exited := true }

def setSlot (s : LoopRegistry τ ι) (t : τ) (l : Option ι) : LoopRegistry τ ι :=
  { s with tLoopInThisThread := Function.update s.tLoopInThisThread t l }

def setLoop (s : LoopRegistry τ ι) (l : ι) (x : Option (LoopThread τ)) : LoopRegistry τ ι :=
  { s with loops := Function.update s.loops l x }

def modifyLoop (s : LoopRegistry τ ι) (l : ι) (f : LoopThread τ → LoopThread τ) :
    LoopRegistry τ ι :=
  s.setLoop l ((s.loops l).map f)

def setCalls (s : LoopRegistry τ ι) (t : τ) (cs : List (ι × LoopCall)) : LoopRegistry τ ι :=
  { s with calls := Function.update s.calls t cs }

/-- Thread `t` is in code of the user. -/
def RunsUser (s : LoopRegistry τ ι) (t : τ) : Prop :=
  ∀ c ∈ (s.calls t).head?, c.2 ≠ .entered

instance (s : LoopRegistry τ ι) (t : τ) : Decidable (s.RunsUser t) := by
  unfold RunsUser
  infer_instance

/-- The constructor, in thread `t` for the address `l`. -/
def construct (s : LoopRegistry τ ι) (t : τ) (l : ι) : LoopRegistry τ ι :=
  match s.tLoopInThisThread t with
  | some _ => s.exit
  | none => (s.setLoop l (some (.new t))).setSlot t (some l)

/-- The call of `loop()` for `l` up to `looping_ = true`. -/
def loop (s : LoopRegistry τ ι) (t : τ) (l : ι) (x : LoopThread τ) : LoopRegistry τ ι :=
  if x.looping = true ∨ x.threadId ≠ t then s.exit
  else (s.modifyLoop l ({ · with looping := true })).setCalls t ((l, .entered) :: s.calls t)

/-- `quit_ = false` in `loop()`. -/
def clearQuit (s : LoopRegistry τ ι) (t : τ) : LoopRegistry τ ι :=
  match s.calls t with
  | (l, .entered) :: cs =>
    (s.modifyLoop l ({ · with quit := false })).setCalls t ((l, .dispatching) :: cs)
  | _ => s

/-- The `while` of `loop()` is left, because of `quit_` or of a `std::exception`. -/
def endWhile (s : LoopRegistry τ ι) (t : τ) (threw : Bool) : LoopRegistry τ ι :=
  match s.calls t with
  | (l, .dispatching) :: cs =>
    if threw = true ∨ (s.loops l).any (·.quit) = true then
      (s.modifyLoop l ({ · with looping := false })).setCalls t ((l, .onQuit) :: cs)
    else s
  | _ => s

/-- `t_loopInThisThread = nullptr` at the end of `loop()`. -/
def returns (s : LoopRegistry τ ι) (t : τ) : LoopRegistry τ ι :=
  match s.calls t with
  | (l, .onQuit) :: cs =>
    ((s.modifyLoop l ({ · with returned := true })).setSlot t none).setCalls t cs
  | _ => s

/-- An exception leaves `loop()`: a function on quit throws, or a callback something else than a
`std::exception`. -/
def unwind (s : LoopRegistry τ ι) (t : τ) : LoopRegistry τ ι :=
  match s.calls t with
  | (l, .dispatching) :: cs => (s.modifyLoop l ({ · with looping := false })).setCalls t cs
  | (_, .onQuit) :: cs => s.setCalls t cs
  | _ => s

def quit (s : LoopRegistry τ ι) (l : ι) : LoopRegistry τ ι :=
  s.modifyLoop l ({ · with quit := true })

def moveToCurrentThread (s : LoopRegistry τ ι) (t : τ) (l : ι) (x : LoopThread τ) :
    LoopRegistry τ ι :=
  if x.isRunning = true then s.exit
  else if x.threadId = t then s
  else match s.tLoopInThisThread t with
    | some _ => s.exit
    | none =>
      ((s.setSlot x.threadLocalLoopPtr none).setSlot t (some l)).setLoop l
        (some { x with threadLocalLoopPtr := t, threadId := t, returned := false })

/-- `~EventLoop`, which waits for `looping_` to be cleared. -/
def destroy (s : LoopRegistry τ ι) (l : ι) (x : LoopThread τ) : LoopRegistry τ ι :=
  if x.looping = true then s.quit l else s.setLoop l none

/-- What happens next, and in which thread. -/
inductive Op (τ : Type u) (ι : Type v) where
  | construct (t : τ) (l : ι)
  | loop (t : τ) (l : ι)
  | clearQuit (t : τ)
  | endWhile (t : τ) (threw : Bool)
  | returns (t : τ)
  | unwind (t : τ)
  | quit (l : ι)
  | moveToCurrentThread (t : τ) (l : ι)
  | destroy (l : ι)

/-- A loop is constructed where there is none; the other functions are called on loops that
exist. -/
def step (s : LoopRegistry τ ι) (op : Op τ ι) : LoopRegistry τ ι :=
  if s.exited = true then s
  else match op with
    | .construct t l => if s.RunsUser t ∧ (s.loops l).isNone = true then s.construct t l else s
    | .loop t l =>
      match s.loops l with
      | some x => if s.RunsUser t then s.loop t l x else s
      | none => s
    | .clearQuit t => s.clearQuit t
    | .endWhile t threw => s.endWhile t threw
    | .returns t => s.returns t
    | .unwind t => s.unwind t
    | .quit l => s.quit l
    | .moveToCurrentThread t l =>
      match s.loops l with
      | some x => if s.RunsUser t then s.moveToCurrentThread t l x else s
      | none => s
    | .destroy l =>
      match s.loops l with
      | some x => s.destroy l x
      | none => s

/-! ## What the callers have to see to -/

/-- The two directions agree, and `loop()` runs in the thread of its loop. -/
structure Consistent (s : LoopRegistry τ ι) : Prop where
  registered : ∀ t l, s.tLoopInThisThread t = some l → ∃ x, s.loops l = some x ∧ x.threadId = t
  found : ∀ l x, s.loops l = some x → x.returned = false →
    s.tLoopInThisThread x.threadId = some l
  inThread : ∀ t, ∀ c ∈ s.calls t, ∃ x, s.loops c.1 = some x ∧ x.threadId = t

/-- Thread `t` has no other loop than `l`. -/
def NoOther (s : LoopRegistry τ ι) (t : τ) (l : ι) : Prop :=
  ∀ k ∈ s.tLoopInThisThread t, k = l

/-- Thread `t` is in no call of `loop()` for `l`. -/
def OutOf (s : LoopRegistry τ ι) (t : τ) (l : ι) : Prop :=
  ∀ c ∈ s.calls t, c.1 ≠ l

/-- A thread that returns from `loop()`, or whose loop is moved away, has no other loop; a loop is
moved or destroyed when its thread is out of `loop()`, and destroyed when its thread does not
have it any more. -/
def Legal (s : LoopRegistry τ ι) (op : Op τ ι) : Prop :=
  s.exited = false → match op with
    | .returns t => ∀ c ∈ (s.calls t).head?, c.2 = .onQuit → s.NoOther t c.1
    | .moveToCurrentThread t l =>
      ∀ x ∈ s.loops l, s.RunsUser t → x.isRunning = false → x.threadId ≠ t →
        s.tLoopInThisThread t = none → s.OutOf x.threadId l ∧ s.NoOther x.threadLocalLoopPtr l
    | .destroy l =>
      ∀ x ∈ s.loops l, x.looping = false →
        s.OutOf x.threadId l ∧ s.tLoopInThisThread x.threadId ≠ some l
    | _ => True

/-! ## What the steps keep -/

structure Inv (s : LoopRegistry τ ι) : Prop extends Consistent s where
  ptr_eq : ∀ l x, s.loops l = some x → x.threadLocalLoopPtr = x.threadId
  fresh : ∀ t l x, s.tLoopInThisThread t = some l → s.loops l = some x → x.returned = false

variable {s : LoopRegistry τ ι} {t : τ} {l : ι} {x : LoopThread τ}

omit [DecidableEq τ] [DecidableEq ι] in
theorem inv_start : Inv (start : LoopRegistry τ ι) where
  registered _ _ h := by cases h
  found _ _ h := by cases h
  inThread _ c hc := by cases hc
  ptr_eq _ _ h := by cases h
  fresh _ _ _ h := by cases h

omit [DecidableEq τ] [DecidableEq ι] in
theorem Inv.exit (h : Inv s) : Inv s.exit :=
  ⟨⟨h.registered, h.found, h.inThread⟩, h.ptr_eq, h.fresh⟩

omit [DecidableEq τ] in
/-- The loops after `modifyLoop`, seen from before. -/
theorem loops_modifyLoop {f : LoopThread τ → LoopThread τ} {k : ι} {y : LoopThread τ}
    (hy : (s.modifyLoop l f).loops k = some y) :
    (k = l ∧ ∃ x, s.loops l = some x ∧ y = f x) ∨ (k ≠ l ∧ s.loops k = some y) := by
  by_cases hk : k = l
  · subst hk
    left
    have hmap : (s.loops k).map f = some y := by simpa [modifyLoop, setLoop] using hy
    obtain ⟨x, hx, rfl⟩ := Option.map_eq_some_iff.mp hmap
    exact ⟨rfl, x, hx, rfl⟩
  · right
    exact ⟨hk, by simpa [modifyLoop, setLoop, Function.update_of_ne hk] using hy⟩

/-- The loop keeps its thread, and whether `loop()` has returned there. -/
def StaysPut (f : LoopThread τ → LoopThread τ) : Prop :=
  ∀ x, (f x).threadId = x.threadId ∧ (f x).threadLocalLoopPtr = x.threadLocalLoopPtr ∧
    (f x).returned = x.returned

omit [DecidableEq τ] in
theorem staysPut_looping (looping : Bool) :
    StaysPut ({ · with looping := looping } : LoopThread τ → LoopThread τ) :=
  fun _ => ⟨rfl, rfl, rfl⟩

omit [DecidableEq τ] in
theorem staysPut_quit (quit : Bool) :
    StaysPut ({ · with quit := quit } : LoopThread τ → LoopThread τ) :=
  fun _ => ⟨rfl, rfl, rfl⟩

omit [DecidableEq τ] in
theorem exists_modifyLoop {f : LoopThread τ → LoopThread τ} {k : ι}
    (hf : ∀ x, (f x).threadId = x.threadId) (h : ∃ x, s.loops k = some x ∧ x.threadId = t) :
    ∃ x, (s.modifyLoop l f).loops k = some x ∧ x.threadId = t := by
  obtain ⟨x, hx, ht⟩ := h
  by_cases hk : k = l
  · subst hk
    exact ⟨f x, by simp [modifyLoop, setLoop, hx], (hf x).trans ht⟩
  · exact ⟨x, by simpa [modifyLoop, setLoop, Function.update_of_ne hk] using hx, ht⟩

omit [DecidableEq τ] in
theorem Inv.modifyLoop {f : LoopThread τ → LoopThread τ} (h : Inv s) (hf : StaysPut f) :
    Inv (s.modifyLoop l f) := by
  have hthread : ∀ x, (f x).threadId = x.threadId := fun x => (hf x).1
  refine ⟨⟨?_, ?_, ?_⟩, ?_, ?_⟩
  · intro u k hk
    exact exists_modifyLoop hthread (h.registered u k hk)
  · intro k y hy hret
    rcases loops_modifyLoop hy with ⟨rfl, x, hx, rfl⟩ | ⟨-, hy⟩
    · rw [(hf x).2.2] at hret
      rw [hthread]
      exact h.found k x hx hret
    · exact h.found k y hy hret
  · intro u c hc
    exact exists_modifyLoop hthread (h.inThread u c hc)
  · intro k y hy
    rcases loops_modifyLoop hy with ⟨rfl, x, hx, rfl⟩ | ⟨-, hy⟩
    · rw [hthread, (hf x).2.1]
      exact h.ptr_eq k x hx
    · exact h.ptr_eq k y hy
  · intro u k y hk hy
    rcases loops_modifyLoop hy with ⟨rfl, x, hx, rfl⟩ | ⟨-, hy⟩
    · rw [(hf x).2.2]
      exact h.fresh u k x hk hx
    · exact h.fresh u k y hk hy

omit [DecidableEq ι] in
theorem Inv.setCalls (h : Inv s) {cs : List (ι × LoopCall)}
    (hcs : ∀ c ∈ cs, ∃ x, s.loops c.1 = some x ∧ x.threadId = t) : Inv (s.setCalls t cs) := by
  refine ⟨⟨h.registered, h.found, ?_⟩, h.ptr_eq, h.fresh⟩
  intro u c hc
  by_cases hu : u = t
  · subst hu
    exact hcs c (by simpa [LoopRegistry.setCalls] using hc)
  · exact h.inThread u c (by simpa [LoopRegistry.setCalls, hu] using hc)

/-- A call that goes on, of a loop that stays where it is. -/
theorem Inv.goesOn {f : LoopThread τ → LoopThread τ} (h : Inv s) (hf : StaysPut f)
    {cs : List (ι × LoopCall)} (hcs : ∀ c ∈ cs, ∃ x, s.loops c.1 = some x ∧ x.threadId = t) :
    Inv ((s.modifyLoop l f).setCalls t cs) :=
  (h.modifyLoop hf).setCalls fun c hc => exists_modifyLoop (fun x => (hf x).1) (hcs c hc)

theorem Inv.construct (h : Inv s) (hl : s.loops l = none) : Inv (s.construct t l) := by
  unfold LoopRegistry.construct
  cases hslot : s.tLoopInThisThread t with
  | some k =>
    -- the thread has a loop already, and the program exits
    exact h.exit
  | none =>
    -- the new loop is none of those that are there
    have hold : ∀ k y, s.loops k = some y → k ≠ l := by
      rintro k y hy rfl
      rw [hl] at hy
      cases hy
    have hloops : ∀ k y, ((s.setLoop l (some (.new t))).setSlot t (some l)).loops k = some y →
        (k = l ∧ y = .new t) ∨ s.loops k = some y := by
      intro k y hy
      by_cases hk : k = l
      · subst hk
        left
        exact ⟨rfl, by simpa [setLoop, setSlot] using hy.symm⟩
      · right
        simpa [setLoop, setSlot, Function.update_of_ne hk] using hy
    have hkeep : ∀ k u, (∃ y, s.loops k = some y ∧ y.threadId = u) →
        ∃ y, ((s.setLoop l (some (.new t))).setSlot t (some l)).loops k = some y ∧
          y.threadId = u := by
      rintro k u ⟨y, hy, hu⟩
      exact ⟨y, by simpa [setLoop, setSlot, Function.update_of_ne (hold k y hy)] using hy, hu⟩
    refine ⟨⟨?_, ?_, fun u c hc => hkeep c.1 u (h.inThread u c hc)⟩, ?_, ?_⟩
    · intro u k hk
      by_cases hu : u = t
      · subst hu
        obtain rfl : l = k := by simpa [setSlot] using hk
        exact ⟨.new u, by simp [setLoop, setSlot], rfl⟩
      · exact hkeep k u (h.registered u k (by simpa [setLoop, setSlot, hu] using hk))
    · intro k y hy hret
      rcases hloops k y hy with ⟨rfl, rfl⟩ | hy
      · simp [setSlot, LoopThread.new]
      · have hin := h.found k y hy hret
        have hne : y.threadId ≠ t := by
          rintro rfl
          rw [hslot] at hin
          cases hin
        simpa [setLoop, setSlot, hne] using hin
    · intro k y hy
      rcases hloops k y hy with ⟨rfl, rfl⟩ | hy
      · rfl
      · exact h.ptr_eq k y hy
    · intro u k y hk hy
      rcases hloops k y hy with ⟨rfl, rfl⟩ | hin
      · rfl
      · by_cases hu : u = t
        · subst hu
          exact absurd (by simpa [setSlot] using hk.symm) (hold k y hin)
        · exact h.fresh u k y (by simpa [setLoop, setSlot, hu] using hk) hin

theorem Inv.loop (h : Inv s) (hx : s.loops l = some x) : Inv (s.loop t l x) := by
  unfold LoopRegistry.loop
  split
  · exact h.exit
  next hok =>
    rw [not_or, not_not] at hok
    refine h.goesOn (staysPut_looping true) ?_
    intro c hc
    rcases List.mem_cons.mp hc with rfl | hc
    · exact ⟨x, hx, hok.2⟩
    · exact h.inThread t c hc

omit [DecidableEq τ] [DecidableEq ι] in
/-- The innermost call goes on in another place. -/
theorem Inv.call_cons (h : Inv s) {c : LoopCall} {cs : List (ι × LoopCall)}
    (hcalls : s.calls t = (l, c) :: cs) (d : LoopCall) :
    ∀ e ∈ (l, d) :: cs, ∃ x, s.loops e.1 = some x ∧ x.threadId = t := by
  intro e he
  rcases List.mem_cons.mp he with rfl | he
  · exact h.inThread t (l, c) (by rw [hcalls]; exact List.mem_cons_self)
  · exact h.inThread t e (by rw [hcalls]; exact List.mem_cons_of_mem _ he)

omit [DecidableEq τ] [DecidableEq ι] in
theorem Inv.call_tail (h : Inv s) {c : ι × LoopCall} {cs : List (ι × LoopCall)}
    (hcalls : s.calls t = c :: cs) :
    ∀ e ∈ cs, ∃ x, s.loops e.1 = some x ∧ x.threadId = t := by
  intro e he
  exact h.inThread t e (by rw [hcalls]; exact List.mem_cons_of_mem _ he)

theorem Inv.clearQuit (h : Inv s) : Inv (s.clearQuit t) := by
  unfold LoopRegistry.clearQuit
  split
  next l cs hcalls =>
    exact h.goesOn (staysPut_quit false) (h.call_cons hcalls _)
  next => exact h

theorem Inv.endWhile (h : Inv s) (threw : Bool) : Inv (s.endWhile t threw) := by
  unfold LoopRegistry.endWhile
  split
  next l cs hcalls =>
    split
    · exact h.goesOn (staysPut_looping false) (h.call_cons hcalls _)
    · exact h
  next => exact h

theorem Inv.unwind (h : Inv s) : Inv (s.unwind t) := by
  unfold LoopRegistry.unwind
  split
  next l cs hcalls =>
    exact h.goesOn (staysPut_looping false) (h.call_tail hcalls)
  next l cs hcalls => exact h.setCalls (h.call_tail hcalls)
  next => exact h

omit [DecidableEq τ] in
theorem Inv.quit (h : Inv s) : Inv (s.quit l) :=
  h.modifyLoop (staysPut_quit true)

/-! ## The steps that depend on the callers -/

theorem returns_eq {cs : List (ι × LoopCall)} (hcalls : s.calls t = (l, .onQuit) :: cs) :
    s.returns t =
      ((s.modifyLoop l ({ · with returned := true })).setSlot t none).setCalls t cs := by
  unfold returns
  rw [hcalls]

theorem Inv.returns (h : Inv s) {cs : List (ι × LoopCall)}
    (hcalls : s.calls t = (l, .onQuit) :: cs) (hother : s.NoOther t l) : Inv (s.returns t) := by
  rw [returns_eq hcalls]
  obtain ⟨x, hx, hxt⟩ := h.inThread t (l, .onQuit) (by rw [hcalls]; exact List.mem_cons_self)
  -- the slot of this thread is empty now, the others are as they were
  have hslot : ∀ u k, ((s.modifyLoop l ({ · with returned := true })).setSlot t none
      ).tLoopInThisThread u = some k → u ≠ t ∧ s.tLoopInThisThread u = some k := by
    intro u k hk
    by_cases hu : u = t
    · subst hu
      simp [setSlot] at hk
    · exact ⟨hu, by simpa [setSlot, LoopRegistry.modifyLoop, setLoop, hu] using hk⟩
  have hinv : Inv ((s.modifyLoop l ({ · with returned := true })).setSlot t none) := by
    refine ⟨⟨?_, ?_, ?_⟩, ?_, ?_⟩
    · intro u k hk
      exact exists_modifyLoop (fun _ => rfl) (h.registered u k (hslot u k hk).2)
    · intro k y hy hret
      rcases loops_modifyLoop hy with ⟨rfl, x, hx, rfl⟩ | ⟨hne, hin⟩
      · cases hret
      · have hk := h.found k y hin hret
        have hu : y.threadId ≠ t := by
          intro hu
          rw [hu] at hk
          exact hne (hother k hk)
        simpa [setSlot, LoopRegistry.modifyLoop, setLoop, hu] using hk
    · intro u c hc
      exact exists_modifyLoop (fun _ => rfl) (h.inThread u c hc)
    · intro k y hy
      rcases loops_modifyLoop hy with ⟨rfl, x, hx, rfl⟩ | ⟨-, hin⟩
      · exact h.ptr_eq k x hx
      · exact h.ptr_eq k y hin
    · intro u k y hk hy
      obtain ⟨hu, hold⟩ := hslot u k hk
      rcases loops_modifyLoop hy with ⟨rfl, z, hz, rfl⟩ | ⟨-, hin⟩
      · -- the loop that returns is registered in no other thread
        obtain ⟨w, hw, hwu⟩ := h.registered u k hold
        rw [hx] at hw
        cases hw
        exact absurd (hwu.symm.trans hxt) hu
      · exact h.fresh u k y hold hin
  exact hinv.setCalls fun c hc => exists_modifyLoop (fun _ => rfl) (h.call_tail hcalls c hc)

theorem Inv.returns_breaks (h : Inv s) {cs : List (ι × LoopCall)}
    (hcalls : s.calls t = (l, .onQuit) :: cs) (hother : ¬ s.NoOther t l) :
    ¬ Consistent (s.returns t) := by
  rw [returns_eq hcalls]
  intro hc
  rw [NoOther] at hother
  push Not at hother
  obtain ⟨k, hk, hne⟩ := hother
  obtain ⟨y, hy, hyt⟩ := h.registered t k hk
  have hfound := hc.found k y
    (by simpa [LoopRegistry.setCalls, setSlot, LoopRegistry.modifyLoop, setLoop, hne] using hy)
    (h.fresh t k y hk hy)
  rw [hyt] at hfound
  simp [LoopRegistry.setCalls, setSlot] at hfound

/-- The checks of `moveToCurrentThread` let the loop through. -/
structure MayMove (s : LoopRegistry τ ι) (t : τ) (x : LoopThread τ) : Prop where
  notRunning : x.isRunning = false
  elsewhere : x.threadId ≠ t
  free : s.tLoopInThisThread t = none

theorem move_eq (hm : MayMove s t x) : s.moveToCurrentThread t l x =
    ((s.setSlot x.threadLocalLoopPtr none).setSlot t (some l)).setLoop l
      (some { x with threadLocalLoopPtr := t, threadId := t, returned := false }) := by
  simp [moveToCurrentThread, hm.notRunning, hm.elsewhere, hm.free]

theorem move_or (s : LoopRegistry τ ι) (t : τ) (l : ι) (x : LoopThread τ) :
    MayMove s t x ∨ s.moveToCurrentThread t l x = s.exit ∨ s.moveToCurrentThread t l x = s := by
  unfold moveToCurrentThread
  split
  · exact .inr (.inl rfl)
  next hrun =>
    split
    · exact .inr (.inr rfl)
    next hne =>
      cases hslot : s.tLoopInThisThread t with
      | some k => exact .inr (.inl rfl)
      | none => exact .inl ⟨Bool.eq_false_iff.mpr hrun, hne, hslot⟩

/-- The slots after a move. -/
theorem slot_move (hm : MayMove s t x) (u : τ) :
    (s.moveToCurrentThread t l x).tLoopInThisThread u =
      if u = t then some l
      else if u = x.threadLocalLoopPtr then none else s.tLoopInThisThread u := by
  rw [move_eq hm]
  simp only [setLoop, setSlot, Function.update_apply]

theorem loops_move (hm : MayMove s t x) (k : ι) :
    (s.moveToCurrentThread t l x).loops k =
      if k = l then some { x with threadLocalLoopPtr := t, threadId := t, returned := false }
      else s.loops k := by
  rw [move_eq hm]
  simp only [setLoop, setSlot, Function.update_apply]

theorem calls_move (hm : MayMove s t x) : (s.moveToCurrentThread t l x).calls = s.calls := by
  rw [move_eq hm]
  rfl

theorem Inv.move (h : Inv s) (hx : s.loops l = some x) (hm : MayMove s t x)
    (hout : s.OutOf x.threadId l) (hother : s.NoOther x.threadLocalLoopPtr l) :
    Inv (s.moveToCurrentThread t l x) := by
  have hptr := h.ptr_eq l x hx
  rw [hptr] at hother
  refine ⟨⟨?_, ?_, ?_⟩, ?_, ?_⟩
  · -- a slot holds the loop that has moved, or one that was there and is not the moved one
    intro u k hk
    rw [slot_move hm] at hk
    split at hk
    next hu =>
      cases hk
      exact ⟨_, by rw [loops_move hm, if_pos rfl], hu.symm⟩
    next hu =>
      split at hk
      · cases hk
      next hold =>
        obtain ⟨y, hy, hyu⟩ := h.registered u k hk
        have hne : k ≠ l := by
          rintro rfl
          rw [hx] at hy
          cases hy
          exact hold (hyu.symm.trans hptr.symm)
        exact ⟨y, by rw [loops_move hm, if_neg hne]; exact hy, hyu⟩
  · -- a loop that has not returned is found in its slot, the moved one in its new one
    intro k y hy hret
    rw [loops_move hm] at hy
    rw [slot_move hm]
    split at hy
    next hk =>
      cases hy
      rw [if_pos rfl, hk]
    next hne =>
      have hin := h.found k y hy hret
      have hu : y.threadId ≠ t := by
        intro hu
        rw [hu, hm.free] at hin
        cases hin
      have hold : y.threadId ≠ x.threadLocalLoopPtr := by
        intro hold
        rw [hold, hptr] at hin
        exact hne (hother k hin)
      rw [if_neg hu, if_neg hold]
      exact hin
  · -- no call is in the loop that moves
    intro u c hc
    rw [calls_move hm] at hc
    obtain ⟨y, hy, hyu⟩ := h.inThread u c hc
    have hne : c.1 ≠ l := by
      intro hcl
      rw [hcl, hx] at hy
      cases hy
      rw [← hyu] at hc
      exact hout c hc hcl
    exact ⟨y, by rw [loops_move hm, if_neg hne]; exact hy, hyu⟩
  · intro k y hy
    rw [loops_move hm] at hy
    split at hy
    · cases hy
      rfl
    · exact h.ptr_eq k y hy
  · intro u k y hk hy
    rw [loops_move hm] at hy
    split at hy
    · cases hy
      rfl
    next hne =>
      rw [slot_move hm] at hk
      split at hk
      · cases hk
        exact absurd rfl hne
      · split at hk
        · cases hk
        · exact h.fresh u k y hk hy

theorem Inv.move_breaks (h : Inv s) (hx : s.loops l = some x) (hm : MayMove s t x)
    (hbad : ¬ (s.OutOf x.threadId l ∧ s.NoOther x.threadLocalLoopPtr l)) :
    ¬ Consistent (s.moveToCurrentThread t l x) := by
  intro hc
  refine hbad ⟨?_, ?_⟩
  · intro c hin hcl
    obtain ⟨y, hy, hyu⟩ := hc.inThread x.threadId c (by rw [calls_move hm]; exact hin)
    rw [hcl, loops_move hm, if_pos rfl] at hy
    cases hy
    exact hm.elsewhere hyu.symm
  · intro k hk
    by_contra hne
    have hptr := h.ptr_eq l x hx
    rw [hptr] at hk
    obtain ⟨y, hy, hyu⟩ := h.registered x.threadId k hk
    have hfound := hc.found k y (by rw [loops_move hm, if_neg hne]; exact hy)
      (h.fresh x.threadId k y hk hy)
    rw [hyu, slot_move hm, if_neg hm.elsewhere, if_pos hptr.symm] at hfound
    cases hfound

omit [DecidableEq τ] in
theorem loops_destroyed (k : ι) :
    (s.setLoop l none).loops k = if k = l then none else s.loops k := by
  simp only [setLoop, Function.update_apply]

omit [DecidableEq τ] in
theorem Inv.destroyed (h : Inv s) (hx : s.loops l = some x) (hout : s.OutOf x.threadId l)
    (hgone : s.tLoopInThisThread x.threadId ≠ some l) : Inv (s.setLoop l none) := by
  -- the other loops are there still
  have hkeep : ∀ u k, (∃ y, s.loops k = some y ∧ y.threadId = u) → (k = l → u ≠ x.threadId) →
      ∃ y, (s.setLoop l none).loops k = some y ∧ y.threadId = u := by
    rintro u k ⟨y, hy, hyu⟩ hother
    have hne : k ≠ l := by
      intro hk
      subst hk
      rw [hx] at hy
      cases hy
      exact hother rfl hyu.symm
    exact ⟨y, by rw [loops_destroyed, if_neg hne]; exact hy, hyu⟩
  have hold : ∀ k y, (s.setLoop l none).loops k = some y → s.loops k = some y := by
    intro k y hy
    rw [loops_destroyed] at hy
    split at hy
    · cases hy
    · exact hy
  refine ⟨⟨?_, fun k y hy => h.found k y (hold k y hy), ?_⟩,
    fun k y hy => h.ptr_eq k y (hold k y hy), fun u k y hk hy => h.fresh u k y hk (hold k y hy)⟩
  · intro u k hk
    refine hkeep u k (h.registered u k hk) ?_
    rintro rfl rfl
    exact hgone hk
  · intro u c hc
    refine hkeep u c.1 (h.inThread u c hc) ?_
    rintro hcl rfl
    exact hout c hc hcl

omit [DecidableEq τ] in
theorem destroyed_breaks
    (hbad : ¬ (s.OutOf x.threadId l ∧ s.tLoopInThisThread x.threadId ≠ some l)) :
    ¬ Consistent (s.setLoop l none) := by
  intro hc
  refine hbad ⟨?_, ?_⟩
  · intro c hin hcl
    obtain ⟨y, hy, -⟩ := hc.inThread x.threadId c hin
    rw [loops_destroyed, if_pos hcl] at hy
    cases hy
  · intro hslot
    obtain ⟨y, hy, -⟩ := hc.registered x.threadId l hslot
    rw [loops_destroyed, if_pos rfl] at hy
    cases hy

/-! ## Every run -/

theorem inv_step (h : Inv s) (op : Op τ ι) (hlegal : Legal s op) : Inv (s.step op) := by
  unfold step
  split
  · exact h
  next hex =>
    have hlegal := hlegal (Bool.eq_false_iff.mpr hex)
    -- three operations ask for something, the rest is for free
    cases op with
    | construct t l =>
      dsimp only
      split
      next hok => exact h.construct (Option.isNone_iff_eq_none.mp hok.2)
      next => exact h
    | loop t l =>
      dsimp only
      split
      next x hx =>
        split
        · exact h.loop hx
        · exact h
      next => exact h
    | clearQuit t => exact h.clearQuit
    | endWhile t threw => exact h.endWhile threw
    | returns t =>
      dsimp only at hlegal ⊢
      cases hcalls : s.calls t with
      | nil =>
        rw [returns, hcalls]
        exact h
      | cons c cs =>
        obtain ⟨l, c⟩ := c
        rw [hcalls] at hlegal
        cases c with
        | onQuit => exact h.returns hcalls (hlegal (l, .onQuit) rfl rfl)
        | entered | dispatching =>
          rw [returns, hcalls]
          exact h
    | unwind t => exact h.unwind
    | quit l => exact h.quit
    | moveToCurrentThread t l =>
      dsimp only at hlegal ⊢
      split
      next x hx =>
        split
        next huser =>
          rcases move_or s t l x with hm | heq | heq
          · obtain ⟨hout, hother⟩ :=
              hlegal x hx huser hm.notRunning hm.elsewhere hm.free
            exact h.move hx hm hout hother
          · rw [heq]
            exact h.exit
          · rw [heq]
            exact h
        next => exact h
      next => exact h
    | destroy l =>
      dsimp only at hlegal ⊢
      split
      next x hx =>
        unfold destroy
        split
        · exact h.quit
        next hloop =>
          obtain ⟨hout, hgone⟩ := hlegal x hx (Bool.eq_false_iff.mpr hloop)
          exact h.destroyed hx hout hgone
      next => exact h

/-- What is not `Legal` shows at once. -/
theorem step_breaks (h : Inv s) (op : Op τ ι) (hlegal : ¬ Legal s op) :
    ¬ Consistent (s.step op) := by
  obtain ⟨hex, hlegal⟩ := Classical.not_imp.mp hlegal
  unfold step
  rw [if_neg (by rw [hex]; exact Bool.false_ne_true)]
  cases op with
  | returns t =>
    dsimp only at hlegal ⊢
    push Not at hlegal
    obtain ⟨⟨l, c⟩, hc, rfl, hother⟩ := hlegal
    obtain ⟨cs, hcalls⟩ := List.head?_eq_some_iff.mp hc
    exact h.returns_breaks hcalls hother
  | moveToCurrentThread t l =>
    dsimp only at hlegal ⊢
    push Not at hlegal
    obtain ⟨x, hx, huser, hrun, hne, hfree, hbad⟩ := hlegal
    rw [hx]
    dsimp only
    rw [if_pos huser]
    refine h.move_breaks hx ⟨hrun, hne, hfree⟩ ?_
    rintro ⟨hout, hother⟩
    exact hbad hout hother
  | destroy l =>
    -- the slot would keep a loop that is no more
    dsimp only at hlegal ⊢
    push Not at hlegal
    obtain ⟨x, hx, hloop, hbad⟩ := hlegal
    rw [hx]
    dsimp only [destroy]
    rw [if_neg (by rw [hloop]; exact Bool.false_ne_true)]
    refine destroyed_breaks (x := x) ?_
    rintro ⟨hout, hgone⟩
    exact hgone (hbad hout)
  | construct | loop | clearQuit | endWhile | unwind | quit => exact absurd trivial hlegal

/-- **One loop a thread**: along every run of the loops and the threads of a process, the loop
that a thread has is a live one of that thread, each loop is found in its thread until `loop()`
has returned, and `loop()` runs in the thread of its loop, exactly when every step is `Legal`. -/
theorem always_consistent_iff (ops : List (Op τ ι)) :
    Runs.Always step Consistent start ops ↔ Runs.Along step Legal start ops :=
  Runs.always_iff_along (I := Inv) (H := fun _ _ => True) (fun _ h => h.toConsistent)
    (fun _ op h _ hlegal => inv_step h op hlegal) (fun _ op h _ hlegal => step_breaks h op hlegal)
    inv_start (Runs.along_of_forall (fun _ _ => trivial) _ _)

-- `isRunning` is false from `quit()` on, but thread 0 is still in `loop()` when 1 takes its loop
example : ¬ Runs.Along step Legal (start : LoopRegistry Nat Nat)
    [.construct 0 7, .loop 0 7, .clearQuit 0, .quit 7, .moveToCurrentThread 1 7] := by
  rintro ⟨-, -, -, -, hmove, -⟩
  have hout := (hmove rfl _ rfl (by decide) rfl (by decide) rfl).1
  exact hout (7, .dispatching) (by decide) rfl

end LoopRegistry

end XiaoNet
