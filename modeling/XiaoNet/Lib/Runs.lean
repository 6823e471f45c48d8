import Mathlib.Data.List.Basic

/-!
# Runs of a machine

A machine is a total step function `step : σ → α → σ`; a run is a list of
inputs. `Always P` says that every state the run visits satisfies `P`,
`Along G` that every step of the run is taken from a state and with an input
that satisfy `G`. The rules below turn one-step facts into facts about whole
runs:

- `always_of_along`: an invariant kept by the steps that meet a guard holds
  along every run whose steps all meet it;
- `always_iff_along`: when, in addition, a step that misses the guard leaves
  the property behind, the property holds along the run exactly when every
  step meets the guard.
-/

namespace Runs

universe u v

variable {σ : Type u} {α : Type v}

/-- The state a run ends in. -/
def run (step : σ → α → σ) (s : σ) (as : List α) : σ :=
  as.foldl step s

/-- Every state visited by the run, the first and the last included, satisfies `P`. -/
def Always (step : σ → α → σ) (P : σ → Prop) : σ → List α → Prop
  | s, [] => P s
  | s, a :: as => P s ∧ Always step P (step s a) as

/-- Every step of the run starts in a state and has an input that satisfy `G`. -/
def Along (step : σ → α → σ) (G : σ → α → Prop) : σ → List α → Prop
  | _, [] => True
  | s, a :: as => G s a ∧ Along step G (step s a) as

variable {step : σ → α → σ} {P I : σ → Prop} {G H : σ → α → Prop}

instance Always.decidable [DecidablePred P] (s : σ) :
    (as : List α) → Decidable (Always step P s as)
  | [] => inferInstanceAs (Decidable (P s))
  | a :: as =>
    have := Always.decidable (step s a) as
    inferInstanceAs (Decidable (_ ∧ _))

instance Along.decidable [∀ s a, Decidable (G s a)] (s : σ) :
    (as : List α) → Decidable (Along step G s as)
  | [] => .isTrue trivial
  | a :: as =>
    have := Along.decidable (step s a) as
    inferInstanceAs (Decidable (_ ∧ _))

@[simp] theorem run_nil (s : σ) : run step s [] = s := rfl

@[simp] theorem run_cons (s : σ) (a : α) (as : List α) :
    run step s (a :: as) = run step (step s a) as := rfl

theorem run_append (s : σ) (as bs : List α) :
    run step s (as ++ bs) = run step (run step s as) bs :=
  List.foldl_append

theorem Always.head {s : σ} {as : List α} (h : Always step P s as) : P s := by
  cases as with
  | nil => exact h
  | cons a as => exact h.1

/-- What holds of every state visited holds of the last one. -/
theorem Always.last {s : σ} {as : List α} (h : Always step P s as) :
    P (run step s as) := by
  induction as generalizing s with
  | nil => exact h
  | cons a as ih => exact ih h.2

theorem Always.mono {Q : σ → Prop} (hPQ : ∀ s, P s → Q s) {s : σ} {as : List α}
    (h : Always step P s as) : Always step Q s as := by
  induction as generalizing s with
  | nil => exact hPQ s h
  | cons a as ih => exact ⟨hPQ s h.1, ih h.2⟩

theorem along_append {s : σ} {as bs : List α} :
    Along step G s (as ++ bs) ↔ Along step G s as ∧ Along step G (run step s as) bs := by
  induction as generalizing s with
  | nil =>
    constructor
    · intro h
      exact ⟨trivial, h⟩
    · rintro ⟨-, h⟩
      exact h
  | cons a as ih =>
    constructor
    · rintro ⟨ha, hrest⟩
      obtain ⟨h₁, h₂⟩ := ih.mp hrest
      exact ⟨⟨ha, h₁⟩, h₂⟩
    · rintro ⟨⟨ha, h₁⟩, h₂⟩
      exact ⟨ha, ih.mpr ⟨h₁, h₂⟩⟩

theorem Along.and {s : σ} {as : List α} (hG : Along step G s as)
    (hH : Along step H s as) : Along step (fun s a => G s a ∧ H s a) s as := by
  induction as generalizing s with
  | nil => trivial
  | cons a as ih => exact ⟨⟨hG.1, hH.1⟩, ih hG.2 hH.2⟩

theorem along_congr {s : σ} {as : List α}
    (h : Along step (fun s a => G s a ↔ H s a) s as) : Along step G s as ↔ Along step H s as := by
  induction as generalizing s with
  | nil => exact Iff.rfl
  | cons a as ih => exact and_congr h.1 (ih h.2)

theorem along_of_forall (h : ∀ s a, G s a) (s : σ) (as : List α) :
    Along step G s as := by
  induction as generalizing s with
  | nil => trivial
  | cons a as ih => exact ⟨h s a, ih _⟩

/-- A guard that only looks at the input holds along a run when it holds of
every input. -/
theorem along_of_mem {p : α → Prop} {as : List α} (h : ∀ a ∈ as, p a) (s : σ) :
    Along step (fun _ a => p a) s as := by
  induction as generalizing s with
  | nil => trivial
  | cons a as ih =>
    exact ⟨h a List.mem_cons_self, ih (fun b hb => h b (List.mem_cons_of_mem a hb)) _⟩

theorem mem_of_along {p : α → Prop} {s : σ} {as : List α}
    (h : Along step (fun _ a => p a) s as) : ∀ a ∈ as, p a := by
  induction as generalizing s with
  | nil => exact fun a ha => absurd ha List.not_mem_nil
  | cons b as ih =>
    intro a ha
    rcases List.mem_cons.mp ha with rfl | hin
    · exact h.1
    · exact ih h.2 a hin

/-- **Guarded invariant**: kept by every step that meets the guard, hence true
of every state of a run whose steps all meet it. -/
theorem always_of_along (hstep : ∀ s a, I s → G s a → I (step s a)) {s : σ}
    (hs : I s) {as : List α} (hG : Along step G s as) : Always step I s as := by
  induction as generalizing s with
  | nil => exact hs
  | cons a as ih => exact ⟨hs, ih (hstep s a hs hG.1) hG.2⟩

/-- **Invariant**: kept by every step, hence true of every state of every run. -/
theorem always_of_step (hstep : ∀ s a, I s → I (step s a)) {s : σ} (hs : I s)
    (as : List α) : Always step I s as :=
  always_of_along (G := fun _ _ => True) (fun s a h _ => hstep s a h) hs
    (along_of_forall (fun _ _ => trivial) s as)

/-- What an invariant gives for one step holds of every step of a run. -/
theorem along_of_invariant (hkeep : ∀ s a, I s → H s a → I (step s a))
    (hG : ∀ s a, I s → H s a → G s a) {s : σ} (hs : I s) {as : List α}
    (hH : Along step H s as) : Along step G s as := by
  induction as generalizing s with
  | nil => trivial
  | cons a as ih => exact ⟨hG s a hs hH.1, ih (hkeep s a hs hH.1) hH.2⟩

/-- **Exact guard**: under the side conditions `H`, the steps that meet `G`
keep the invariant and a step that misses `G` ends outside `P`; then `P` holds
along a run exactly when all its steps meet `G`. -/
theorem always_iff_along (hP : ∀ s, I s → P s)
    (hkeep : ∀ s a, I s → H s a → G s a → I (step s a))
    (hbreak : ∀ s a, I s → H s a → ¬ G s a → ¬ P (step s a)) {s : σ} (hs : I s)
    {as : List α} (hH : Along step H s as) :
    Always step P s as ↔ Along step G s as := by
  induction as generalizing s with
  | nil => exact iff_of_true (hP s hs) trivial
  | cons a as ih =>
    constructor
    · rintro ⟨-, hrest⟩
      have hG : G s a := by
        by_contra hn
        exact hbreak s a hs hH.1 hn hrest.head
      exact ⟨hG, (ih (hkeep s a hs hH.1 hG) hH.2).mp hrest⟩
    · rintro ⟨hG, hrest⟩
      exact ⟨hP s hs, (ih (hkeep s a hs hH.1 hG) hH.2).mpr hrest⟩

/-- **Exact guard, step by step**: while the invariant holds, a step satisfies `G`
exactly when it satisfies `H`, and a step that does keeps the invariant; then all steps
of a run satisfy the one exactly when all satisfy the other. -/
theorem along_iff_along (hkeep : ∀ s a, I s → H s a → I (step s a))
    (hiff : ∀ s a, I s → (G s a ↔ H s a)) {s : σ} (hs : I s) (as : List α) :
    Along step G s as ↔ Along step H s as := by
  induction as generalizing s with
  | nil => exact Iff.rfl
  | cons a as ih =>
    constructor
    · rintro ⟨ha, hrest⟩
      have hH := (hiff s a hs).mp ha
      exact ⟨hH, (ih (hkeep s a hs hH)).mp hrest⟩
    · rintro ⟨ha, hrest⟩
      exact ⟨(hiff s a hs).mpr ha, (ih (hkeep s a hs ha)).mpr hrest⟩

/-- **Exact guard, at the end**: the steps that meet `G` keep the invariant, and a step that
misses it leaves what no later step puts right. The end of a run shows whether all its steps
met `G`. -/
theorem along_or_broken {B : σ → Prop} (hkeep : ∀ s a, I s → G s a → I (step s a))
    (hbreak : ∀ s a, I s → ¬ G s a → B (step s a)) (hbroken : ∀ s a, B s → B (step s a)) {s : σ}
    (hs : I s) (as : List α) :
    (Along step G s as ∧ I (run step s as)) ∨ (¬ Along step G s as ∧ B (run step s as)) := by
  induction as generalizing s with
  | nil => exact .inl ⟨trivial, hs⟩
  | cons a as ih =>
    by_cases hG : G s a
    · obtain ⟨hrest, hI⟩ | ⟨hrest, hB⟩ := ih (hkeep s a hs hG)
      · exact .inl ⟨⟨hG, hrest⟩, hI⟩
      · exact .inr ⟨fun h => hrest h.2, hB⟩
    · exact .inr ⟨fun h => hG h.1, (always_of_step hbroken (hbreak s a hs hG) as).last⟩

/-- **Simulation**: a relation kept by the steps that meet the guard relates the
ends of the two runs. -/
theorem simulation_of_along {τ : Type u} {step' : τ → α → τ} {R : σ → τ → Prop}
    (hstep : ∀ s t a, R s t → G s a → R (step s a) (step' t a)) {s : σ} {t : τ}
    (hR : R s t) {as : List α} (hG : Along step G s as) :
    R (run step s as) (run step' t as) := by
  induction as generalizing s t with
  | nil => exact hR
  | cons a as ih => exact ih (hstep s t a hR hG.1) hG.2

end Runs
