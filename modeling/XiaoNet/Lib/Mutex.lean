import Mathlib.Logic.Basic

/-!
# Mutexes

A mutex says who has it (`holder`); which threads are between getting it and giving it back is
read off the threads themselves (`inside`). `Guards` says that the two agree. The rules are one
for each thing that happens: a thread gets the mutex, gives it back, or goes on.
-/

universe u

/-- The thread that has the mutex is the one inside. -/
def Guards {τ : Type u} (holder : Option τ) (inside : τ → Prop) : Prop :=
  ∀ t, inside t ↔ holder = some t

namespace Guards

variable {τ : Type u} {holder : Option τ} {inside inside' : τ → Prop}

/-- **Mutual exclusion.** -/
theorem exclusive (h : Guards holder inside) {t u : τ} (ht : inside t) (hu : inside u) : t = u :=
  Option.some.inj (((h t).mp ht).symm.trans ((h u).mp hu))

theorem outside (h : Guards none inside) (t : τ) : ¬ inside t := by
  intro ht
  cases (h t).mp ht

theorem congr (h : Guards holder inside) (hsame : ∀ t, inside' t ↔ inside t) :
    Guards holder inside' :=
  fun t => (hsame t).trans (h t)

/-- A thread gets the free mutex. -/
theorem acquire (h : Guards none inside) {p : τ} (hp : inside' p)
    (hothers : ∀ t, t ≠ p → (inside' t ↔ inside t)) : Guards (some p) inside' := by
  intro t
  by_cases ht : t = p
  · subst ht
    exact iff_of_true hp rfl
  · refine iff_of_false ?_ (fun heq => ht (Option.some.inj heq).symm)
    rw [hothers t ht]
    exact h.outside t

/-- The thread inside gives the mutex back. -/
theorem release (h : Guards holder inside) {p : τ} (hp : inside p) (hout : ¬ inside' p)
    (hothers : ∀ t, t ≠ p → (inside' t ↔ inside t)) : Guards none inside' := by
  intro t
  constructor
  · intro hin
    by_cases ht : t = p
    · subst ht
      exact absurd hin hout
    · rw [hothers t ht] at hin
      exact absurd (h.exclusive hin hp) ht
  · intro heq
    cases heq

end Guards
