import Mathlib.Data.Fintype.Card
import Mathlib.Algebra.BigOperators.Group.Finset.Piecewise

/-!
# Counting agents

`census p f` is the number of agents in a state that satisfies `p`, when `f` gives the state of
each. When one agent changes its state, the count changes by what that agent was and becomes
(`census_update`).
-/

universe u v

variable {α : Type u} {β : Type v} [Fintype α]

/-- How many agents are in a state that satisfies `p`. -/
def census (p : β → Bool) (f : α → β) : Nat := (Finset.univ.filter fun a => p (f a) = true).card

variable {p : β → Bool} {f : α → β}

theorem census_eq_sum (p : β → Bool) (f : α → β) :
    census p f = ∑ a, if p (f a) = true then 1 else 0 :=
  Finset.card_filter _ _

theorem census_mono {g : α → β} (h : ∀ a, p (f a) = true → p (g a) = true) :
    census p f ≤ census p g := by
  refine Finset.card_le_card fun a ha => ?_
  rw [Finset.mem_filter] at ha ⊢
  exact ⟨ha.1, h a ha.2⟩

variable [DecidableEq α]

/-- **One agent changes**: it leaves the count it was in and enters the one it comes to. -/
theorem census_update (p : β → Bool) (f : α → β) (a : α) (b : β) :
    census p (Function.update f a b) + (if p (f a) = true then 1 else 0) =
      census p f + (if p b = true then 1 else 0) := by
  have hrest : ∀ x ∈ Finset.univ.erase a, (if p (Function.update f a b x) = true then 1 else 0) =
      (if p (f x) = true then 1 else 0) := by
    intro x hx
    rw [Function.update_of_ne (Finset.ne_of_mem_erase hx)]
  have hnew := Finset.sum_erase_add Finset.univ
    (fun x => if p (Function.update f a b x) = true then 1 else 0) (Finset.mem_univ a)
  have hold := Finset.sum_erase_add Finset.univ
    (fun x => if p (f x) = true then 1 else 0) (Finset.mem_univ a)
  rw [Finset.sum_congr rfl hrest] at hnew
  rw [Function.update_self] at hnew
  rw [census_eq_sum, census_eq_sum]
  omega

theorem census_enter {a : α} {b : β} (ha : p (f a) = false) (hb : p b = true) :
    census p (Function.update f a b) = census p f + 1 := by
  have h := census_update p f a b
  simpa [ha, hb] using h
