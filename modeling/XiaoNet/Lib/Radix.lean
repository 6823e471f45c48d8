import Mathlib.Algebra.BigOperators.Intervals
import Mathlib.Algebra.Order.BigOperators.Group.Finset

/-!
# Counting in nested periods

A counter of base `B` drives nested periods: the period of level `i` ends every
`B ^ i` steps. A delay `d` counted from step `t` of one level becomes the delay
`(d + t % B - 1) / B` counted from step `t / B` of the next level, and the rest
`(d + t % B - 1) % B` is what is left to wait in the lower level.

- `handDown`: the two together make up the delay.
- `rest_pos`, `rest_le`: the bounds a delay passes on to the next level.
- `repunit`: the sum `1 + B + … + B ^ (L - 1)`. When every level below is at the
  start of a period, `aligned_step` compares a delay with these sums.
-/

namespace Radix

variable {B d t m : Nat}

/-- The end of a delay, found by way of the next level. -/
theorem handDown (hd : 0 < d) :
    (t / B + (d + t % B - 1) / B) * B + (d + t % B - 1) % B + 1 = t + d := by
  have ht := Nat.div_add_mod t B
  have hr := Nat.div_add_mod (d + t % B - 1) B
  rw [Nat.add_mul, Nat.mul_comm (t / B), Nat.mul_comm (_ / B)]
  omega

theorem rest_pos (hB : 0 < B) (hd : B < d) : 0 < (d + t % B - 1) / B :=
  Nat.div_pos (by omega) hB

theorem rest_le (hB : 0 < B) (hd : d ≤ B ^ (m + 1) + 1) : (d + t % B - 1) / B ≤ B ^ m := by
  have hmod := Nat.mod_lt t hB
  rw [Nat.pow_succ] at hd
  rw [← Nat.lt_succ_iff, Nat.div_lt_iff_lt_mul hB, Nat.succ_mul]
  omega

/-- `1 + B + … + B ^ (L - 1)`. -/
def repunit (B L : Nat) : Nat := ∑ j ∈ Finset.range L, B ^ j

@[simp] theorem repunit_zero : repunit B 0 = 0 := rfl

theorem repunit_succ (B L : Nat) : repunit B (L + 1) = repunit B L + B ^ L :=
  Finset.sum_range_succ _ _

theorem repunit_one : repunit B 1 = 1 := by
  rw [repunit_succ, repunit_zero, Nat.pow_zero]

theorem repunit_mono {L M : Nat} (h : L ≤ M) : repunit B L ≤ repunit B M :=
  Finset.sum_le_sum_of_subset (Finset.range_mono h)

/-- Comparing a delay `d` of level `i`, which starts a period, with the delay it
passes on. -/
theorem aligned_step {D i : Nat} (hB : 0 < B) (hd : 0 < d) (ht : t % B = 0)
    (h : B ^ i * d + repunit B i ≤ D ∧ D < B ^ i * d + repunit B (i + 1)) :
    B ^ (i + 1) * ((d + t % B - 1) / B) + repunit B (i + 1) ≤ D ∧
      D < B ^ (i + 1) * ((d + t % B - 1) / B) + repunit B (i + 2) := by
  rw [ht, Nat.add_zero]
  have hr := Nat.div_add_mod (d - 1) B
  have hlt := Nat.mod_lt (d - 1) hB
  generalize (d - 1) / B = q at hr ⊢
  have hlow : B ^ i * (B * q + 1) ≤ B ^ i * d := Nat.mul_le_mul_left _ (by omega)
  have hhigh : B ^ i * d ≤ B ^ i * (B * q + B) := Nat.mul_le_mul_left _ (by omega)
  rw [Nat.mul_add, ← Nat.mul_assoc, ← pow_succ] at hlow hhigh
  rw [Nat.mul_one] at hlow
  rw [repunit_succ B (i + 1)]
  have hsum := repunit_succ B i
  omega

end Radix
