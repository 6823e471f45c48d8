import Mathlib.Algebra.Group.Int.Defs
import Mathlib.Order.Defs.LinearOrder

/-!
# Signed 64-bit numbers

`Int64` as a linear order, and its sums and differences as those of the integers: they are the same
where nothing wraps around, and `2 ^ 64` apart where something does.
-/

namespace Int64

instance instLinearOrder : LinearOrder Int64 where
  le_refl := Int64.le_refl
  le_trans _ _ _ := Int64.le_trans
  le_antisymm _ _ := Int64.le_antisymm
  le_total := Int64.le_total
  lt_iff_le_not_ge a b := by
    rw [Int64.not_le]
    exact ⟨fun h => ⟨Int64.le_of_lt h, h⟩, And.right⟩
  toDecidableLE := Int64.decLe
  toDecidableLT := Int64.decLt
  min_def _ _ := rfl
  max_def _ _ := rfl

variable (a b : Int64)

theorem toInt_bounds : -2 ^ 63 ≤ a.toInt ∧ a.toInt < 2 ^ 63 := ⟨a.le_toInt, a.toInt_lt⟩

variable {a b}

/-- A product that fits. -/
theorem toInt_mul_of_fits (hlower : -2 ^ 63 ≤ a.toInt * b.toInt)
    (hupper : a.toInt * b.toInt < 2 ^ 63) : (a * b).toInt = a.toInt * b.toInt := by
  rw [toInt_mul]
  exact Int.bmod_eq_of_le_mul_two (by omega) (by omega)

/-- A sum that fits. -/
theorem toInt_add_of_fits (hlower : -2 ^ 63 ≤ a.toInt + b.toInt)
    (hupper : a.toInt + b.toInt < 2 ^ 63) : (a + b).toInt = a.toInt + b.toInt := by
  rw [toInt_add]
  exact Int.bmod_eq_of_le_mul_two (by omega) (by omega)

/-- A difference that fits. -/
theorem toInt_sub_of_fits (hlower : -2 ^ 63 ≤ a.toInt - b.toInt)
    (hupper : a.toInt - b.toInt < 2 ^ 63) : (a - b).toInt = a.toInt - b.toInt := by
  rw [toInt_sub]
  exact Int.bmod_eq_of_le_mul_two (by omega) (by omega)

/-- A difference below all numbers comes back as a large one. -/
theorem toInt_sub_of_lt (h : a.toInt - b.toInt < -2 ^ 63) :
    (a - b).toInt = a.toInt - b.toInt + 2 ^ 64 := by
  have ha := a.toInt_bounds
  have hb := b.toInt_bounds
  rw [toInt_sub, ← Int.add_bmod_right]
  exact Int.bmod_eq_of_le_mul_two (by omega) (by omega)

/-- A difference above all numbers comes back as a negative one. -/
theorem toInt_sub_of_ge (h : 2 ^ 63 ≤ a.toInt - b.toInt) : (a - b).toInt < 0 := by
  have ha := a.toInt_bounds
  have hb := b.toInt_bounds
  have hwrapped : (a - b).toInt = a.toInt - b.toInt - 2 ^ 64 := by
    rw [toInt_sub, ← Int.sub_bmod_right]
    exact Int.bmod_eq_of_le_mul_two (by omega) (by omega)
  omega

end Int64
