import Mathlib.Tactic.NormNum

/-!
# `size_t` and `int` arithmetic

Sizes are natural numbers below `2 ^ 64`; the sums, differences and products of
the source are taken modulo `2 ^ 64`, and a conversion to `int` keeps the low 32
bits as a two's complement number. Each operation comes with the lemma that
says when it is the plain one.
-/

namespace XiaoNet

/-- One more than the largest `size_t`. -/
def sizeMod : Nat := 2 ^ 64

/-- `a + b` in `size_t`. -/
def addSize (a b : Nat) : Nat := (a + b) % sizeMod

/-- `a - b` in `size_t`. -/
def subSize (a b : Nat) : Nat := (a + (sizeMod - b % sizeMod)) % sizeMod

/-- `a * b` in `size_t`. -/
def mulSize (a b : Nat) : Nat := a * b % sizeMod

/-- `static_cast<int>(n)`. -/
def toInt32 (n : Nat) : Int := Int.bmod n (2 ^ 32)

/-- An `int` used as a `size_t`. -/
def intToSize (i : Int) : Nat := (i % (sizeMod : Int)).toNat

theorem addSize_eq {a b : Nat} (h : a + b < sizeMod) : addSize a b = a + b :=
  Nat.mod_eq_of_lt h

/-- A sum that wraps once. -/
theorem addSize_wrap {a b : Nat} (h : sizeMod ≤ a + b) (hlt : a + b < sizeMod + sizeMod) :
    addSize a b = a + b - sizeMod := by
  rw [addSize, Nat.mod_eq_sub_mod h, Nat.mod_eq_of_lt (by omega)]

theorem mulSize_eq {a b : Nat} (h : a * b < sizeMod) : mulSize a b = a * b :=
  Nat.mod_eq_of_lt h

theorem subSize_eq {a b : Nat} (hb : b ≤ a) (ha : a < sizeMod) : subSize a b = a - b := by
  have hmod : b % sizeMod = b := Nat.mod_eq_of_lt (by omega)
  have hsum : a + (sizeMod - b) = (a - b) + sizeMod := by omega
  rw [subSize, hmod, hsum, Nat.add_mod_right, Nat.mod_eq_of_lt (by omega)]

theorem toInt32_eq {n : Nat} (h : n < 2 ^ 31) : toInt32 n = n := by
  unfold toInt32 Int.bmod
  norm_num
  omega

theorem intToSize_natCast {n : Nat} (h : n < sizeMod) : intToSize n = n := by
  have hlt : (n : Int) < (sizeMod : Int) := Int.ofNat_lt.mpr h
  rw [intToSize, Int.emod_eq_of_lt (Int.natCast_nonneg n) hlt, Int.toNat_natCast]

end XiaoNet
