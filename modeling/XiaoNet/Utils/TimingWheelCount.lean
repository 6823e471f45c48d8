import Mathlib.Order.Bounds.Defs
import Mathlib.Algebra.Order.Ring.Nat
import XiaoNet.Utils.TimingWheel

/-!
# The number of wheels

The loop of the constructor multiplies `ticksNum` by `bucketsNumPerWheel` until it reaches
`maxTickNum`, so that after `n` rounds it holds the power `n` of `bucketsNumPerWheel` modulo
`2 ^ 64`.

- `leaves_iff`: the loop leaves the least count whose power reaches `maxTickNum` modulo
  `2 ^ 64`, and does not end when there is none.
- `leaves_least_iff`: it leaves the least count whose power reaches `maxTickNum` exactly when
  that power still does modulo `2 ^ 64`.
-/

namespace XiaoNet

namespace TimingWheel

/-- The loop ends and leaves `wheelsNum = n`. -/
def Leaves (maxTickNum bucketsNumPerWheel n : Nat) : Prop :=
  ∃ fuel, wheelsNumLoop maxTickNum bucketsNumPerWheel fuel bucketsNumPerWheel 1 = some n

/-- The counts whose power reaches `maxTickNum` in `size_t` arithmetic. -/
def ReachesMod (maxTickNum B : Nat) : Set Nat := {n | 1 ≤ n ∧ maxTickNum ≤ B ^ n % sizeMod}

/-- The counts that are sufficient. -/
def Sufficient (maxTickNum B : Nat) : Set Nat := {n | 1 ≤ n ∧ maxTickNum ≤ B ^ n}

variable {maxTickNum B : Nat}

theorem mulSize_pow (n : Nat) : mulSize (B ^ n % sizeMod) B = B ^ (n + 1) % sizeMod := by
  rw [mulSize, Nat.mod_mul_mod, Nat.pow_succ]

/-- The loop from the `n`-th round on. -/
theorem wheelsNumLoop_pow (fuel n : Nat) :
    wheelsNumLoop maxTickNum B (fuel + 1) (B ^ n % sizeMod) n =
      if maxTickNum > B ^ n % sizeMod then
        wheelsNumLoop maxTickNum B fuel (B ^ (n + 1) % sizeMod) (n + 1)
      else some n := by
  rw [wheelsNumLoop, mulSize_pow]

/-- Where the loop stops it has passed only powers that do not reach. -/
theorem wheelsNumLoop_sound {fuel n m : Nat}
    (h : wheelsNumLoop maxTickNum B fuel (B ^ n % sizeMod) n = some m) :
    n ≤ m ∧ maxTickNum ≤ B ^ m % sizeMod ∧ ∀ k, n ≤ k → maxTickNum ≤ B ^ k % sizeMod → m ≤ k := by
  induction fuel generalizing n with
  | zero => cases h
  | succ fuel ih =>
    rw [wheelsNumLoop_pow] at h
    by_cases hgo : maxTickNum > B ^ n % sizeMod
    · rw [if_pos hgo] at h
      obtain ⟨hle, hreach, hleast⟩ := ih h
      refine ⟨Nat.le_of_succ_le hle, hreach, fun k hk hkreach => hleast k ?_ hkreach⟩
      -- the power `n` does not reach
      rcases Nat.lt_or_eq_of_le hk with hlt | rfl
      · exact hlt
      · exact absurd hkreach (Nat.not_le.mpr hgo)
    · rw [if_neg hgo] at h
      cases h
      exact ⟨Nat.le_refl _, Nat.not_lt.mp hgo, fun k hk _ => hk⟩

/-- As many rounds as there are powers before one that reaches are enough. -/
theorem wheelsNumLoop_complete {m : Nat} (hreach : maxTickNum ≤ B ^ m % sizeMod) (fuel : Nat)
    {n : Nat} (hm : m = n + fuel) :
    ∃ m', wheelsNumLoop maxTickNum B (fuel + 1) (B ^ n % sizeMod) n = some m' := by
  induction fuel generalizing n with
  | zero =>
    obtain rfl : m = n := hm
    exact ⟨m, by rw [wheelsNumLoop_pow, if_neg (Nat.not_lt.mpr hreach)]⟩
  | succ fuel ih =>
    rw [wheelsNumLoop_pow]
    by_cases hgo : maxTickNum > B ^ n % sizeMod
    · rw [if_pos hgo]
      exact ih (by omega)
    · exact ⟨n, if_neg hgo⟩

/-- **The loop**: it leaves the least count whose power reaches `maxTickNum` modulo `2 ^ 64`. -/
theorem leaves_iff (hsize : B < sizeMod) (n : Nat) :
    Leaves maxTickNum B n ↔ IsLeast (ReachesMod maxTickNum B) n := by
  have hstart : B ^ 1 % sizeMod = B := by rw [Nat.pow_one, Nat.mod_eq_of_lt hsize]
  constructor
  · rintro ⟨fuel, h⟩
    have hrun : wheelsNumLoop maxTickNum B fuel (B ^ 1 % sizeMod) 1 = some n := by
      rw [hstart]
      exact h
    obtain ⟨hpos, hreach, hleast⟩ := wheelsNumLoop_sound hrun
    exact ⟨⟨hpos, hreach⟩, fun k hk => hleast k hk.1 hk.2⟩
  · rintro ⟨⟨hpos, hreach⟩, hleast⟩
    obtain ⟨m, hm⟩ := wheelsNumLoop_complete hreach (n - 1) (show n = 1 + (n - 1) by omega)
    obtain ⟨hpos', hreach', hleast'⟩ := wheelsNumLoop_sound hm
    obtain rfl : m = n := Nat.le_antisymm (hleast' n hpos hreach) (hleast ⟨hpos', hreach'⟩)
    rw [hstart] at hm
    exact ⟨_, hm⟩

/-- When the last product overflows, what is left of it reaches `maxTickNum` all the same. -/
def LastProductReaches (maxTickNum B : Nat) : Prop :=
  ∀ n, 0 < n → B ^ n < maxTickNum → maxTickNum ≤ B ^ (n + 1) →
    maxTickNum ≤ B ^ (n + 1) % sizeMod

/-- A power of a number above 1 reaches any bound. -/
theorem exists_isLeast_sufficient (maxTickNum : Nat) (hB : 1 < B) :
    ∃ n, IsLeast (Sufficient maxTickNum B) n := by
  have hex : ∃ n, 1 ≤ n ∧ maxTickNum ≤ B ^ n :=
    ⟨maxTickNum + 1, Nat.le_add_left _ _, (Nat.lt_of_succ_lt (Nat.lt_pow_self hB)).le⟩
  classical
  exact ⟨Nat.find hex, Nat.find_spec hex, fun k hk => Nat.find_le hk⟩

/-- **The count, exactly**: for every number of ticks and of buckets of a `size_t`, the loop
ends and leaves the least sufficient count if and only if the power of that count, taken
modulo `2 ^ 64`, is still sufficient; in particular when it is smaller than `2 ^ 64`. -/
theorem leaves_least_iff (hmax : maxTickNum < sizeMod) (hB : 1 < B) (hsize : B < sizeMod) :
    (∃ n, Leaves maxTickNum B n ∧ IsLeast (Sufficient maxTickNum B) n) ↔
      LastProductReaches maxTickNum B := by
  constructor
  · rintro ⟨n, hleaves, ⟨hpos, hreach⟩, hleast⟩ k hk hbelow habove
    obtain rfl : n = k + 1 := by
      have hle : n ≤ k + 1 := hleast ⟨Nat.succ_pos k, habove⟩
      have hlt : B ^ k < B ^ n := Nat.lt_of_lt_of_le hbelow hreach
      have hgt : k < n := (Nat.pow_lt_pow_iff_right hB).mp hlt
      omega
    exact ((leaves_iff hsize _).mp hleaves).1.2
  · intro hlast
    obtain ⟨n, ⟨hpos, hreach⟩, hleast⟩ := exists_isLeast_sufficient maxTickNum hB
    -- the powers before it are smaller than `maxTickNum`, so they are what the loop computes
    have hbelow : ∀ k, 1 ≤ k → k < n → B ^ k < maxTickNum := by
      intro k hk hkn
      by_contra hge
      exact absurd (hleast ⟨hk, Nat.not_lt.mp hge⟩) (Nat.not_le.mpr hkn)
    have hreachMod : maxTickNum ≤ B ^ n % sizeMod := by
      cases n with
      | zero => exact absurd hpos (Nat.not_succ_le_zero 0)
      | succ k =>
        by_cases hk : k = 0
        · subst hk
          rw [Nat.mod_eq_of_lt (by rw [Nat.pow_one]; exact hsize)]
          exact hreach
        · have hkpos : 0 < k := Nat.pos_of_ne_zero hk
          exact hlast k hkpos (hbelow k hkpos (Nat.lt_succ_self k)) hreach
    refine ⟨n, (leaves_iff hsize n).mpr ⟨⟨hpos, hreachMod⟩, ?_⟩, ⟨hpos, hreach⟩, hleast⟩
    rintro k ⟨hk, hkreach⟩
    by_contra hlt
    have hpow := hbelow k hk (Nat.not_le.mp hlt)
    rw [Nat.mod_eq_of_lt (Nat.lt_trans hpow hmax)] at hkreach
    exact absurd hpow (Nat.not_lt.mpr hkreach)

/-- An hour of ticks and a hundred buckets: two wheels. -/
theorem leaves_least_hour :
    ∃ n, Leaves 3600 100 n ∧ IsLeast (Sufficient 3600 100) n := by
  refine (leaves_least_iff (by decide) (by decide) (by decide)).mpr ?_
  intro n hpos hbelow _
  have hlt : n < 2 := (Nat.pow_lt_pow_iff_right (show 1 < 100 by decide)).mp
    (Nat.lt_trans hbelow (by decide))
  obtain rfl : n = 1 := by omega
  decide

/-- With `2 ^ 32` buckets and `2 ^ 33` ticks two wheels are sufficient, but the square of the
number of buckets is 0 in `size_t`, and the loop does not end. -/
theorem leaves_never :
    IsLeast (Sufficient (2 ^ 33) (2 ^ 32)) 2 ∧ (∀ n, ¬ Leaves (2 ^ 33) (2 ^ 32) n) ∧
      ¬ ∃ n, Leaves (2 ^ 33) (2 ^ 32) n ∧ IsLeast (Sufficient (2 ^ 33) (2 ^ 32)) n := by
  have hnever : ∀ n, ¬ Leaves (2 ^ 33) (2 ^ 32) n := by
    intro n h
    obtain ⟨hpos, hreach⟩ := ((leaves_iff (by decide) n).mp h).1
    by_cases hone : n = 1
    · subst hone
      exact absurd hreach (by decide)
    · -- a multiple of `2 ^ 64`
      have hpow : ((2 : Nat) ^ 32) ^ n = sizeMod * (2 ^ 32) ^ (n - 2) := by
        rw [show sizeMod = (2 ^ 32) ^ 2 from rfl, ← Nat.pow_add]
        congr 1
        omega
      rw [hpow, Nat.mul_mod_right] at hreach
      exact absurd hreach (by decide)
  refine ⟨⟨⟨by decide, by decide⟩, ?_⟩, hnever, ?_⟩
  · rintro k ⟨hpos, hreach⟩
    by_contra hlt
    obtain rfl : k = 1 := by omega
    exact absurd hreach (by decide)
  · rintro ⟨n, h, -⟩
    exact hnever n h

end TimingWheel

end XiaoNet
