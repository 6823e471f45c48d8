import Mathlib.Data.List.Basic

/-!
# Blocks of memory

A block is a list of cells. `slice` reads a range of it, `splice` overwrites a
range. The lemmas say what a read sees after a write before, at and behind the
read range, which is all that `memcpy` and `memmove` arguments need.
-/

namespace Block

universe u

variable {α : Type u}

/-- The `n` cells from position `i` on. -/
def slice (l : List α) (i n : Nat) : List α := (l.drop i).take n

/-- The block with the cells from position `i` on replaced by `src`. -/
def splice (l : List α) (i : Nat) (src : List α) : List α :=
  l.take i ++ (src ++ l.drop (i + src.length))

theorem length_slice {l : List α} {i n : Nat} (h : i + n ≤ l.length) :
    (slice l i n).length = n := by
  simp only [slice, List.length_take, List.length_drop]
  omega

@[simp] theorem slice_zero (l : List α) (i : Nat) : slice l i 0 = [] := rfl

theorem length_splice {l : List α} {i : Nat} {src : List α}
    (h : i + src.length ≤ l.length) : (splice l i src).length = l.length := by
  simp only [splice, List.length_append, List.length_take, List.length_drop]
  omega

/-- A range is its first part followed by the rest. -/
theorem slice_add (l : List α) (i n m : Nat) :
    slice l i (n + m) = slice l i n ++ slice l (i + n) m := by
  simp only [slice, List.take_add, List.drop_drop]

theorem take_slice (l : List α) (i n k : Nat) :
    (slice l i n).take k = slice l i (min k n) := by
  simp only [slice, List.take_take]

theorem drop_slice (l : List α) (i n k : Nat) :
    (slice l i n).drop k = slice l (i + k) (n - k) := by
  simp only [slice, List.drop_take, List.drop_drop]

/-- Reading back exactly what was written. -/
theorem slice_splice_self {l : List α} {i : Nat} {src : List α}
    (h : i + src.length ≤ l.length) : slice (splice l i src) i src.length = src := by
  have hi : (l.take i).length = i := by
    rw [List.length_take]
    omega
  simp only [slice, splice, List.drop_left' hi, List.take_left]

/-- A write does not reach a range in front of it. -/
theorem slice_splice_before {l : List α} {i j n : Nat} {src : List α}
    (hj : j + n ≤ i) (h : i ≤ l.length) : slice (splice l i src) j n = slice l j n := by
  have hlen : (l.take i).length = i := by
    rw [List.length_take]
    omega
  simp only [slice, splice]
  rw [List.drop_append_of_le_length (by omega),
    List.take_append_of_le_length (by rw [List.length_drop]; omega),
    List.drop_take, List.take_take, Nat.min_eq_left (by omega)]

/-- A write does not reach a range behind it. -/
theorem slice_splice_after {l : List α} {i j n : Nat} {src : List α}
    (hj : i + src.length ≤ j) (h : i ≤ l.length) :
    slice (splice l i src) j n = slice l j n := by
  have hlen : (l.take i).length = i := by
    rw [List.length_take]
    omega
  have hdrop : (splice l i src).drop j = l.drop j := by
    rw [splice, ← List.append_assoc, List.drop_append, List.drop_eq_nil_of_le
      (by rw [List.length_append, hlen]; exact hj), List.length_append, hlen,
      List.drop_drop, List.nil_append]
    congr 1
    omega
  rw [slice, hdrop, slice]

/-- Writing a range back over itself changes nothing. -/
theorem splice_slice_self {l : List α} {i n : Nat} (h : i + n ≤ l.length) :
    splice l i (slice l i n) = l := by
  have hlen := length_slice h
  rw [splice, hlen, slice, ← List.drop_drop, List.take_append_drop, List.take_append_drop]

end Block
