import Mathlib.Data.List.Basic

/-!
# Comparing the ends of lists

A loop that compares two lists from one end and stops when either is used up finds out whether
they `agree` as far as both go. That is less than one being a prefix of the other in a given
direction, and two such tests, one from each end, do not keep the two parts from overlapping.

- `agree_iff_prefix`: agreeing lists are prefixes of each other, one way or the other.
- `between`: a list long enough for both parts has them at its ends, with something in between.
-/

namespace Ends

universe u

variable {α : Type u} [DecidableEq α]

/-- The lists are the same as far as both go. -/
def agree : List α → List α → Bool
  | a :: as, b :: bs => a == b && agree as bs
  | _, _ => true

@[simp] theorem agree_nil (bs : List α) : agree [] bs = true := rfl

@[simp] theorem agree_nil_right (as : List α) : agree as [] = true := by
  cases as <;> rfl

@[simp] theorem agree_cons (a b : α) (as bs : List α) :
    agree (a :: as) (b :: bs) = (a == b && agree as bs) := rfl

theorem agree_append (as bs : List α) : agree as (as ++ bs) = true := by
  induction as with
  | nil => rfl
  | cons a as ih => rw [List.cons_append, agree_cons, beq_self_eq_true, ih, Bool.and_self]

/-- Agreeing lists are prefixes of each other, one way or the other. -/
theorem agree_iff_prefix {as bs : List α} : agree as bs = true ↔ as <+: bs ∨ bs <+: as := by
  induction as generalizing bs with
  | nil => exact iff_of_true rfl (.inl List.nil_prefix)
  | cons a as ih =>
    cases bs with
    | nil => exact iff_of_true rfl (.inr List.nil_prefix)
    | cons b bs =>
      rw [agree_cons, Bool.and_eq_true, beq_iff_eq, ih, List.cons_prefix_cons,
        List.cons_prefix_cons, eq_comm (a := b), ← and_or_left]

/-- The shorter of two agreeing lists is a prefix of the longer. -/
theorem prefix_of_agree {as bs : List α} (h : agree as bs = true) (hlen : as.length ≤ bs.length) :
    as <+: bs := by
  rcases agree_iff_prefix.mp h with hpre | hpre
  · exact hpre
  · have heq := hpre.eq_of_length_le hlen
    subst heq
    exact List.prefix_rfl

/-- Two parts agree with the ends of a list, which is long enough for both, exactly when it has
them at its ends. -/
theorem between {as bs cs : List α} (hlen : as.length + bs.length ≤ cs.length) :
    agree as cs = true ∧ agree bs.reverse cs.reverse = true ↔ ∃ x, cs = as ++ x ++ bs := by
  constructor
  · rintro ⟨hfront, hback⟩
    obtain ⟨t, rfl⟩ := prefix_of_agree hfront (by omega)
    have hsuffix : bs <:+ as ++ t := by
      rw [← List.reverse_prefix]
      exact prefix_of_agree hback (by rw [List.length_reverse, List.length_reverse]; omega)
    rw [List.length_append] at hlen
    obtain ⟨x, rfl⟩ : bs <:+ t :=
      List.suffix_of_suffix_length_le hsuffix (List.suffix_append as t) (by omega)
    exact ⟨x, (List.append_assoc as x bs).symm⟩
  · rintro ⟨x, rfl⟩
    refine ⟨?_, ?_⟩
    · rw [List.append_assoc]
      exact agree_append as (x ++ bs)
    · rw [List.reverse_append]
      exact agree_append bs.reverse (as ++ x).reverse

end Ends
