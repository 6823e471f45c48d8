import Mathlib.Data.List.Basic
import Mathlib.Logic.Function.Basic

/-!
# Chains with gaps

A singly linked chain that is extended at its end before the new node is linked: the
list of its nodes is known, but between two neighbours the link may be missing, as long
as somebody still has to store it.

`Chain next gap a l` says that the chain starts with `a` and goes on with the nodes of
`l`, where `next` are the links that are there and `gap a b` those that are promised.
The rules are one for each thing that happens to such a chain: `push` extends it, `fill`
stores a promised link, `pop` takes its first node off.
-/

namespace GappedChain

universe u

variable {ν : Type u}

/-- Neighbours are linked or promised to be, and the last node has no link. -/
def Chain (next : ν → Option ν) (gap : ν → ν → Prop) : ν → List ν → Prop
  | a, [] => next a = none
  | a, b :: l => (next a = some b ∨ (next a = none ∧ gap a b)) ∧ Chain next gap b l

/-- The last node. -/
def last : ν → List ν → ν
  | a, [] => a
  | _, b :: l => last b l

variable {next next' : ν → Option ν} {gap gap' : ν → ν → Prop}

theorem last_concat (a b : ν) (l : List ν) : last a (l ++ [b]) = b := by
  induction l generalizing a with
  | nil => rfl
  | cons c l ih => exact ih c

theorem getElem?_last (a : ν) (l : List ν) : (a :: l)[l.length]? = some (last a l) := by
  induction l generalizing a with
  | nil => rfl
  | cons b l ih => exact ih b

/-- A node has one position. -/
theorem index_unique {l : List ν} (h : l.Nodup) {i j : Nat} {x : ν} (hi : l[i]? = some x)
    (hj : l[j]? = some x) : i = j := by
  obtain ⟨hlt, -⟩ := List.getElem?_eq_some_iff.mp hi
  exact (List.getElem?_inj hlt h).mp (hi.trans hj.symm)

namespace Chain

theorem last_eq_none {a : ν} {l : List ν} (h : Chain next gap a l) : next (last a l) = none := by
  induction l generalizing a with
  | nil => exact h
  | cons b l ih => exact ih h.2

/-- The chain only looks at its own nodes. -/
theorem congr {a : ν} {l : List ν} (h : Chain next gap a l)
    (hnext : ∀ x ∈ a :: l, next' x = next x)
    (hgap : ∀ x ∈ a :: l, ∀ y ∈ l, gap x y → gap' x y) : Chain next' gap' a l := by
  induction l generalizing a with
  | nil =>
    show next' a = none
    rw [hnext a List.mem_cons_self]
    exact h
  | cons b l ih =>
    obtain ⟨hlink, hrest⟩ := h
    constructor
    · rw [hnext a List.mem_cons_self]
      rcases hlink with hlink | ⟨hnone, hpromised⟩
      · exact .inl hlink
      · exact .inr ⟨hnone, hgap a List.mem_cons_self b List.mem_cons_self hpromised⟩
    · refine ih hrest (fun x hx => hnext x (List.mem_cons_of_mem a hx)) fun x hx y hy => ?_
      exact hgap x (List.mem_cons_of_mem a hx) y (List.mem_cons_of_mem b hy)

/-- A node without link is put at the end and the link to it is promised. -/
theorem push {a b : ν} {l : List ν} (h : Chain next gap a l) (hnone : next b = none)
    (hgap : ∀ x y, gap x y → gap' x y) (hpromised : gap' (last a l) b) :
    Chain next gap' a (l ++ [b]) := by
  induction l generalizing a with
  | nil => exact ⟨.inr ⟨h, hpromised⟩, hnone⟩
  | cons c l ih =>
    obtain ⟨hlink, hrest⟩ := h
    exact ⟨hlink.imp_right fun ⟨ha, hac⟩ => ⟨ha, hgap a c hac⟩, ih hrest hpromised⟩

/-- A promised link is stored: the one between the nodes at positions `i` and `i + 1`. -/
theorem fill [DecidableEq ν] {a x y : ν} {l : List ν} {i : Nat} (h : Chain next gap a l)
    (hnodup : (a :: l).Nodup) (hx : (a :: l)[i]? = some x) (hy : l[i]? = some y)
    (hothers : ∀ p q, p ≠ x → gap p q → gap' p q) :
    Chain (Function.update next x (some y)) gap' a l := by
  induction l generalizing a i with
  | nil => cases hy
  | cons b l ih =>
    obtain ⟨hlink, hrest⟩ := h
    obtain ⟨ha, hnodup'⟩ := List.nodup_cons.mp hnodup
    cases i with
    | zero =>
      obtain rfl : a = x := Option.some.inj hx
      obtain rfl : b = y := Option.some.inj hy
      have hne : ∀ p ∈ b :: l, p ≠ a := fun p hp heq => ha (heq ▸ hp)
      refine ⟨.inl (Function.update_self _ _ _), hrest.congr (fun p hp => ?_) fun p hp q _ => ?_⟩
      · exact Function.update_of_ne (hne p hp) _ _
      · exact hothers p q (hne p hp)
    | succ i =>
      have hmem : x ∈ b :: l := List.mem_of_getElem? hx
      have hne : a ≠ x := fun heq => ha (heq ▸ hmem)
      refine ⟨?_, ih hrest hnodup' hx hy⟩
      rw [Function.update_of_ne hne]
      exact hlink.imp_right fun ⟨hnone, hpromised⟩ => ⟨hnone, hothers a b hne hpromised⟩

/-- The first node is taken off: the link behind it is there and says what comes next. -/
theorem pop {a b : ν} {l : List ν} (h : Chain next gap a l) (hlink : next a = some b) :
    ∃ l', l = b :: l' ∧ Chain next gap b l' := by
  cases l with
  | nil =>
    have hnone : next a = none := h
    rw [hlink] at hnone
    cases hnone
  | cons c l =>
    obtain ⟨hfirst, hrest⟩ := h
    rcases hfirst with hsome | ⟨hnone, -⟩
    · rw [hlink] at hsome
      cases hsome
      exact ⟨l, rfl, hrest⟩
    · rw [hlink] at hnone
      cases hnone

/-- Without a link the chain ends or the link is promised. -/
theorem stuck {a : ν} {l : List ν} (h : Chain next gap a l) (hnone : next a = none) :
    l = [] ∨ ∃ b l', l = b :: l' ∧ gap a b := by
  cases l with
  | nil => exact .inl rfl
  | cons b l =>
    rcases h.1 with hsome | ⟨-, hgap⟩
    · rw [hnone] at hsome
      cases hsome
    · exact .inr ⟨b, l, rfl, hgap⟩

end Chain

end GappedChain
