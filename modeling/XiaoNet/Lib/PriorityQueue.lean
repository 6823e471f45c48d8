import Mathlib.Data.List.MinMax
import Mathlib.Data.List.Perm.Basic

/-!
# Priority queues

What a program can rely on in a priority queue: an element of least key comes out first,
and which of several is not said.

- `PriorityQueue key`: the operations with their laws, as fields. `elems` lists what is in
  the queue, in any order; the laws are up to permutation.
- `popWhile`: take elements off as long as they satisfy a test; for a test that holds of
  everything below an element it holds of (`Lower`), all such elements come off.
- `ofList`: a list is one.
-/

universe u v w

structure PriorityQueue {α : Type u} {κ : Type v} [LinearOrder κ] (key : α → κ) where
  Heap : Type w
  empty : Heap
  push : Heap → α → Heap
  top : Heap → Option α
  pop : Heap → Heap
  size : Heap → Nat
  elems : Heap → List α
  elems_empty : elems empty = []
  elems_push : ∀ h a, (elems (push h a)).Perm (a :: elems h)
  top_eq_none : ∀ h, top h = none → elems h = []
  top_mem : ∀ h a, top h = some a → a ∈ elems h
  top_le : ∀ h a, top h = some a → ∀ b ∈ elems h, key a ≤ key b
  elems_pop : ∀ h a, top h = some a → (elems h).Perm (a :: elems (pop h))
  size_eq : ∀ h, size h = (elems h).length

namespace PriorityQueue

variable {α : Type u} {κ : Type v} [LinearOrder κ] {key : α → κ} (P : PriorityQueue.{u, v, w} key)

/-- Take elements off while `p` holds of the first one. -/
def popWhile (p : α → Bool) : Nat → P.Heap → List α × P.Heap
  | 0, h => ([], h)
  | fuel + 1, h =>
    match P.top h with
    | none => ([], h)
    | some a =>
      if p a then
        let (as, h') := popWhile p fuel (P.pop h)
        (a :: as, h')
      else ([], h)

/-- The test holds of everything below an element it holds of. -/
def Lower (key : α → κ) (p : α → Bool) : Prop :=
  ∀ a b, key a ≤ key b → p b = true → p a = true

variable {P}

theorem top_isSome {h : P.Heap} {a : α} (ha : a ∈ P.elems h) : ∃ b, P.top h = some b := by
  cases htop : P.top h with
  | none =>
    rw [P.top_eq_none h htop] at ha
    cases ha
  | some b => exact ⟨b, rfl⟩

/-- The first element after a push: the new one, when it comes before all others. -/
theorem top_push_le {h : P.Heap} {a b : α} (hb : P.top (P.push h a) = some b) : key b ≤ key a :=
  P.top_le _ b hb a ((P.elems_push h a).symm.subset List.mem_cons_self)

theorem top_push {h : P.Heap} {a b c : α} (hc : P.top h = some c)
    (hb : P.top (P.push h a) = some b) :
    key b = min (key a) (key c) := by
  have hmem := (P.elems_push h a).subset (P.top_mem _ b hb)
  have hc' := P.top_le _ b hb c ((P.elems_push h a).symm.subset
    (List.mem_cons_of_mem a (P.top_mem h c hc)))
  refine le_antisymm (le_min (top_push_le hb) hc') ?_
  rcases List.mem_cons.mp hmem with rfl | hold
  · exact min_le_left _ _
  · exact (min_le_right _ _).trans (P.top_le h c hc b hold)

/-- **Taking off while**: what comes off and what stays is what was there; the test holds of
the former, and when the fuel suffices of none of the latter. -/
theorem popWhile_spec {p : α → Bool} (hp : Lower key p) {fuel : Nat} {h : P.Heap}
    (hfuel : P.size h ≤ fuel) :
    (P.elems h).Perm ((P.popWhile p fuel h).1 ++ P.elems (P.popWhile p fuel h).2) ∧
      (∀ a ∈ (P.popWhile p fuel h).1, p a = true) ∧
      ∀ b ∈ P.elems (P.popWhile p fuel h).2, p b = false := by
  rw [P.size_eq] at hfuel
  induction fuel generalizing h with
  | zero =>
    have hnil : P.elems h = [] := List.length_eq_zero_iff.mp (Nat.le_zero.mp hfuel)
    refine ⟨List.Perm.refl _, fun a ha => (nomatch ha), fun b hb => ?_⟩
    have hb' : b ∈ P.elems h := hb
    rw [hnil] at hb'
    cases hb'
  | succ fuel ih =>
    cases htop : P.top h with
    | none =>
      rw [show P.popWhile p (fuel + 1) h = ([], h) by simp only [popWhile, htop]]
      refine ⟨List.Perm.refl _, fun a ha => (nomatch ha), fun b hb => ?_⟩
      rw [P.top_eq_none h htop] at hb
      cases hb
    | some a =>
      have hpop := P.elems_pop h a htop
      cases ha : p a with
      | true =>
        have hlength : (P.elems (P.pop h)).length ≤ fuel := by
          have heq := hpop.length_eq
          rw [List.length_cons] at heq
          omega
        obtain ⟨hperm, hall, hnone⟩ := ih hlength
        rw [show P.popWhile p (fuel + 1) h
            = (a :: (P.popWhile p fuel (P.pop h)).1, (P.popWhile p fuel (P.pop h)).2) by
          simp only [popWhile, htop, ha, if_true]]
        refine ⟨hpop.trans (hperm.cons a), fun b hb => ?_, hnone⟩
        rcases List.mem_cons.mp hb with rfl | hb'
        · exact ha
        · exact hall b hb'
      | false =>
        -- the first one is left, so everything above it is
        rw [show P.popWhile p (fuel + 1) h = ([], h) by
          simp only [popWhile, htop, ha, Bool.false_eq_true, if_false]]
        refine ⟨List.Perm.refl _, fun b hb => (nomatch hb), fun b hb => ?_⟩
        have hle := P.top_le h a htop b hb
        by_contra hne
        rw [hp a b hle (eq_true_of_ne_false hne)] at ha
        cases ha

theorem popWhile_subset (p : α → Bool) (fuel : Nat) (h : P.Heap) :
    ∀ a ∈ (P.popWhile p fuel h).1, a ∈ P.elems h := by
  induction fuel generalizing h with
  | zero => exact fun a ha => absurd ha List.not_mem_nil
  | succ fuel ih =>
    intro b hb
    unfold popWhile at hb
    cases htop : P.top h with
    | none =>
      rw [htop] at hb
      exact absurd hb List.not_mem_nil
    | some a =>
      rw [htop] at hb
      dsimp only at hb
      split at hb
      · have hpop := P.elems_pop h a htop
        rcases List.mem_cons.mp hb with rfl | hrest
        · exact P.top_mem h b htop
        · exact hpop.symm.subset (List.mem_cons_of_mem a (ih (P.pop h) b hrest))
      · exact absurd hb List.not_mem_nil

/-- What comes off comes in order. -/
theorem popWhile_sorted (p : α → Bool) (fuel : Nat) (h : P.Heap) :
    (P.popWhile p fuel h).1.Pairwise fun a b => key a ≤ key b := by
  induction fuel generalizing h with
  | zero => exact List.Pairwise.nil
  | succ fuel ih =>
    unfold popWhile
    cases htop : P.top h with
    | none => exact List.Pairwise.nil
    | some a =>
      dsimp only
      split
      · refine List.pairwise_cons.mpr ⟨fun b hb => ?_, ih (P.pop h)⟩
        have hin := popWhile_subset p fuel (P.pop h) b hb
        exact P.top_le h a htop b ((P.elems_pop h a htop).symm.subset (List.mem_cons_of_mem a hin))
      · exact List.Pairwise.nil

/-- A list with the first of its least elements on top. -/
def ofList [DecidableEq α] (key : α → κ) : PriorityQueue.{u, v, u} key where
  Heap := List α
  empty := []
  push l a := l ++ [a]
  top l := l.argmin key
  pop l := match l.argmin key with
    | none => l
    | some a => l.erase a
  size := List.length
  elems := id
  elems_empty := rfl
  elems_push l a := List.perm_append_singleton a l
  top_eq_none _ := List.argmin_eq_none.mp
  top_mem _ _ h := List.argmin_mem h
  top_le _ _ h _ hb := List.le_of_mem_argmin hb h
  elems_pop l a h := by
    simp only [h, id]
    exact List.perm_cons_erase (List.argmin_mem h)
  size_eq _ := rfl

end PriorityQueue
