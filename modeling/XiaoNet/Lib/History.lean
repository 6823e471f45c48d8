import Mathlib.Data.List.Basic

/-!
# Logs

A log lists what has happened, the oldest entry first.

- `Each law log`: every entry satisfies a law about itself and the entries before it.
- `Since p e log`: the entry `e` is in the log, after one that satisfies `p`.

Both come with a rule for a log that grows by one entry.
-/

namespace History

universe u

variable {ε : Type u}

/-- The law holds of every entry and what was in the log before it. -/
def Each (law : List ε → ε → Prop) (log : List ε) : Prop :=
  ∀ before e later, log = before ++ e :: later → law before e

/-- `e` was written after an entry that satisfies `p`. -/
def Since (p : ε → Prop) (e : ε) (log : List ε) : Prop :=
  ∃ before later, log = before ++ e :: later ∧ ∃ d ∈ before, p d

variable {law : List ε → ε → Prop} {p : ε → Prop} {log : List ε} {d e : ε}

/-- The last entry of a log, or one before it. -/
theorem concat_eq_append_cons {before later : List ε}
    (h : log ++ [d] = before ++ e :: later) :
    (later = [] ∧ log = before ∧ d = e) ∨ ∃ rest, later = rest ++ [d] ∧ log = before ++ e :: rest := by
  rcases List.eq_nil_or_concat later with rfl | ⟨rest, c, rfl⟩
  · obtain ⟨hlog, hd⟩ := List.append_inj' h rfl
    exact .inl ⟨rfl, hlog, List.singleton_inj.mp hd⟩
  · have h' : log ++ [d] = (before ++ e :: rest) ++ [c] := by
      rw [h, List.concat_eq_append, List.append_assoc]
      rfl
    obtain ⟨hlog, hd⟩ := List.append_inj' h' rfl
    exact .inr ⟨rest, by rw [List.concat_eq_append, List.singleton_inj.mp hd], hlog⟩

theorem each_nil : Each law [] := by
  intro before e later h
  cases before <;> cases h

theorem each_concat : Each law (log ++ [d]) ↔ Each law log ∧ law log d := by
  constructor
  · intro h
    constructor
    · intro before e later heq
      refine h before e (later ++ [d]) ?_
      rw [heq, List.append_assoc]
      rfl
    · exact h log d [] rfl
  · rintro ⟨hlog, hd⟩ before e later heq
    rcases concat_eq_append_cons heq with ⟨-, rfl, rfl⟩ | ⟨rest, -, hrest⟩
    · exact hd
    · exact hlog before e rest hrest

/-- The oldest entry is forgotten; the law is one that holds with fewer entries before. -/
theorem each_tail (hlaw : ∀ before e, law (d :: before) e → law before e)
    (h : Each law (d :: log)) : Each law log := by
  rintro before e later rfl
  exact hlaw before e (h (d :: before) e later rfl)

theorem since_concat : Since p e (log ++ [d]) ↔ Since p e log ∨ (d = e ∧ ∃ c ∈ log, p c) := by
  constructor
  · rintro ⟨before, later, heq, hp⟩
    rcases concat_eq_append_cons heq with ⟨-, rfl, rfl⟩ | ⟨rest, -, hrest⟩
    · exact .inr ⟨rfl, hp⟩
    · exact .inl ⟨before, rest, hrest, hp⟩
  · rintro (⟨before, later, heq, hp⟩ | ⟨rfl, hp⟩)
    · refine ⟨before, later ++ [d], ?_, hp⟩
      rw [heq, List.append_assoc]
      rfl
    · exact ⟨log, [], rfl, hp⟩

theorem Since.exists_mem (h : Since p e log) : ∃ d ∈ log, p d := by
  obtain ⟨before, later, rfl, d, hd, hp⟩ := h
  exact ⟨d, List.mem_append_left _ hd, hp⟩

/-- The place of an entry, when it is the only one that satisfies `p`. -/
theorem split_unique {xs zs before after : List ε} {x y : ε}
    (h : xs ++ x :: zs = before ++ y :: after) (hy : p y) (hxs : ∀ a ∈ xs, ¬ p a)
    (hzs : ∀ a ∈ zs, ¬ p a) : before = xs ∧ after = zs := by
  induction xs generalizing before with
  | nil =>
    cases before with
    | nil => exact ⟨rfl, (List.cons.inj h).2.symm⟩
    | cons b before =>
      have htail := (List.cons.inj h).2
      exact absurd hy (hzs y (by simp [htail]))
  | cons a xs ih =>
    cases before with
    | nil => exact absurd hy (hxs y (by simp [(List.cons.inj h).1]))
    | cons b before =>
      obtain ⟨rfl, htail⟩ := List.cons.inj h
      obtain ⟨rfl, hafter⟩ := ih htail fun a' ha' => hxs a' (List.mem_cons_of_mem _ ha')
      exact ⟨rfl, hafter⟩

end History
