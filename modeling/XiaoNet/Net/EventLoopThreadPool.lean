import XiaoNet.Lib.Deal
import XiaoNet.Lib.Runs
import XiaoNet.Utils.SizeT

/-!
# `EventLoopThreadPool`

The pool of `net/EventLoopThreadPool.{h,cpp}`: the loops of its threads, known by numbers, and the
counter that `getNextLoop` takes the next one with. The counter is an atomic `size_t`: calls from
any threads happen in the order of their `fetch_add`.

`always_fair`: the loops are handed out evenly, up to one more each time the counter wraps.
-/

namespace XiaoNet

structure EventLoopThreadPool where
  /-- The loop of each thread in `loopThreadVector_`. -/
  loops : List Nat
  loopIndex : Nat

namespace EventLoopThreadPool

def new (loops : List Nat) : EventLoopThreadPool := ⟨loops, 0⟩

def getNextLoop (p : EventLoopThreadPool) : EventLoopThreadPool × Option Nat :=
  if p.loops.length > 0 then
    let index := p.loopIndex
    ({ p with loopIndex := addSize index 1 }, p.loops[index % p.loops.length]?)
  else (p, none)

def getLoops (p : EventLoopThreadPool) : List Nat := p.loops

/-- The pool with the loops that `getNextLoop` has returned. -/
structure Calls where
  pool : EventLoopThreadPool
  returned : List Nat

/-- A call by some thread. -/
def Calls.step (s : Calls) (_thread : Nat) : Calls where
  pool := s.pool.getNextLoop.1
  returned := s.returned ++ s.pool.getNextLoop.2.toList

/-- No loop was returned much more often than another. -/
def Fair (s : Calls) : Prop :=
  ∀ a ∈ s.pool.getLoops, ∀ b ∈ s.pool.getLoops,
    s.returned.count a ≤ s.returned.count b + (s.returned.length / sizeMod + 1)

/-- The counter against the calls. -/
structure Dealt (loops : List Nat) (s : Calls) : Prop where
  loops_eq : s.pool.loops = loops
  index_eq : s.pool.loopIndex = s.returned.length % sizeMod
  returned_eq : s.returned = deal loops (· % sizeMod) s.returned.length

variable {loops : List Nat} {s : Calls}

theorem dealt_step (h : Dealt loops s) (thread : Nat) : Dealt loops (s.step thread) := by
  obtain ⟨hloops, hindex, hreturned⟩ := h
  unfold Calls.step getNextLoop
  by_cases hpos : s.pool.loops.length > 0
  · have hlt : s.pool.loopIndex % loops.length < loops.length := by
      rw [hloops] at hpos
      exact Nat.mod_lt _ hpos
    have hpicked : s.pool.loops[s.pool.loopIndex % s.pool.loops.length]?.toList =
        [loops[s.pool.loopIndex % loops.length]] := by
      rw [hloops, List.getElem?_eq_getElem hlt]
      rfl
    rw [if_pos hpos]
    dsimp only
    rw [hpicked]
    have hlen : (s.returned ++ [loops[s.pool.loopIndex % loops.length]]).length =
        s.returned.length + 1 := List.length_append
    refine ⟨hloops, ?_, ?_⟩
    · show addSize s.pool.loopIndex 1 = _
      rw [hlen, addSize, hindex, Nat.mod_add_mod]
    · show s.returned ++ [_] = deal loops _ (s.returned ++ [_]).length
      rw [hlen, deal_succ, ← hreturned, ← hindex, List.getElem?_eq_getElem hlt]
      rfl
  · rw [if_neg hpos]
    exact ⟨hloops, by simpa using hindex, by simpa using hreturned⟩

theorem Dealt.fair (h : Dealt loops s) (hnodup : loops.Nodup) : Fair s := by
  intro a ha b hb
  rw [getLoops, h.loops_eq] at ha hb
  have hshare := count_deal_wrap hnodup ha hb (w := sizeMod) (by decide) s.returned.length
  rw [← h.returned_eq] at hshare
  exact hshare

/-- **Fair**: whichever threads call `getNextLoop` and however often, no loop of the pool is
returned more often than another by more than one, and one more for each time that the counter has
wrapped. -/
theorem always_fair (hnodup : loops.Nodup) (threads : List Nat) :
    Runs.Always Calls.step Fair ⟨new loops, []⟩ threads := by
  have hnew : Dealt loops ⟨new loops, []⟩ := ⟨rfl, rfl, rfl⟩
  exact (Runs.always_of_step (I := Dealt loops) (fun _ thread h => dealt_step h thread) hnew
    threads).mono fun _ h => h.fair hnodup

/-- Three loops and four calls. -/
theorem always_fair_three :
    Runs.Always Calls.step Fair ⟨new [4, 7, 9], []⟩ [0, 1, 0, 2] :=
  always_fair (by decide) _

end EventLoopThreadPool

end XiaoNet
