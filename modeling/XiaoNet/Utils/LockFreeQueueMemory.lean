import XiaoNet.Utils.LockFreeQueueFifo

/-!
# The memory of `MpscQueue`

The nodes on the heap are those from `tail_` to `head_` and the ones that a producer has made and
not put in yet. `dequeue` deletes the old tail and the data of the new one, so the first node is
without data; the destructor takes out what is left and deletes that node.

- `Kept`: this, beside the invariant of the queue.
- `destroy`: `~MpscQueue`.
- `always_tight`: in every interleaving nothing leaks, and the destructor leaves nothing.
-/

namespace XiaoNet

namespace MpscQueue

universe u v

variable {ι : Type u} {T : Type v}

namespace Threads

/-- The nodes from `tail_` to `head_`. -/
def chain (s : Threads ι T) : List NodeId :=
  s.queue.tail :: (s.enqueued.drop s.dequeued.length).map Entry.node

variable [DecidableEq ι]

/-- The destructor: `dequeue` until it returns false, and `delete` of the node that is left. -/
def destroy (s : Threads ι T) : Threads ι T × Bool :=
  let (s, done) := s.drain (s.enqueued.length + 1)
  ({ s with queue := { s.queue with
      nodes := Function.update s.queue.nodes s.queue.head none } }, done)

/-- No node and no data is lost. -/
structure Tight (s : Threads ι T) : Prop where
  /-- A node is on the heap as long as it is in the queue or not yet put in. -/
  nodes : ∀ x, s.queue.nodes x ≠ none ↔
    x ∈ s.chain ∨ ∃ p input, s.producers p = .created x input
  once : s.chain.Nodup
  /-- Data is there for the items that were not taken, and for no other node. -/
  data : ∀ x n, s.queue.nodes x = some n → (n.dataPtr = none ↔ x = s.queue.tail)
  /-- When no thread is in a call, the destructor deletes all. -/
  destroyed : (∀ p, s.producers p = .idle) → s.consumer = .idle →
    ∃ s', s.destroy = (s', true) ∧ (∀ x, s'.queue.nodes x = none) ∧
      s'.dequeued = s.enqueued.map Entry.input ∧ s'.fault = false

structure Kept (s : Threads ι T) (rest : List (Entry ι T)) : Prop where
  live : ∀ x n, s.queue.nodes x = some n →
    x ∈ s.queue.tail :: rest.map Entry.node ∨ ∃ p input, s.producers p = .created x input
  spent : ∀ n, s.queue.nodes s.queue.tail = some n → n.dataPtr = none

variable {s : Threads ι T} {rest : List (Entry ι T)}

omit [DecidableEq ι] in
theorem kept_start : (start : Threads ι T).Kept [] where
  live := by
    intro x n hx
    have hnew : Function.update (fun _ : NodeId => (none : Option (BufferNode T))) 0
        (some ⟨none, none⟩) x = some n := hx
    rcases update_cases hnew with ⟨rfl, -⟩ | ⟨-, hold⟩
    · exact .inl List.mem_cons_self
    · cases hold
  spent := by
    rintro n ⟨⟩
    rfl

/-! ## `enqueue` -/

theorem kept_enqueue (h : s.Inv rest) (hk : s.Kept rest) (p : ι) (input : T) :
    (s.step (.enqueue p input)).Kept rest := by
  cases hp : s.producers p with
  | idle =>
    simp only [step, hp]
    constructor
    case live =>
      intro x n hx
      rcases update_cases hx with ⟨rfl, -⟩ | ⟨-, hx'⟩
      · exact .inr ⟨p, input, Function.update_self _ _ _⟩
      · rcases hk.live x n hx' with hin | ⟨p', input', hp'⟩
        · exact .inl hin
        · have hne : p' ≠ p := by
            rintro rfl
            rw [hp] at hp'
            cases hp'
          exact .inr ⟨p', input', (Function.update_of_ne hne _ _).trans hp'⟩
    case spent =>
      intro n hn
      rcases update_cases hn with ⟨heq, -⟩ | ⟨-, hn'⟩
      · obtain ⟨m, hm⟩ := h.tail_live
        have hlt := h.fresh _ m hm
        exact absurd (show s.queue.tail = s.queue.fresh from heq) (Nat.ne_of_lt hlt)
      · exact hk.spent n hn'
  | created node input' =>
    simp only [step, hp]
    exact hk
  | exchanged node prevhead =>
    simp only [step, hp]
    exact hk

/-- The node that its producer has made is in the queue. -/
theorem kept_exchanged (hk : s.Kept rest) {p : ι} {node : NodeId} {input : T}
    (hp : s.producers p = .created node input) :
    Kept { s with
      queue := { s.queue with head := node }
      producers := Function.update s.producers p (.exchanged node s.queue.head)
      enqueued := s.enqueued ++ [⟨p, node, input⟩] } (rest ++ [⟨p, node, input⟩]) where
  live := by
    intro x n hx
    rw [List.map_append, ← List.cons_append]
    rcases hk.live x n hx with hin | ⟨p', input', hp'⟩
    · exact .inl (List.mem_append_left _ hin)
    · by_cases hpne : p' = p
      · subst hpne
        rw [hp] at hp'
        cases hp'
        exact .inl (List.mem_append_right _ List.mem_cons_self)
      · exact .inr ⟨p', input', (Function.update_of_ne hpne _ _).trans hp'⟩
  spent := hk.spent

/-- A link is stored; the data stays. -/
theorem kept_linked (hk : s.Kept rest) {p : ι} {node prevhead : NodeId}
    (hp : s.producers p = .exchanged node prevhead) {n : BufferNode T}
    (hn : s.queue.nodes prevhead = some n) :
    Kept { s with
      queue := { s.queue with
        nodes := Function.update s.queue.nodes prevhead (some { n with next := some node }) }
      producers := Function.update s.producers p .idle } rest := by
  -- `p` has no node of its own at this point
  have hcreated : ∀ x, (∃ p' input', s.producers p' = .created x input') →
      ∃ p' input', Function.update s.producers p .idle p' = .created x input' := by
    rintro x ⟨p', input', hp'⟩
    have hne : p' ≠ p := by
      rintro rfl
      rw [hp] at hp'
      cases hp'
    exact ⟨p', input', (Function.update_of_ne hne _ _).trans hp'⟩
  constructor
  case live =>
    intro x m hx
    rcases update_cases hx with ⟨rfl, -⟩ | ⟨-, hx'⟩
    · exact (hk.live _ n hn).imp_right (hcreated _)
    · exact (hk.live x m hx').imp_right (hcreated x)
  case spent =>
    intro m hm
    rcases update_cases hm with ⟨heq, hsome⟩ | ⟨-, hm'⟩
    · have htail : s.queue.tail = prevhead := heq
      rw [← Option.some.inj hsome]
      exact hk.spent n (htail ▸ hn)
    · exact hk.spent m hm'

/-! ## `dequeue` -/

omit [DecidableEq ι] in
/-- The old tail is deleted, and the data of the new one. -/
theorem kept_taken {e : Entry ι T} (hk : s.Kept (e :: rest)) (hne : e.node ≠ s.queue.tail)
    {n : BufferNode T} :
    Kept { s with
      queue := { s.queue with
        nodes := Function.update
          (Function.update s.queue.nodes e.node (some { n with dataPtr := none }))
          s.queue.tail none
        tail := e.node }
      consumer := .idle
      dequeued := s.dequeued ++ [e.input] } rest where
  live := by
    intro x m hx
    -- the old tail is gone, the taken node is the tail now
    rcases update_cases hx with ⟨-, hnone⟩ | ⟨htail, hx'⟩
    · cases hnone
    · rcases update_cases hx' with ⟨rfl, -⟩ | ⟨-, hx''⟩
      · exact .inl List.mem_cons_self
      · rcases hk.live x m hx'' with hin | hcreated
        · exact .inl ((List.mem_cons.mp hin).resolve_left htail)
        · exact .inr hcreated
  spent := by
    intro m hm
    rcases update_cases hm with ⟨heq, -⟩ | ⟨-, hm'⟩
    · exact absurd heq hne
    · rcases update_cases hm' with ⟨-, heq⟩ | ⟨hself, -⟩
      · cases heq
        rfl
      · exact absurd rfl hself

theorem kept_step (h : s.Inv rest) (hk : s.Kept rest) (a : Act ι T) :
    ∃ rest', (s.step a).Inv rest' ∧ (s.step a).Kept rest' := by
  cases a with
  | enqueue p input => exact ⟨rest, inv_enqueue h p input, kept_enqueue h hk p input⟩
  | exchange p =>
    cases hp : s.producers p with
    | created node input =>
      simp only [step, hp]
      exact ⟨_, inv_exchanged h hp, kept_exchanged hk hp⟩
    | idle =>
      simp only [step, hp]
      exact ⟨rest, h, hk⟩
    | exchanged node prevhead =>
      simp only [step, hp]
      exact ⟨rest, h, hk⟩
  | link p =>
    refine ⟨rest, inv_link h p, ?_⟩
    cases hp : s.producers p with
    | exchanged node prevhead =>
      obtain ⟨n, hn⟩ := h.mem_live (h.prevhead_mem hp)
      simp only [step, hp, storeNext, hn, Option.map_some]
      exact kept_linked hk hp hn
    | idle =>
      simp only [step, hp]
      exact hk
    | created node input =>
      simp only [step, hp]
      exact hk
  | dequeue =>
    refine ⟨rest, inv_dequeue h, ?_⟩
    cases hc : s.consumer with
    | loaded tail nx =>
      simp only [step, hc]
      exact hk
    | idle =>
      cases hnx : s.queue.next s.queue.tail with
      | none =>
        simp only [step, hc, h.loadNext_eq, hnx]
        exact hk
      | some nx =>
        simp only [step, hc, h.loadNext_eq, hnx]
        exact ⟨hk.live, hk.spent⟩
  | take =>
    cases hc : s.consumer with
    | idle =>
      simp only [step, hc]
      exact ⟨rest, h, hk⟩
    | loaded tail nx =>
      obtain ⟨rfl, hnx⟩ := h.loaded tail nx hc
      -- what the consumer has loaded is the front of the queue
      obtain ⟨e, rest', rfl, rfl, hchain⟩ := h.front hnx
      obtain ⟨n, hn, hdata⟩ := h.data e List.mem_cons_self
      have hne : e.node ≠ s.queue.tail := fun heq =>
        (List.nodup_cons.mp h.nodup).1 (heq ▸ List.mem_cons_self)
      simp only [step, hc, takeNext, hn, hdata, Option.map_some]
      exact ⟨rest', inv_taken h hnx hchain hn, kept_taken hk hne⟩
  | empty =>
    rw [h.step_empty]
    exact ⟨rest, h, hk⟩

/-! ## The destructor -/

/-- Without producers at work all items come out, and one node is left. -/
theorem Kept.drain_spec (h : s.Inv rest) (hk : s.Kept rest) (hidle : ∀ p, s.producers p = .idle)
    (hc : s.consumer = .idle) {fuel : Nat} (hfuel : rest.length < fuel) :
    ∃ s', s.drain fuel = (s', true) ∧ s'.Inv [] ∧ s'.Kept [] ∧ s'.producers = s.producers ∧
      s'.dequeued = s.dequeued ++ rest.map Entry.input := by
  induction rest generalizing s fuel with
  | nil =>
    cases fuel with
    | zero => cases hfuel
    | succ fuel =>
      have hnone : s.queue.next s.queue.tail = none := h.chain
      refine ⟨s, ?_, h, hk, rfl, (List.append_nil _).symm⟩
      simp only [drain, h.loadNext_eq, hnone]
  | cons e rest ih =>
    cases fuel with
    | zero => cases hfuel
    | succ fuel =>
      -- a gap would belong to a producer that is still at work
      have hlink : s.queue.next s.queue.tail = some e.node := by
        rcases h.chain.1 with hlink | ⟨-, p, hp⟩
        · exact hlink
        · rw [hidle p] at hp
          cases hp
      obtain ⟨n, hn, hdata⟩ := h.data e List.mem_cons_self
      have hne : e.node ≠ s.queue.tail := fun heq =>
        (List.nodup_cons.mp h.nodup).1 (heq ▸ List.mem_cons_self)
      obtain ⟨s', hdrain, hinv, hkept, hproducers, hdequeued⟩ :=
        ih (inv_taken h hlink h.chain.2 hn) (kept_taken hk hne) hidle rfl
          (Nat.lt_of_succ_lt_succ hfuel)
      refine ⟨s', ?_, hinv, hkept, hproducers, ?_⟩
      · rw [← hdrain]
        simp only [drain, step, hc, h.loadNext_eq, hlink, takeNext, hn, hdata, Option.map_some]
      · rw [hdequeued]
        simp

theorem Kept.destroyed (h : s.Inv rest) (hk : s.Kept rest) (hidle : ∀ p, s.producers p = .idle)
    (hc : s.consumer = .idle) :
    ∃ s', s.destroy = (s', true) ∧ (∀ x, s'.queue.nodes x = none) ∧
      s'.dequeued = s.enqueued.map Entry.input ∧ s'.fault = false := by
  obtain ⟨taken, henqueued, hdequeued⟩ := h.split
  -- there is a round for each element that may be left
  have hfuel : rest.length < s.enqueued.length + 1 := by
    rw [henqueued, List.length_append]
    omega
  obtain ⟨s', hdrain, hinv, hkept, hproducers, hall⟩ := hk.drain_spec h hidle hc hfuel
  have hhead : s'.queue.head = s'.queue.tail := hinv.head_eq
  refine ⟨{ s' with queue := { s'.queue with
      nodes := Function.update s'.queue.nodes s'.queue.head none } }, ?_, fun x => ?_, ?_,
    hinv.no_fault⟩
  · rw [destroy, hdrain]
  · -- after the drain only the dummy is left, which the destructor deletes
    show Function.update s'.queue.nodes s'.queue.head none x = none
    by_cases hx : x = s'.queue.head
    · rw [hx, Function.update_self]
    · rw [Function.update_of_ne hx]
      cases hn : s'.queue.nodes x with
      | none => rfl
      | some n =>
        rcases hkept.live x n hn with hin | ⟨p, input, hp⟩
        · rw [hhead] at hx
          exact absurd (List.mem_singleton.mp hin) hx
        · rw [hproducers, hidle p] at hp
          cases hp
  · rw [hall, henqueued, hdequeued, List.map_append]

theorem Kept.tight (h : s.Inv rest) (hk : s.Kept rest) : s.Tight := by
  -- the first elements enqueued are the ones that were dequeued
  have hchain : s.chain = s.queue.tail :: rest.map Entry.node := by
    obtain ⟨taken, henqueued, hdequeued⟩ := h.split
    rw [chain, henqueued, hdequeued, List.length_map, List.drop_left]
  constructor
  case nodes =>
    intro x
    rw [hchain]
    constructor
    · intro hx
      obtain ⟨n, hn⟩ := Option.ne_none_iff_exists'.mp hx
      exact hk.live x n hn
    · rintro (hin | ⟨p, input, hp⟩) hnone
      · obtain ⟨n, hn⟩ := h.mem_live hin
        rw [hnone] at hn
        cases hn
      · rw [(h.created p x input hp).1] at hnone
        cases hnone
  case once =>
    rw [hchain]
    exact h.nodup
  case data =>
    intro x n hn
    constructor
    · intro hnone
      rcases hk.live x n hn with hin | ⟨p, input, hp⟩
      · rcases List.mem_cons.mp hin with rfl | hrest
        · rfl
        · obtain ⟨e, he, rfl⟩ := List.mem_map.mp hrest
          obtain ⟨m, hm, hdata⟩ := h.data e he
          rw [hn, Option.some.injEq] at hm
          rw [← hm, hnone] at hdata
          cases hdata
      · rw [(h.created p x input hp).1] at hn
        cases hn
        cases hnone
    · rintro rfl
      exact hk.spent n hn
  case destroyed => exact hk.destroyed h

/-- **Nothing leaks**: whatever the order in which producers and the consumer take their atomic
steps, a node is on the heap exactly while it is in the queue or on its way in, only items that
were not taken have data, and once no thread is in a call the destructor deletes all of it. -/
theorem always_tight (as : List (Act ι T)) :
    Runs.Always step Tight (start : Threads ι T) as := by
  have hall := Runs.always_of_step (I := fun s : Threads ι T => ∃ rest, s.Inv rest ∧ s.Kept rest)
    (fun _ a h => kept_step h.choose_spec.1 h.choose_spec.2 a) ⟨[], inv_start, kept_start⟩ as
  exact hall.mono fun _ h => h.choose_spec.2.tight h.choose_spec.1

end Threads

end MpscQueue

end XiaoNet
