import Mathlib.Data.List.Nodup
import XiaoNet.Lib.GappedChain
import XiaoNet.Utils.LockFreeQueue

/-!
# `MpscQueue` is a queue

The nodes from `tail_` to `head_` are a chain with a gap for every producer between its
exchange of `head_` and its store of `next_` (`GappedChain`).

- `Inv s rest`: `rest` are the items that have been put in and not taken out; one lemma
  `inv_…` for each atomic operation.
- `items_step`: every atomic operation is one of a list, used as a queue, or none.
- `linearizable`: in every interleaving the items come out in the order of the exchanges,
  none is missed for good and no deleted node is touched.
-/

namespace XiaoNet

namespace MpscQueue

open GappedChain

universe u v

variable {ι : Type u} {T : Type v}

/-- The link of a node; a node that is not there has none. -/
def next (q : MpscQueue T) (x : NodeId) : Option NodeId := (q.nodes x).bind BufferNode.next

namespace Threads

/-- The store of the link from `a` to `b` is still to come. -/
def gap (s : Threads ι T) (a b : NodeId) : Prop := ∃ p, s.producers p = .exchanged b a

/-- The input of a call that has not reached its exchange. -/
def pending : Producer T → List T
  | .created _ input => [input]
  | _ => []

variable [DecidableEq ι]

/-- The items of one producer in the order of the exchanges. -/
def enqueuedBy (s : Threads ι T) (p : ι) : List T :=
  (s.enqueued.filter (·.producer = p)).map Entry.input

/-- Between two atomic operations `rest` is what the queue holds. -/
structure Inv (s : Threads ι T) (rest : List (Entry ι T)) : Prop where
  split : ∃ taken, s.enqueued = taken ++ rest ∧ s.dequeued = taken.map Entry.input
  nodup : (s.queue.tail :: rest.map Entry.node).Nodup
  chain : Chain s.queue.next s.gap s.queue.tail (rest.map Entry.node)
  head_eq : s.queue.head = last s.queue.tail (rest.map Entry.node)
  tail_live : ∃ n, s.queue.nodes s.queue.tail = some n
  data : ∀ e ∈ rest, ∃ n, s.queue.nodes e.node = some n ∧ n.dataPtr = some e.input
  fresh : ∀ x n, s.queue.nodes x = some n → x < s.queue.fresh
  created : ∀ p node input, s.producers p = .created node input →
    s.queue.nodes node = some ⟨some input, none⟩ ∧ node ∉ s.queue.tail :: rest.map Entry.node
  created_inj : ∀ p p' node input input', s.producers p = .created node input →
    s.producers p' = .created node input' → p = p'
  exchanged : ∀ p node prevhead, s.producers p = .exchanged node prevhead →
    s.queue.next prevhead = none ∧ ∃ (i : Nat) (e : Entry ι T), rest[i]? = some e ∧
      e.node = node ∧ e.producer = p ∧
      (s.queue.tail :: rest.map Entry.node)[i]? = some prevhead
  loaded : ∀ tail next, s.consumer = .loaded tail next →
    tail = s.queue.tail ∧ s.queue.next tail = some next
  inputs : ∀ p, s.inputs p = s.enqueuedBy p ++ pending (s.producers p)
  no_fault : s.fault = false

variable {s : Threads ι T} {rest : List (Entry ι T)}

theorem inv_start : (start : Threads ι T).Inv [] where
  split := ⟨[], rfl, rfl⟩
  nodup := List.nodup_singleton _
  chain := rfl
  head_eq := rfl
  tail_live := ⟨⟨none, none⟩, rfl⟩
  data _ he := nomatch he
  fresh x n hx := by
    have hzero : x = 0 := by
      by_contra hne
      have hnone : (start : Threads ι T).queue.nodes x = none :=
        Function.update_of_ne hne _ (fun _ : NodeId => (none : Option (BufferNode T)))
      rw [hnone] at hx
      cases hx
    rw [hzero]
    exact Nat.one_pos
  created _ _ _ h := nomatch h
  created_inj _ _ _ _ _ h := nomatch h
  exchanged _ _ _ h := nomatch h
  loaded _ _ h := nomatch h
  inputs _ := rfl
  no_fault := rfl

/-! ## Nodes and producers -/

theorem Inv.mem_live (h : s.Inv rest) {x : NodeId}
    (hx : x ∈ s.queue.tail :: rest.map Entry.node) : ∃ n, s.queue.nodes x = some n := by
  rcases List.mem_cons.mp hx with rfl | hmem
  · exact h.tail_live
  · obtain ⟨e, he, rfl⟩ := List.mem_map.mp hmem
    obtain ⟨n, hn, -⟩ := h.data e he
    exact ⟨n, hn⟩

/-- A node that is not there yet is nowhere in the chain. -/
theorem Inv.not_mem_of_ge (h : s.Inv rest) {x : NodeId} (hx : s.queue.fresh ≤ x) :
    x ∉ s.queue.tail :: rest.map Entry.node := by
  intro hmem
  obtain ⟨n, hn⟩ := h.mem_live hmem
  exact Nat.lt_irrefl _ (Nat.lt_of_lt_of_le (h.fresh x n hn) hx)

/-- The node before the one a producer has put in is in the chain. -/
theorem Inv.prevhead_mem (h : s.Inv rest) {p : ι} {node prevhead : NodeId}
    (hp : s.producers p = .exchanged node prevhead) :
    prevhead ∈ s.queue.tail :: rest.map Entry.node := by
  obtain ⟨-, i, e, -, -, -, hprev⟩ := h.exchanged p node prevhead hp
  exact List.mem_of_getElem? hprev

/-- Two producers never wait to store the same link. -/
theorem Inv.exchanged_inj (h : s.Inv rest) {p p' : ι} {node node' prevhead : NodeId}
    (hp : s.producers p = .exchanged node prevhead)
    (hp' : s.producers p' = .exchanged node' prevhead) : p = p' := by
  obtain ⟨-, i, e, he, -, hproducer, hprev⟩ := h.exchanged p node prevhead hp
  obtain ⟨-, i', e', he', -, hproducer', hprev'⟩ := h.exchanged p' node' prevhead hp'
  have hi := index_unique h.nodup hprev hprev'
  rw [hi, he', Option.some.injEq] at he
  rw [← hproducer, ← hproducer', he]

/-- After an update one state is new and the others are as before. -/
theorem update_cases {α : Type v} {f : ι → α} {p p' : ι} {x y : α}
    (h : Function.update f p x p' = y) : (p' = p ∧ x = y) ∨ (p' ≠ p ∧ f p' = y) := by
  by_cases hp : p' = p
  · subst hp
    rw [Function.update_self] at h
    exact .inl ⟨rfl, h⟩
  · rw [Function.update_of_ne hp] at h
    exact .inr ⟨hp, h⟩

/-- A gap stays open while another producer moves on. -/
theorem gap_update {p : ι} {x : Producer T} {a b : NodeId} (hgap : s.gap a b)
    (hp : s.producers p ≠ .exchanged b a) :
    ∃ p', Function.update s.producers p x p' = .exchanged b a := by
  obtain ⟨p', hp'⟩ := hgap
  have hpne : p' ≠ p := fun heq => hp (heq ▸ hp')
  exact ⟨p', (Function.update_of_ne hpne _ _).trans hp'⟩

/-- A producer that moves on to something else than a new node leaves those of the others. -/
theorem Inv.created_inj_update (h : s.Inv rest) {p : ι} {x : Producer T}
    (hx : ∀ node input, x ≠ .created node input) {p₁ p₂ : ι} {node : NodeId} {input₁ input₂ : T}
    (h₁ : Function.update s.producers p x p₁ = .created node input₁)
    (h₂ : Function.update s.producers p x p₂ = .created node input₂) : p₁ = p₂ := by
  rcases update_cases h₁ with ⟨-, heq⟩ | ⟨-, h₁'⟩
  · exact absurd heq (hx node input₁)
  · rcases update_cases h₂ with ⟨-, heq⟩ | ⟨-, h₂'⟩
    · exact absurd heq (hx node input₂)
    · exact h.created_inj p₁ p₂ node input₁ input₂ h₁' h₂'

/-! ## `enqueue` -/

theorem next_newBufferNode {q : MpscQueue T} (input : T) {x : NodeId} (hx : x ≠ q.fresh) :
    (q.newBufferNode input).next x = q.next x := by
  unfold next newBufferNode
  dsimp only
  rw [Function.update_of_ne hx]

/-- A new node is made outside the chain. -/
theorem inv_created (h : s.Inv rest) {p : ι} (hp : s.producers p = .idle) (input : T) :
    Inv { s with
      queue := s.queue.newBufferNode input
      producers := Function.update s.producers p (.created s.queue.fresh input)
      inputs := Function.update s.inputs p (s.inputs p ++ [input]) } rest := by
  -- the new node is one that the heap has never given out
  have hne : ∀ x n, s.queue.nodes x = some n → x ≠ s.queue.fresh :=
    fun x n hx => Nat.ne_of_lt (h.fresh x n hx)
  have hold : ∀ x n, s.queue.nodes x = some n →
      (s.queue.newBufferNode input).nodes x = some n := by
    intro x n hx
    exact (Function.update_of_ne (hne x n hx) _ _).trans hx
  have hnext : ∀ x ∈ s.queue.tail :: rest.map Entry.node,
      (s.queue.newBufferNode input).next x = s.queue.next x := by
    intro x hx
    obtain ⟨n, hn⟩ := h.mem_live hx
    exact next_newBufferNode input (hne x n hn)
  constructor
  case split => exact h.split
  case nodup => exact h.nodup
  case chain =>
    exact h.chain.congr hnext fun x _ y _ hgap => gap_update hgap (by rw [hp]; simp)
  case head_eq => exact h.head_eq
  case tail_live =>
    obtain ⟨n, hn⟩ := h.tail_live
    exact ⟨n, hold _ n hn⟩
  case data =>
    intro e he
    obtain ⟨n, hn, hdata⟩ := h.data e he
    exact ⟨n, hold _ n hn, hdata⟩
  case fresh =>
    intro x n hx
    rcases update_cases hx with ⟨rfl, -⟩ | ⟨-, hx'⟩
    · exact Nat.lt_succ_self _
    · exact Nat.lt_succ_of_lt (h.fresh x n hx')
  case created =>
    -- the node of `p` is its own until the exchange
    intro p' node input' hp'
    rcases update_cases hp' with ⟨rfl, heq⟩ | ⟨-, hp''⟩
    · cases heq
      exact ⟨Function.update_self _ _ _, h.not_mem_of_ge (Nat.le_refl _)⟩
    · obtain ⟨hnode, hmem⟩ := h.created p' node input' hp''
      exact ⟨hold _ _ hnode, hmem⟩
  case created_inj =>
    intro p₁ p₂ node input₁ input₂ h₁ h₂
    rcases update_cases h₁ with ⟨rfl, heq⟩ | ⟨-, h₁'⟩
    · rcases update_cases h₂ with ⟨rfl, -⟩ | ⟨-, h₂'⟩
      · rfl
      · cases heq
        exact absurd rfl (hne _ _ (h.created p₂ _ input₂ h₂').1)
    · rcases update_cases h₂ with ⟨rfl, heq⟩ | ⟨-, h₂'⟩
      · cases heq
        exact absurd rfl (hne _ _ (h.created p₁ _ input₁ h₁').1)
      · exact h.created_inj p₁ p₂ node input₁ input₂ h₁' h₂'
  case exchanged =>
    intro p' node prevhead hp'
    rcases update_cases hp' with ⟨-, heq⟩ | ⟨-, hp''⟩
    · cases heq
    · obtain ⟨hnone, hrest⟩ := h.exchanged p' node prevhead hp''
      exact ⟨(hnext _ (h.prevhead_mem hp'')).trans hnone, hrest⟩
  case loaded =>
    intro tail next hc
    obtain ⟨rfl, hlink⟩ := h.loaded tail next hc
    exact ⟨rfl, (hnext _ List.mem_cons_self).trans hlink⟩
  case inputs =>
    intro p'
    show Function.update s.inputs p _ p'
      = s.enqueuedBy p' ++ pending (Function.update s.producers p _ p')
    by_cases hpne : p' = p
    · subst hpne
      rw [Function.update_self, Function.update_self, h.inputs, hp]
      show s.enqueuedBy p' ++ [] ++ [input] = s.enqueuedBy p' ++ [input]
      rw [List.append_nil]
    · rw [Function.update_of_ne hpne, Function.update_of_ne hpne]
      exact h.inputs p'
  case no_fault => exact h.no_fault

theorem inv_enqueue (h : s.Inv rest) (p : ι) (input : T) :
    (s.step (.enqueue p input)).Inv rest := by
  cases hp : s.producers p with
  | idle =>
    simp only [step, hp]
    exact inv_created h hp input
  | created node input' =>
    simp only [step, hp]
    exact h
  | exchanged node prevhead =>
    simp only [step, hp]
    exact h

/-- The exchange puts the node behind the last one and leaves a gap between them. -/
theorem inv_exchanged (h : s.Inv rest) {p : ι} {node : NodeId} {input : T}
    (hp : s.producers p = .created node input) :
    Inv { s with
      queue := { s.queue with head := node }
      producers := Function.update s.producers p (.exchanged node s.queue.head)
      enqueued := s.enqueued ++ [⟨p, node, input⟩] } (rest ++ [⟨p, node, input⟩]) := by
  obtain ⟨hnode, hmem⟩ := h.created p node input hp
  have hmap : (rest ++ [Entry.mk p node input]).map Entry.node = rest.map Entry.node ++ [node] := by
    rw [List.map_append]
    rfl
  have hnext : s.queue.next node = none := by
    unfold next
    rw [hnode]
    rfl
  constructor
  case split =>
    obtain ⟨taken, henqueued, hdequeued⟩ := h.split
    refine ⟨taken, ?_, hdequeued⟩
    show s.enqueued ++ _ = taken ++ (rest ++ _)
    rw [henqueued, List.append_assoc]
  case nodup =>
    rw [hmap, ← List.cons_append]
    refine List.nodup_append.mpr ⟨h.nodup, List.nodup_singleton _, fun a ha b hb hab => ?_⟩
    rw [List.mem_singleton.mp hb] at hab
    exact hmem (hab ▸ ha)
  case chain =>
    -- the old gaps stay, and the new one belongs to `p`
    rw [hmap]
    refine h.chain.push hnext (fun x y hgap => gap_update hgap (by rw [hp]; simp)) ?_
    refine ⟨p, (Function.update_self _ _ _).trans ?_⟩
    rw [h.head_eq]
  case head_eq =>
    rw [hmap]
    exact (last_concat _ _ _).symm
  case tail_live => exact h.tail_live
  case data =>
    intro e he
    rcases List.mem_append.mp he with hold | hnew
    · exact h.data e hold
    · rw [List.mem_singleton.mp hnew]
      exact ⟨_, hnode, rfl⟩
  case fresh => exact h.fresh
  case created =>
    intro p' node' input' hp'
    rcases update_cases hp' with ⟨-, heq⟩ | ⟨hpne, hp''⟩
    · cases heq
    · obtain ⟨hnode', hmem'⟩ := h.created p' node' input' hp''
      refine ⟨hnode', ?_⟩
      rw [hmap, ← List.cons_append]
      intro hin
      rcases List.mem_append.mp hin with hin | hin
      · exact hmem' hin
      · rw [List.mem_singleton.mp hin] at hp''
        exact hpne (h.created_inj p' p node input' input hp'' hp)
  case created_inj =>
    exact fun _ _ _ _ _ => h.created_inj_update (by simp)
  case exchanged =>
    -- the link that `p` owes goes behind the old head, which nothing follows
    intro p' node' prevhead hp'
    rw [hmap, ← List.cons_append]
    rcases update_cases hp' with ⟨rfl, heq⟩ | ⟨-, hp''⟩
    · cases heq
      refine ⟨?_, rest.length, ⟨p', node, input⟩, List.getElem?_concat_length, rfl, rfl, ?_⟩
      · show s.queue.next s.queue.head = none
        rw [h.head_eq]
        exact h.chain.last_eq_none
      · rw [h.head_eq, ← getElem?_last, List.length_map]
        exact List.getElem?_append_left (by simp)
    · obtain ⟨hnone, i, e, he, hnode', hproducer, hprev⟩ := h.exchanged p' node' prevhead hp''
      have hi := (List.getElem?_eq_some_iff.mp he).1
      refine ⟨hnone, i, e, ?_, hnode', hproducer, ?_⟩
      · rw [List.getElem?_append_left hi, he]
      · rw [List.getElem?_append_left (by simp; omega), hprev]
  case loaded => exact h.loaded
  case inputs =>
    -- the input of `p` is not pending any more, it is in the queue
    intro p'
    have hby : ∀ p', enqueuedBy { s with enqueued := s.enqueued ++ [⟨p, node, input⟩] } p'
        = s.enqueuedBy p' ++ if p = p' then [input] else [] := by
      intro p'
      unfold enqueuedBy
      by_cases hpp : p = p'
      · simp [hpp]
      · simp [hpp]
    show s.inputs p' = enqueuedBy { s with enqueued := s.enqueued ++ [⟨p, node, input⟩] } p'
      ++ pending (Function.update s.producers p _ p')
    rw [h.inputs p', hby p']
    by_cases hpp : p' = p
    · subst hpp
      rw [Function.update_self, hp, if_pos rfl]
      exact (List.append_nil _).symm
    · rw [Function.update_of_ne hpp, if_neg (Ne.symm hpp), List.append_nil]
  case no_fault => exact h.no_fault

theorem inv_exchange (h : s.Inv rest) (p : ι) : ∃ rest', (s.step (.exchange p)).Inv rest' := by
  cases hp : s.producers p with
  | idle =>
    simp only [step, hp]
    exact ⟨rest, h⟩
  | created node input =>
    simp only [step, hp]
    exact ⟨_, inv_exchanged h hp⟩
  | exchanged node prevhead =>
    simp only [step, hp]
    exact ⟨rest, h⟩

/-- The store of a link, as far as the chain sees it. -/
theorem next_storeNext (q : MpscQueue T) (prevhead node : NodeId) (n : BufferNode T) :
    next { q with nodes := Function.update q.nodes prevhead (some { n with next := some node }) }
      = Function.update q.next prevhead (some node) := by
  funext x
  unfold next
  dsimp only
  by_cases hx : x = prevhead
  · rw [hx, Function.update_self, Function.update_self]
    rfl
  · rw [Function.update_of_ne hx, Function.update_of_ne hx]

/-- The store of the link closes the gap of its producer and no other. -/
theorem inv_linked (h : s.Inv rest) {p : ι} {node prevhead : NodeId}
    (hp : s.producers p = .exchanged node prevhead) {n : BufferNode T}
    (hn : s.queue.nodes prevhead = some n) :
    Inv { s with
      queue := { s.queue with
        nodes := Function.update s.queue.nodes prevhead (some { n with next := some node }) }
      producers := Function.update s.producers p .idle } rest := by
  obtain ⟨hnone, i, e, he, hnode, -, hprev⟩ := h.exchanged p node prevhead hp
  have hnext := next_storeNext s.queue prevhead node n
  -- no other producer stores to the same node
  have hothers : ∀ p' node' prevhead',
      Function.update s.producers p .idle p' = .exchanged node' prevhead' →
      s.producers p' = .exchanged node' prevhead' ∧ prevhead' ≠ prevhead := by
    intro p' node' prevhead' hp'
    rcases update_cases hp' with ⟨-, heq⟩ | ⟨hpne, hp''⟩
    · cases heq
    · refine ⟨hp'', fun heq => hpne ?_⟩
      rw [heq] at hp''
      exact h.exchanged_inj hp'' hp
  constructor
  case split => exact h.split
  case nodup => exact h.nodup
  case chain =>
    -- the gap that belongs to `p` is closed
    rw [hnext]
    refine h.chain.fill h.nodup hprev ?_ fun x y hx hgap => gap_update hgap ?_
    · rw [List.getElem?_map, he, ← hnode]
      rfl
    · rw [hp]
      intro heq
      cases heq
      exact hx rfl
  case head_eq => exact h.head_eq
  case tail_live =>
    obtain ⟨m, hm⟩ := h.tail_live
    show ∃ n', Function.update s.queue.nodes prevhead _ s.queue.tail = some n'
    by_cases htail : s.queue.tail = prevhead
    · rw [htail, Function.update_self]
      exact ⟨_, rfl⟩
    · rw [Function.update_of_ne htail]
      exact ⟨m, hm⟩
  case data =>
    intro e' he'
    obtain ⟨m, hm, hdata⟩ := h.data e' he'
    show ∃ n', Function.update s.queue.nodes prevhead _ e'.node = some n' ∧ _
    by_cases hprev' : e'.node = prevhead
    · rw [hprev', hn, Option.some.injEq] at hm
      rw [hprev', Function.update_self]
      refine ⟨_, rfl, ?_⟩
      rw [← hdata, ← hm]
    · rw [Function.update_of_ne hprev']
      exact ⟨m, hm, hdata⟩
  case fresh =>
    intro x m hx
    rcases update_cases hx with ⟨rfl, -⟩ | ⟨-, hx'⟩
    · exact h.fresh x n hn
    · exact h.fresh x m hx'
  case created =>
    intro p' node' input' hp'
    rcases update_cases hp' with ⟨-, heq⟩ | ⟨-, hp''⟩
    · cases heq
    · obtain ⟨hnode', hmem⟩ := h.created p' node' input' hp''
      have hne : node' ≠ prevhead := fun heq => hmem (heq ▸ h.prevhead_mem hp)
      exact ⟨(Function.update_of_ne hne _ _).trans hnode', hmem⟩
  case created_inj =>
    exact fun _ _ _ _ _ => h.created_inj_update (by simp)
  case exchanged =>
    intro p' node' prevhead' hp'
    obtain ⟨hp'', hne⟩ := hothers p' node' prevhead' hp'
    obtain ⟨hnone', hrest⟩ := h.exchanged p' node' prevhead' hp''
    refine ⟨?_, hrest⟩
    rw [hnext, Function.update_of_ne hne]
    exact hnone'
  case loaded =>
    -- the link that the consumer has seen was there before
    intro tail nx hc
    obtain ⟨rfl, hlink⟩ := h.loaded tail nx hc
    refine ⟨rfl, ?_⟩
    have hne : s.queue.tail ≠ prevhead := by
      intro heq
      rw [heq, hnone] at hlink
      cases hlink
    rw [hnext, Function.update_of_ne hne]
    exact hlink
  case inputs =>
    intro p'
    show s.inputs p' = s.enqueuedBy p' ++ pending (Function.update s.producers p .idle p')
    by_cases hpne : p' = p
    · rw [hpne, Function.update_self, h.inputs p, hp]
      rfl
    · rw [Function.update_of_ne hpne]
      exact h.inputs p'
  case no_fault => exact h.no_fault

theorem inv_link (h : s.Inv rest) (p : ι) : (s.step (.link p)).Inv rest := by
  cases hp : s.producers p with
  | idle =>
    simp only [step, hp]
    exact h
  | created node input =>
    simp only [step, hp]
    exact h
  | exchanged node prevhead =>
    obtain ⟨n, hn⟩ := h.mem_live (h.prevhead_mem hp)
    simp only [step, hp, storeNext, hn, Option.map_some]
    exact inv_linked h hp hn

/-! ## `dequeue` -/

/-- The tail is there to be read. -/
theorem Inv.loadNext_eq (h : s.Inv rest) : s.queue.loadNext = some (s.queue.next s.queue.tail) := by
  obtain ⟨n, hn⟩ := h.tail_live
  unfold loadNext next
  rw [hn]
  rfl

theorem inv_loaded (h : s.Inv rest) {nx : NodeId} (hnx : s.queue.next s.queue.tail = some nx) :
    Inv { s with consumer := .loaded s.queue.tail nx } rest :=
  { h with
    loaded := by
      intro tail nx' hc
      cases hc
      exact ⟨rfl, hnx⟩ }

theorem inv_dequeue (h : s.Inv rest) : (s.step .dequeue).Inv rest := by
  cases hc : s.consumer with
  | loaded tail nx =>
    simp only [step, hc]
    exact h
  | idle =>
    cases hnx : s.queue.next s.queue.tail with
    | none =>
      simp only [step, hc, h.loadNext_eq, hnx]
      exact h
    | some nx =>
      simp only [step, hc, h.loadNext_eq, hnx]
      exact inv_loaded h hnx

/-- What `dequeue` finds behind the tail is the first of the items. -/
theorem Inv.front (h : s.Inv rest) {nx : NodeId} (hnx : s.queue.next s.queue.tail = some nx) :
    ∃ e rest', rest = e :: rest' ∧ e.node = nx ∧
      Chain s.queue.next s.gap nx (rest'.map Entry.node) := by
  obtain ⟨l, hl, hchain⟩ := h.chain.pop hnx
  cases rest with
  | nil => cases hl
  | cons e rest' =>
    obtain ⟨hnode, htail⟩ := List.cons.inj hl
    subst htail
    exact ⟨e, rest', rfl, hnode, hchain⟩

/-- The item is moved out and the old tail deleted. -/
theorem inv_taken {e : Entry ι T} (h : s.Inv (e :: rest))
    (hnx : s.queue.next s.queue.tail = some e.node)
    (hchain : Chain s.queue.next s.gap e.node (rest.map Entry.node)) {n : BufferNode T}
    (hn : s.queue.nodes e.node = some n) :
    Inv { s with
      queue := { s.queue with
        nodes := Function.update
          (Function.update s.queue.nodes e.node (some { n with dataPtr := none }))
          s.queue.tail none
        tail := e.node }
      consumer := .idle
      dequeued := s.dequeued ++ [e.input] } rest := by
  obtain ⟨htail, hnodup⟩ := List.nodup_cons.mp h.nodup
  have hmap : (e :: rest).map Entry.node = e.node :: rest.map Entry.node := rfl
  rw [hmap] at htail hnodup
  -- the old tail is deleted, and nothing that is left in the chain is that node
  have hne : ∀ x ∈ e.node :: rest.map Entry.node, x ≠ s.queue.tail :=
    fun x hx heq => htail (heq ▸ hx)
  have hsame : ∀ x, x ≠ s.queue.tail → x ≠ e.node →
      Function.update (Function.update s.queue.nodes e.node (some { n with dataPtr := none }))
        s.queue.tail none x = s.queue.nodes x := by
    intro x hx hx'
    rw [Function.update_of_ne hx, Function.update_of_ne hx']
  -- the new dummy has given up its data and kept its link
  have hfront : Function.update (Function.update s.queue.nodes e.node
      (some { n with dataPtr := none })) s.queue.tail none e.node
        = some { n with dataPtr := none } := by
    rw [Function.update_of_ne (hne _ List.mem_cons_self), Function.update_self]
  have hnext : ∀ x, x ≠ s.queue.tail →
      next { s.queue with
        nodes := Function.update
          (Function.update s.queue.nodes e.node (some { n with dataPtr := none }))
          s.queue.tail none
        tail := e.node } x = s.queue.next x := by
    intro x hx
    unfold next
    dsimp only
    by_cases hx' : x = e.node
    · rw [hx', hfront, hn]
      rfl
    · rw [hsame x hx hx']
  constructor
  case split =>
    obtain ⟨taken, henqueued, hdequeued⟩ := h.split
    refine ⟨taken ++ [e], ?_, ?_⟩
    · rw [List.append_assoc]
      exact henqueued
    · show s.dequeued ++ [e.input] = _
      rw [hdequeued, List.map_append]
      rfl
  case nodup => exact hnodup
  case chain => exact hchain.congr (fun x hx => hnext x (hne x hx)) fun x _ y _ hgap => hgap
  case head_eq => exact h.head_eq
  case tail_live => exact ⟨_, hfront⟩
  case data =>
    intro e' he'
    obtain ⟨m, hm, hdata⟩ := h.data e' (List.mem_cons_of_mem e he')
    have hmem : e'.node ∈ rest.map Entry.node := List.mem_map_of_mem he'
    have hne' : e'.node ≠ e.node := fun heq => (List.nodup_cons.mp hnodup).1 (heq ▸ hmem)
    refine ⟨m, ?_, hdata⟩
    exact (hsame _ (hne _ (List.mem_cons_of_mem _ hmem)) hne').trans hm
  case fresh =>
    intro x m hx
    rcases update_cases hx with ⟨-, heq⟩ | ⟨-, hx'⟩
    · cases heq
    · rcases update_cases hx' with ⟨rfl, -⟩ | ⟨-, hx''⟩
      · exact h.fresh _ n hn
      · exact h.fresh x m hx''
  case created =>
    intro p node input hp
    obtain ⟨hnode, hmem⟩ := h.created p node input hp
    rw [hmap, List.mem_cons, not_or] at hmem
    refine ⟨(hsame node hmem.1 fun heq => hmem.2 (heq ▸ List.mem_cons_self)).trans hnode, ?_⟩
    exact hmem.2
  case created_inj => exact h.created_inj
  case exchanged =>
    intro p node prevhead hp
    obtain ⟨hnone, i, e', he', hnode, hproducer, hprev⟩ := h.exchanged p node prevhead hp
    cases i with
    | zero =>
      -- the link behind the old tail is there, so nobody has to store it
      have heq : s.queue.tail = prevhead := Option.some.inj hprev
      rw [← heq, hnx] at hnone
      cases hnone
    | succ i =>
      have hprev' : (e.node :: rest.map Entry.node)[i]? = some prevhead := hprev
      refine ⟨?_, i, e', he', hnode, hproducer, hprev'⟩
      rw [hnext _ (hne _ (List.mem_of_getElem? hprev'))]
      exact hnone
  case loaded =>
    intro tail nx hc
    cases hc
  case inputs => exact h.inputs
  case no_fault => exact h.no_fault

theorem inv_take (h : s.Inv rest) : ∃ rest', (s.step .take).Inv rest' := by
  cases hc : s.consumer with
  | idle =>
    simp only [step, hc]
    exact ⟨rest, h⟩
  | loaded tail nx =>
    obtain ⟨rfl, hnx⟩ := h.loaded tail nx hc
    obtain ⟨e, rest', rfl, rfl, hchain⟩ := h.front hnx
    obtain ⟨n, hn, hdata⟩ := h.data e List.mem_cons_self
    simp only [step, hc, takeNext, hn, hdata, Option.map_some]
    exact ⟨rest', inv_taken h hnx hchain hn⟩

theorem inv_empty (h : s.Inv rest) : (s.step .empty).Inv rest := by
  cases hc : s.consumer with
  | idle =>
    simp only [step, hc, h.loadNext_eq]
    exact h
  | loaded tail nx =>
    simp only [step, hc]
    exact h

theorem inv_step (h : ∃ rest, s.Inv rest) (a : Act ι T) : ∃ rest, (s.step a).Inv rest := by
  obtain ⟨rest, h⟩ := h
  cases a with
  | enqueue p input => exact ⟨rest, inv_enqueue h p input⟩
  | exchange p => exact inv_exchange h p
  | link p => exact ⟨rest, inv_link h p⟩
  | dequeue => exact ⟨rest, inv_dequeue h⟩
  | take => exact inv_take h
  | empty => exact ⟨rest, inv_empty h⟩

/-! ## What the operations do -/

theorem Inv.step_link (h : s.Inv rest) {p : ι} {node prevhead : NodeId}
    (hp : s.producers p = .exchanged node prevhead) :
    ∃ queue, s.step (.link p)
      = { s with queue := queue, producers := Function.update s.producers p .idle } := by
  obtain ⟨n, hn⟩ := h.mem_live (h.prevhead_mem hp)
  simp only [step, hp, storeNext, hn, Option.map_some]
  exact ⟨_, rfl⟩

theorem Inv.step_empty (h : s.Inv rest) : s.step .empty = s := by
  cases hc : s.consumer with
  | idle => simp only [step, hc, h.loadNext_eq]
  | loaded tail nx => simp only [step, hc]

theorem step_dequeue_empty (hc : s.consumer = .idle) (hempty : s.isEmpty = true) :
    s.step .dequeue = s := by
  have hload := eq_of_beq hempty
  simp only [step, hc, hload]

theorem Inv.step_dequeue (h : s.Inv rest) (hc : s.consumer = .idle) (hempty : s.isEmpty = false) :
    ∃ nx, s.step .dequeue = { s with consumer := .loaded s.queue.tail nx } := by
  cases hnx : s.queue.next s.queue.tail with
  | none =>
    have htrue : s.isEmpty = true := by
      unfold isEmpty
      rw [h.loadNext_eq, hnx]
      rfl
    rw [htrue] at hempty
    cases hempty
  | some nx =>
    simp only [step, hc, h.loadNext_eq, hnx]
    exact ⟨nx, rfl⟩

theorem Inv.step_take (h : s.Inv rest) {tail nx : NodeId} (hc : s.consumer = .loaded tail nx) :
    ∃ queue output, s.step .take
      = { s with queue := queue, consumer := .idle, dequeued := s.dequeued ++ [output] } := by
  obtain ⟨rfl, hnx⟩ := h.loaded tail nx hc
  obtain ⟨e, rest', rfl, rfl, -⟩ := h.front hnx
  obtain ⟨n, hn, hdata⟩ := h.data e List.mem_cons_self
  simp only [step, hc, takeNext, hn, hdata, Option.map_some]
  exact ⟨_, _, rfl⟩

/-! ## The abstract queue -/

/-- What is in the queue, as a list: the items put in and not taken out. -/
def items (s : Threads ι T) : List T := (s.enqueued.drop s.dequeued.length).map Entry.input

theorem Inv.items_eq (h : s.Inv rest) : s.items = rest.map Entry.input := by
  obtain ⟨taken, henqueued, hdequeued⟩ := h.split
  rw [items, henqueued, hdequeued, List.length_map, List.drop_left]

/-- **The queue is a list**: an atomic operation leaves it alone, or it is an exchange and puts
an item at the end, or it is the store of `tail_` and takes the first item out. -/
theorem items_step (h : ∃ rest, s.Inv rest) (a : Act ι T) :
    (s.step a).items = s.items ∨
      (∃ p input, a = .exchange p ∧ (s.step a).items = s.items ++ [input]) ∨
      ∃ output, a = .take ∧ s.items = output :: (s.step a).items ∧
        (s.step a).dequeued = s.dequeued ++ [output] := by
  obtain ⟨rest, h⟩ := h
  cases a with
  | enqueue p input => exact .inl ((inv_enqueue h p input).items_eq.trans h.items_eq.symm)
  | link p => exact .inl ((inv_link h p).items_eq.trans h.items_eq.symm)
  | dequeue => exact .inl ((inv_dequeue h).items_eq.trans h.items_eq.symm)
  | empty => exact .inl ((inv_empty h).items_eq.trans h.items_eq.symm)
  | exchange p =>
    -- the exchange is where an input enters the queue
    cases hp : s.producers p with
    | created node input =>
      refine .inr (.inl ⟨p, input, rfl, ?_⟩)
      have hnew := (inv_exchanged h hp).items_eq
      simp only [step, hp, exchange]
      rw [hnew, h.items_eq, List.map_append]
      rfl
    | idle => exact .inl (by simp only [step, hp])
    | exchanged node prevhead => exact .inl (by simp only [step, hp])
  | take =>
    -- and the store of the tail is where it leaves
    cases hc : s.consumer with
    | idle => exact .inl (by simp only [step, hc])
    | loaded tail nx =>
      obtain ⟨rfl, hnx⟩ := h.loaded tail nx hc
      obtain ⟨e, rest', rfl, rfl, hchain⟩ := h.front hnx
      obtain ⟨n, hn, hdata⟩ := h.data e List.mem_cons_self
      refine .inr (.inr ⟨e.input, rfl, ?_⟩)
      have hnew := (inv_taken h hnx hchain hn).items_eq
      simp only [step, hc, takeNext, hn, hdata, Option.map_some]
      rw [hnew, h.items_eq]
      exact ⟨rfl, trivial⟩

/-! ## The queue -/

/-- What holds between any two atomic operations. -/
structure Linearizable (s : Threads ι T) : Prop where
  /-- The items come out in the order of the exchanges of `head_`. -/
  fifo : s.dequeued <+: s.enqueued.map Entry.input
  /-- The items of a producer are put in in the order of its calls; one that has not
  reached its exchange is not in yet. -/
  own_order : ∀ p, s.inputs p = s.enqueuedBy p ++ pending (s.producers p)
  /-- When `dequeue` would return false, nothing is left or the producer of the next item
  has not stored the link to it. -/
  false_only : s.isEmpty = true → s.dequeued.length = s.enqueued.length ∨
    ∃ e prevhead, s.enqueued[s.dequeued.length]? = some e ∧
      s.producers e.producer = .exchanged e.node prevhead
  /-- When all producers have returned, what is left comes out, and then `dequeue` returns
  false. -/
  drains : (∀ p, s.producers p = .idle) → s.consumer = .idle →
    ∃ s', s.drain (s.enqueued.length + 1) = (s', true) ∧
      s'.dequeued = s.enqueued.map Entry.input
  no_fault : s.fault = false

theorem Inv.false_only (h : s.Inv rest) (hempty : s.isEmpty = true) :
    s.dequeued.length = s.enqueued.length ∨
      ∃ e prevhead, s.enqueued[s.dequeued.length]? = some e ∧
        s.producers e.producer = .exchanged e.node prevhead := by
  obtain ⟨taken, henqueued, hdequeued⟩ := h.split
  have hlength : s.dequeued.length = taken.length := by
    rw [hdequeued, List.length_map]
  have hnone : s.queue.next s.queue.tail = none := by
    have hload := eq_of_beq hempty
    rw [h.loadNext_eq] at hload
    exact Option.some.inj hload
  rcases h.chain.stuck hnone with hnil | ⟨b, l, hl, p, hp⟩
  · left
    rw [henqueued, List.map_eq_nil_iff.mp hnil, List.append_nil, hlength]
  · -- the gap is the one before the first item, and it is its producer that has to close it
    right
    obtain ⟨-, i, e, he, hnode, hproducer, hprev⟩ := h.exchanged p b _ hp
    have hzero : i = 0 := index_unique h.nodup hprev (j := 0) rfl
    subst hzero
    refine ⟨e, s.queue.tail, ?_, ?_⟩
    · rw [hlength, henqueued, List.getElem?_append_right (Nat.le_refl _), Nat.sub_self]
      exact he
    · rw [hproducer, hnode]
      exact hp

/-- Without producers at work there is no gap. -/
theorem Inv.drain_spec (h : s.Inv rest) (hidle : ∀ p, s.producers p = .idle)
    (hc : s.consumer = .idle) {fuel : Nat} (hfuel : rest.length < fuel) :
    ∃ s', s.drain fuel = (s', true) ∧ s'.dequeued = s.dequeued ++ rest.map Entry.input := by
  induction rest generalizing s fuel with
  | nil =>
    cases fuel with
    | zero => cases hfuel
    | succ fuel =>
      have hnone : s.queue.next s.queue.tail = none := h.chain
      refine ⟨s, ?_, (List.append_nil _).symm⟩
      simp only [drain, h.loadNext_eq, hnone]
  | cons e rest ih =>
    cases fuel with
    | zero => cases hfuel
    | succ fuel =>
      -- a gap would belong to a producer that is still at work
      have hlink : s.queue.next s.queue.tail = some e.node := by
        rcases h.chain.1 with hlink | ⟨-, p, hp⟩
        · exact hlink
        · rw [hidle p] at hp
          cases hp
      obtain ⟨n, hn, hdata⟩ := h.data e List.mem_cons_self
      have htaken := inv_taken h hlink h.chain.2 hn
      obtain ⟨s', hdrain, hdequeued⟩ :=
        ih htaken hidle rfl (Nat.lt_of_succ_lt_succ hfuel)
      refine ⟨s', ?_, ?_⟩
      · rw [← hdrain]
        simp only [drain, step, hc, h.loadNext_eq, hlink, takeNext, hn, hdata, Option.map_some]
      · rw [hdequeued]
        simp

theorem Inv.linearizable (h : s.Inv rest) : s.Linearizable := by
  obtain ⟨taken, henqueued, hdequeued⟩ := h.split
  constructor
  case fifo =>
    refine ⟨rest.map Entry.input, ?_⟩
    rw [henqueued, hdequeued, List.map_append]
  case own_order => exact h.inputs
  case false_only => exact h.false_only
  case drains =>
    intro hidle hc
    have hfuel : rest.length < s.enqueued.length + 1 := by
      rw [henqueued, List.length_append]
      omega
    obtain ⟨s', hdrain, hall⟩ := h.drain_spec hidle hc hfuel
    refine ⟨s', hdrain, ?_⟩
    rw [hall, henqueued, hdequeued, List.map_append]
  case no_fault => exact h.no_fault

/-- **A linearizable queue.** Whatever the order in which the producers and the consumer
take their atomic steps, the queue is first in, first out. -/
theorem always_linearizable (as : List (Act ι T)) :
    Runs.Always step Linearizable (start : Threads ι T) as :=
  (Runs.always_of_step (I := fun s : Threads ι T => ∃ rest, s.Inv rest) (fun _ a h => inv_step h a)
    ⟨[], inv_start⟩ as).mono fun _ ⟨_, h⟩ => h.linearizable

/-- Two producers, of which the first has not linked its node: nothing can be taken. -/
example :
    (Runs.run step (start : Threads (Fin 2) Nat)
      [.enqueue 0 7, .enqueue 1 8, .exchange 0, .exchange 1, .link 1, .dequeue, .take]).dequeued
      = [] := by decide

end Threads

end MpscQueue

end XiaoNet
