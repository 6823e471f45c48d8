import XiaoNet.Utils.MsgBuffer

/-!
# The loop of `sendNodeInLoop`

`TcpConnectionImpl::sendNodeInLoop` for a node whose bytes come out of `getData`, as every node
does on a connection with TLS. What `writeInLoop` takes of the bytes it is given is all of them,
a part, or nothing when the socket would block; it does not fail here.

- `NodeClass`: the virtual functions of a node that the loop calls.
- `Sender`: a node and the bytes that `writeInLoop` has taken of it.
- `sendNodeInLoop`: a call, for the list of what its writes take; a write that is not in the list
  would block. It returns by how much `sent` has grown.
- `sendNodeCalls_rule`: what every round keeps holds after every sequence of calls.
-/

namespace XiaoNet

/-- How much a node that reads ahead asks for at most. -/
def kMaxSendFileBufferSize : Nat := 16 * 1024

/-- The virtual functions that `sendNodeInLoop` calls. -/
structure NodeClass (ν : Type) where
  /-- `getData`: the bytes, and the node it leaves. -/
  getData : ν → Except Fault (List Byte × ν)
  retrieve : ν → Nat → ν
  remainingBytes : ν → Int
  done : ν → ν

/-- A node that is being sent. -/
structure Sender (ν : Type) where
  node : ν
  sent : List Byte

variable {ν : Type}

/-- One round of the loop, and whether there is a next one. -/
def sendRound (m : NodeClass ν) (s : Sender ν) (taken : Nat) :
    Except Fault (Sender ν × Bool) := do
  let (data, node) ← m.getData s.node
  if data.length = 0 then .ok (⟨m.done node, s.sent⟩, false)
  else
    let nWritten := min taken data.length
    .ok (⟨m.retrieve node nWritten, s.sent ++ data.take nWritten⟩, !(nWritten < data.length))

/-- `TcpConnectionImpl::sendNodeInLoop`. -/
def sendNodeInLoop (m : NodeClass ν) : List Nat → Sender ν → Except Fault (Sender ν)
  | [], s =>
    if m.remainingBytes s.node > 0 then do
      let (s, _) ← sendRound m s 0
      .ok s
    else .ok s
  | taken :: rest, s =>
    if m.remainingBytes s.node > 0 then do
      let (s, next) ← sendRound m s taken
      if next then sendNodeInLoop m rest s else .ok s
    else .ok s

/-- One call after the other. -/
def sendNodeCalls (m : NodeClass ν) (calls : List (List Nat)) (s : Sender ν) :
    Except Fault (Sender ν) :=
  calls.foldlM (fun s taken => sendNodeInLoop m taken s) s

/-- Every round succeeds and keeps `I`, for an empty `getData` and for every part of one that
may be taken. -/
def KeptByRounds (m : NodeClass ν) (I : Sender ν → Prop) : Prop :=
  ∀ s, I s → m.remainingBytes s.node > 0 → ∃ data node, m.getData s.node = .ok (data, node) ∧
    (data = [] → I ⟨m.done node, s.sent⟩) ∧
    ∀ n, n ≤ data.length → data ≠ [] → I ⟨m.retrieve node n, s.sent ++ data.take n⟩

variable {m : NodeClass ν} {I : Sender ν → Prop}

theorem KeptByRounds.round (h : KeptByRounds m I) {s : Sender ν} (hs : I s)
    (hpos : m.remainingBytes s.node > 0) (taken : Nat) :
    ∃ s' next, sendRound m s taken = .ok (s', next) ∧ I s' := by
  obtain ⟨data, node, hdata, hempty, hpart⟩ := h s hs hpos
  rw [sendRound, hdata, ok_bind]
  dsimp only
  by_cases hnil : data.length = 0
  · rw [if_pos hnil]
    exact ⟨_, _, rfl, hempty (List.length_eq_zero_iff.mp hnil)⟩
  · rw [if_neg hnil]
    refine ⟨_, _, rfl, hpart _ (Nat.min_le_right _ _) fun heq => hnil ?_⟩
    rw [heq]
    rfl

theorem KeptByRounds.call (h : KeptByRounds m I) (taken : List Nat) {s : Sender ν} (hs : I s) :
    ∃ s', sendNodeInLoop m taken s = .ok s' ∧ I s' := by
  induction taken generalizing s with
  | nil =>
    rw [sendNodeInLoop]
    split
    case isFalse => exact ⟨s, rfl, hs⟩
    case isTrue hpos =>
      obtain ⟨s', next, hround, hs'⟩ := h.round hs hpos 0
      rw [hround, ok_bind]
      exact ⟨s', rfl, hs'⟩
  | cons n taken ih =>
    rw [sendNodeInLoop]
    split
    case isFalse => exact ⟨s, rfl, hs⟩
    case isTrue hpos =>
      obtain ⟨s', next, hround, hs'⟩ := h.round hs hpos n
      rw [hround, ok_bind]
      cases next with
      | true => exact ih hs'
      | false => exact ⟨s', rfl, hs'⟩

/-- **The loop**: what every round keeps holds after every sequence of calls, none of which
fails. -/
theorem sendNodeCalls_rule (h : KeptByRounds m I) (calls : List (List Nat)) {s : Sender ν}
    (hs : I s) : ∃ s', sendNodeCalls m calls s = .ok s' ∧ I s' := by
  induction calls generalizing s with
  | nil => exact ⟨s, rfl, hs⟩
  | cons taken calls ih =>
    obtain ⟨s₁, hcall, hs₁⟩ := h.call taken hs
    obtain ⟨s₂, hrest, hs₂⟩ := ih hs₁
    refine ⟨s₂, ?_, hs₂⟩
    rw [sendNodeCalls, List.foldlM_cons, hcall, ok_bind]
    exact hrest

end XiaoNet
