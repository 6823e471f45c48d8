import XiaoNet.Net.TcpConnectionSpec

/-!
# The loop of `writeCallback`

`writeLoop_rule` turns what one round keeps into what the loop keeps, and says how
the loop ends; `writeCallback_rule` does the same for `writeCallback`.
-/

namespace XiaoNet

namespace TcpConnectionImpl

/-- The node in front is an open async stream without bytes. -/
def Waits (c : TcpConnectionImpl) : Prop :=
  ∃ id, c.writeBufferList.head? = some id ∧ (c.nodes id).isAsync = true ∧
    (c.nodes id).available = true ∧ c.remainingBytes id = 0

variable {c : TcpConnectionImpl}

/-- A node that is sent without an error has no negative rest. -/
theorem sendNode_remaining_eq (rs : List SysRet) (id : NodeId)
    (hstop : ¬ ((c.sendNodeInLoop rs id).1.remainingBytes id > 0 ∨
      (c.sendNodeInLoop rs id).2.1 < 0)) :
    (c.sendNodeInLoop rs id).1.remainingBytes id = 0 := by
  obtain ⟨hrem, hn⟩ := not_or.mp hstop
  refine Int.le_antisymm (Int.not_lt.mp hrem) ?_
  -- a data node never counts below 0, a file node only if it did so from the start
  cases hnode : (c.sendNodeInLoop rs id).1.nodes id with
  | data d =>
    rw [remainingBytes, hnode]
    exact d.remaining_nonneg
  | file f' =>
    cases hold : c.nodes id with
    | data d =>
      have hkind := (c.sendNode_sent rs id).kind_eq
      rw [hnode, hold] at hkind
      cases d <;> cases hkind
    | file f =>
      rw [sendNodeInLoop_file c rs hold] at hn hnode hrem ⊢
      by_cases hpos : f.remainingBytes > 0
      · rcases sendFileNode_cases (rs.headD .again) _ hpos with heq | ⟨bytes, n, heq, -⟩
        · rw [heq] at hn
          exact absurd hn (by simp)
        · rw [heq] at hnode ⊢
          unfold fileSent at hnode ⊢
          by_cases hb : bytes = []
          · rw [if_pos hb, remainingBytes]
            show 0 ≤ (c.nodes id).remainingBytes
            rw [hold]
            exact Int.le_of_lt hpos
          · rw [if_neg hb, remainingBytes_setNode_self]
            exact f.remaining_retrieve_nonneg bytes.length
      · rw [sendFileNode_finished c _ id hpos] at hn
        exact absurd hn (by simp)

/-- How the loop ends: with an empty list, in front of a stream that waits (the write
interest is then taken back), or with bytes the kernel does not take. -/
def Ends (I : TcpConnectionImpl → Prop) : TcpConnectionImpl × Bool → Prop
  | (c', true) => I c' ∧ c'.writeBufferList = []
  | (c', false) =>
    (∃ c'', I c'' ∧ c''.Waits ∧ c' = { c'' with ioChannel := c''.ioChannel.disableWriting }) ∨
      (I c' ∧ c'.writeBufferList ≠ [])

/-- **The rule for the loop**: what taking a finished node off and sending the node in
front keep holds at the end. The rounds given are enough: a node takes two, one that
has no bytes takes one. -/
theorem writeLoop_rule {I : TcpConnectionImpl → Prop}
    (hpop : ∀ c id rest, I c → c.writeBufferList = id :: rest → c.remainingBytes id = 0 →
      (!(c.nodes id).isAsync || !(c.nodes id).available) = true →
      I { c with writeBufferList := rest })
    (hsend : ∀ c rs id rest, I c → c.writeBufferList = id :: rest → c.remainingBytes id ≠ 0 →
      I (c.sendNodeInLoop rs id).1)
    (fuel : Nat) (rs : List SysRet) (hI : I c)
    (hfuel : 2 * c.writeBufferList.length + 1 ≤ fuel ∨
      (2 * c.writeBufferList.length ≤ fuel ∧
        ∃ id, c.writeBufferList.head? = some id ∧ c.remainingBytes id = 0)) :
    Ends I (writeLoop fuel rs c) := by
  -- a node takes two rounds at most, one to be sent and one to be popped
  induction fuel generalizing c rs with
  | zero =>
    rcases hfuel with h | ⟨h, id, hhead, -⟩
    · omega
    · have hnil : c.writeBufferList = [] := List.length_eq_zero_iff.mp (by omega)
      rw [hnil] at hhead
      cases hhead
  | succ fuel ih =>
    unfold writeLoop
    cases hlist : c.writeBufferList with
    | nil => exact ⟨hI, hlist⟩
    | cons id rest =>
      rw [hlist, List.length_cons] at hfuel
      dsimp only
      by_cases hrem : c.remainingBytes id = 0
      · rw [if_pos hrem]
        by_cases hdone : (!(c.nodes id).isAsync || !(c.nodes id).available) = true
        · -- the node is finished and popped, one fewer in the list
          rw [if_pos hdone]
          refine ih rs (hpop c id rest hI hlist hrem hdone) (.inl ?_)
          show 2 * rest.length + 1 ≤ fuel
          omega
        · -- an open stream with nothing to send stays in front, and the loop ends
          rw [if_neg hdone]
          have hopen : (c.nodes id).isAsync = true ∧ (c.nodes id).available = true := by
            cases hasync : (c.nodes id).isAsync <;> cases havail : (c.nodes id).available <;>
              simp_all
          exact .inl ⟨c, hI, ⟨id, by rw [hlist]; rfl, hopen.1, hopen.2, hrem⟩, by rw [hlist]⟩
      · rw [if_neg hrem]
        have hsent := hsend c rs id rest hI hlist hrem
        have hlist' : (c.sendNodeInLoop rs id).1.writeBufferList = id :: rest :=
          (c.sendNode_sent rs id).list_eq.trans hlist
        have hzero := sendNode_remaining_eq (c := c) rs id
        generalize c.sendNodeInLoop rs id = p at hsent hlist' hzero ⊢
        obtain ⟨c', n, rs'⟩ := p
        dsimp only at hsent hlist' hzero ⊢
        by_cases hstop : c'.remainingBytes id > 0 ∨ n < 0
        · -- the socket is full, or the send has failed
          rw [if_pos hstop]
          exact .inr ⟨hsent, by rw [hlist']; exact List.cons_ne_nil _ _⟩
        · -- all of it was sent, the next round pops it
          rw [if_neg hstop]
          have hhead : c.writeBufferList.head? = some id := by rw [hlist]; rfl
          refine ih rs' hsent (.inr ⟨?_, id, by rw [hlist']; rfl, hzero hstop⟩)
          rw [hlist', List.length_cons]
          rcases hfuel with h | ⟨-, id', hhead', hrem'⟩
          · omega
          · rw [List.head?_cons, Option.some.injEq] at hhead'
            exact absurd (hhead' ▸ hrem') hrem

/-- **The rule for `writeCallback`**, when write interest is on. -/
theorem writeCallback_rule {I : TcpConnectionImpl → Prop}
    (hpop : ∀ c id rest, I c → c.writeBufferList = id :: rest → c.remainingBytes id = 0 →
      (!(c.nodes id).isAsync || !(c.nodes id).available) = true →
      I { c with writeBufferList := rest })
    (hsend : ∀ c rs id rest, I c → c.writeBufferList = id :: rest → c.remainingBytes id ≠ 0 →
      I (c.sendNodeInLoop rs id).1)
    (hclose : ∀ c, I c → c.closeOnEmpty = false) (rs : List SysRet) (hI : I c)
    (hw : c.ioChannel.isWriting = true) :
    ∃ c', I c' ∧
      ((c.writeCallback rs = { c' with ioChannel := c'.ioChannel.disableWriting } ∧
        (c'.writeBufferList = [] ∨ c'.Waits)) ∨
      (c.writeCallback rs = c' ∧ c'.writeBufferList ≠ [])) := by
  have hends := writeLoop_rule hpop hsend (2 * c.writeBufferList.length + 1) rs hI
    (.inl (Nat.le_refl _))
  unfold writeCallback
  rw [if_pos hw]
  generalize writeLoop (2 * c.writeBufferList.length + 1) rs c = p at hends ⊢
  obtain ⟨c', emptied⟩ := p
  cases emptied with
  | true =>
    obtain ⟨hI', hnil⟩ := hends
    refine ⟨c', hI', .inl ⟨?_, .inl hnil⟩⟩
    simp [hclose c' hI']
  | false =>
    rcases hends with ⟨c'', hI'', hwaits, heq⟩ | ⟨hI', hne⟩
    · exact ⟨c'', hI'', .inl ⟨heq, .inr hwaits⟩⟩
    · exact ⟨c', hI', .inr ⟨rfl, hne⟩⟩

/-- Without write interest `writeCallback` does nothing. -/
theorem writeCallback_of_not_writing (rs : List SysRet) (hw : c.ioChannel.isWriting = false) :
    c.writeCallback rs = c := by
  rw [writeCallback, hw]
  rfl

end TcpConnectionImpl

end XiaoNet
