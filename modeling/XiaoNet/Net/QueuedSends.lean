import XiaoNet.Net.Quiet
import XiaoNet.Net.SendsAlone

/-!
# Sends from any thread

A call of another thread queues a closure, and what it asks for takes its place among the other
calls when the loop runs the closure. `execute` keeps the ledger in that order, through the whole
life of a connection: also after it was shut down or closed, when sends are refused but closures
of streams that were queued before still run.

- `Plan`: what the queued closures will find. Each opens a stream whose node nobody has touched,
  or feeds or closes a stream that is open when its turn comes.
- `Booked`: the invariant; `during` leaves to `Accounted` what the bytes are.
- `conserved_from_threads`: what the socket accepted and what waits in the nodes is what was
  asked, in the order of execution. The `MsgBuffer` of a node is an unbounded queue of bytes.
-/

namespace XiaoNet

namespace Func

def streamed : Func → Bool
  | .sendFile _ | .sendStream _ => false
  | _ => true

/-- The stream that a closure opens, feeds or closes. -/
def stream : Func → Option NodeId
  | .sendAsyncStream id _ | .sendAsyncData id _ => some id
  | _ => none

/-- The stream that a closure opens. -/
def opens : Func → Option NodeId
  | .sendAsyncStream id _ => some id
  | _ => none

/-- The streams that are open once a closure has run. -/
def after (opened : List NodeId) : Func → List NodeId
  | .sendAsyncStream id _ => opened ++ [id]
  | .sendAsyncData id none => opened.filter (· ≠ id)
  | _ => opened

/-- A closure feeds and closes streams that are open. -/
def Legal (opened : List NodeId) : Func → Prop
  | .sendAsyncData id _ => id ∈ opened
  | _ => True

variable {opened opened' : List NodeId}

theorem after_mono (f : Func) (hsub : ∀ j ∈ opened, j ∈ opened') :
    ∀ j ∈ f.after opened, j ∈ f.after opened' := by
  intro j hj
  cases f with
  | sendAsyncStream id disableKickoff =>
    rcases List.mem_append.mp hj with hj | hj
    · exact List.mem_append_left _ (hsub j hj)
    · exact List.mem_append_right _ hj
  | sendAsyncData id data =>
    cases data with
    | none =>
      obtain ⟨hj, hne⟩ := List.mem_filter.mp hj
      exact List.mem_filter.mpr ⟨hsub j hj, hne⟩
    | some data => exact hsub j hj
  | _ => exact hsub j hj

end Func

namespace TcpConnectionImpl

/-- What happens to a connection on which no file and no stream with a callback is sent. -/
def Op.streamed : Op → Bool
  | .sendFile _ _ | .sendStream _ _ => false
  | _ => true

/-- A call for a stream in the loop thread is made when no closure of the stream is queued. -/
def InTurn (c : TcpConnectionImpl) : Op → Prop
  | .asyncSend true id _ | .asyncClose true id => ∀ f ∈ c.funcs, f.stream ≠ some id
  | _ => True

instance (c : TcpConnectionImpl) : (op : Op) → Decidable (c.InTurn op)
  | .asyncSend true _ _ | .asyncClose true _ =>
    inferInstanceAs (Decidable (∀ f ∈ c.funcs, _))
  | .asyncSend false _ _ | .asyncClose false _ | .send _ _ | .sendFile _ _ | .sendStream _ _
  | .sendAsyncStream _ _ | .shutdown _ | .forceClose _ | .runFunc | .queueDestroyed
  | .readCallback _ _ | .writeCallback | .closeCallback | .keepAlive | .enableKickingOff _
  | .destroyEntry _ => .isTrue trivial

/-! ## Closures in the queue -/

/-- The streams that are open once all closures have run. -/
def openAfter (opened : List NodeId) (fs : List Func) : List NodeId :=
  fs.foldl Func.after opened

/-- Each closure finds its stream open. -/
def Planned (opened : List NodeId) : List Func → Prop
  | [] => True
  | f :: fs => f.Legal opened ∧ Planned (f.after opened) fs

variable {opened opened' : List NodeId} {id : NodeId}

@[simp] theorem openAfter_concat (fs : List Func) (f : Func) :
    openAfter opened (fs ++ [f]) = f.after (openAfter opened fs) := by
  simp [openAfter]

theorem planned_concat {fs : List Func} {f : Func} (h : Planned opened fs)
    (hf : f.Legal (openAfter opened fs)) : Planned opened (fs ++ [f]) := by
  induction fs generalizing opened with
  | nil => exact ⟨hf, trivial⟩
  | cons g fs ih => exact ⟨h.1, ih h.2 hf⟩

/-- More open streams do no harm. -/
theorem planned_mono {fs : List Func} (hsub : ∀ j ∈ opened, j ∈ opened')
    (h : Planned opened fs) :
    Planned opened' fs ∧ ∀ j ∈ openAfter opened fs, j ∈ openAfter opened' fs := by
  induction fs generalizing opened opened' with
  | nil => exact ⟨trivial, hsub⟩
  | cons f fs ih =>
    obtain ⟨hplanned, hafter⟩ := ih (f.after_mono hsub) h.2
    refine ⟨⟨?_, hplanned⟩, hafter⟩
    have hlegal := h.1
    cases f with
    | sendAsyncData id data => exact hsub id hlegal
    | _ => trivial

/-- A stream that no closure is about stays open or not open. -/
theorem mem_openAfter_iff {fs : List Func} (hfs : ∀ f ∈ fs, f.stream ≠ some id) :
    id ∈ openAfter opened fs ↔ id ∈ opened := by
  induction fs generalizing opened with
  | nil => exact Iff.rfl
  | cons f fs ih =>
    have hf := hfs f List.mem_cons_self
    refine (ih fun g hg => hfs g (List.mem_cons_of_mem f hg)).trans ?_
    cases f with
    | sendAsyncStream j disableKickoff =>
      have hne : id ≠ j := fun heq => hf (congrArg some heq.symm)
      simp [Func.after, hne]
    | sendAsyncData j data =>
      have hne : id ≠ j := fun heq => hf (congrArg some heq.symm)
      cases data with
      | none => simp [Func.after, hne]
      | some data => exact Iff.rfl
    | _ => exact Iff.rfl

/-- A stream that will be open is open or has a closure that opens it. -/
theorem mem_or_opens {fs : List Func} (h : id ∈ openAfter opened fs) :
    id ∈ opened ∨ ∃ f ∈ fs, f.opens = some id := by
  induction fs generalizing opened with
  | nil => exact .inl h
  | cons f fs ih =>
    rcases ih h with hin | ⟨g, hg, hopens⟩
    · cases f with
      | sendAsyncStream j disableKickoff =>
        rcases List.mem_append.mp hin with hin | hin
        · exact .inl hin
        · rw [List.mem_singleton.mp hin]
          exact .inr ⟨_, List.mem_cons_self, rfl⟩
      | sendAsyncData j data =>
        cases data with
        | none => exact .inl (List.mem_filter.mp hin).1
        | some data => exact .inl hin
      | _ => exact .inl hin
    · exact .inr ⟨g, List.mem_cons_of_mem f hg, hopens⟩

/-- A stream that no closure is about is closed. -/
theorem planned_close {fs : List Func} (hfs : ∀ f ∈ fs, f.stream ≠ some id)
    (h : Planned opened fs) :
    Planned (opened.filter (· ≠ id)) fs ∧
      openAfter (opened.filter (· ≠ id)) fs = (openAfter opened fs).filter (· ≠ id) := by
  induction fs generalizing opened with
  | nil => exact ⟨trivial, rfl⟩
  | cons f fs ih =>
    have hf := hfs f List.mem_cons_self
    have hrest := ih (fun g hg => hfs g (List.mem_cons_of_mem f hg)) h.2
    -- no closure in the queue is about the stream that is closed now
    have hcomm : f.after (opened.filter (· ≠ id)) = (f.after opened).filter (· ≠ id) := by
      cases f with
      | sendAsyncStream j disableKickoff =>
        have hne : j ≠ id := fun heq => hf (congrArg some heq)
        simp [Func.after, hne]
      | sendAsyncData j data =>
        cases data with
        | none => simp [Func.after, Bool.and_comm]
        | some data => rfl
      | _ => rfl
    rw [← hcomm] at hrest
    refine ⟨⟨?_, hrest.1⟩, hrest.2⟩
    have hlegal := h.1
    cases f with
    | sendAsyncData j data =>
      have hne : j ≠ id := fun heq => hf (congrArg some heq)
      exact List.mem_filter.mpr ⟨hlegal, decide_eq_true hne⟩
    | _ => trivial

/-! ## The bytes -/

/-- What has nothing to do with sending. -/
structure SameSends (c c' : TcpConnectionImpl) : Prop where
  nodes_eq : c'.nodes = c.nodes
  next_eq : c'.nextNode = c.nextNode
  list_eq : c'.writeBufferList = c.writeBufferList
  output_eq : c'.socket.output = c.socket.output
  bytesSent_eq : c'.bytesSent = c.bytesSent
  closeOnEmpty_eq : c'.closeOnEmpty = c.closeOnEmpty
  funcs_eq : c'.funcs = c.funcs
  streams_eq : c'.streams = c.streams

variable {c c' : TcpConnectionImpl} {log : List (Ledger.Item NodeId Byte)}

theorem SameSends.trans {c₁ c₂ c₃ : TcpConnectionImpl} (h₁ : SameSends c₁ c₂)
    (h₂ : SameSends c₂ c₃) : SameSends c₁ c₃ :=
  ⟨h₂.nodes_eq.trans h₁.nodes_eq, h₂.next_eq.trans h₁.next_eq, h₂.list_eq.trans h₁.list_eq,
    h₂.output_eq.trans h₁.output_eq, h₂.bytesSent_eq.trans h₁.bytesSent_eq,
    h₂.closeOnEmpty_eq.trans h₁.closeOnEmpty_eq, h₂.funcs_eq.trans h₁.funcs_eq,
    h₂.streams_eq.trans h₁.streams_eq⟩

theorem sameSends_kickoff (kickoff : Kickoff) : SameSends c { c with kickoff := kickoff } :=
  ⟨rfl, rfl, rfl, rfl, rfl, rfl, rfl, rfl⟩

theorem sameSends_assert (p : Bool) : SameSends c (c.assert p) :=
  ⟨rfl, rfl, rfl, rfl, rfl, rfl, rfl, rfl⟩

theorem sameSends_handleClose : SameSends c c.handleClose :=
  ⟨rfl, rfl, rfl, rfl, rfl, rfl, rfl, rfl⟩

theorem sameSends_forceCloseInLoop : SameSends c c.forceCloseInLoop := by
  unfold forceCloseInLoop
  split <;> exact ⟨rfl, rfl, rfl, rfl, rfl, rfl, rfl, rfl⟩

theorem sameSends_shutdownInLoop : SameSends c c.shutdownInLoop := by
  unfold shutdownInLoop
  split
  · split
    · exact ⟨rfl, rfl, rfl, rfl, rfl, rfl, rfl, rfl⟩
    · dsimp only
      split <;> exact ⟨rfl, rfl, rfl, rfl, rfl, rfl, rfl, rfl⟩
  · exact ⟨rfl, rfl, rfl, rfl, rfl, rfl, rfl, rfl⟩

theorem sameSends_connectDestroyed : SameSends c c.connectDestroyed := by
  unfold connectDestroyed
  dsimp only
  split <;> exact ⟨rfl, rfl, rfl, rfl, rfl, rfl, rfl, rfl⟩

theorem sameSends_readCallback (now : Nat) (ret : ReadRet) :
    SameSends c (c.readCallback now ret) := by
  cases ret with
  | error errno => cases errno <;> exact ⟨rfl, rfl, rfl, rfl, rfl, rfl, rfl, rfl⟩
  | bytes data => cases data <;> exact ⟨rfl, rfl, rfl, rfl, rfl, rfl, rfl, rfl⟩

namespace Ledgered

theorem Accounted.of_sameSends (h : Accounted ⟨c.during opened, log⟩) (hsame : SameSends c c') :
    Accounted ⟨c'.during opened, log⟩ := by
  have hnodes : (c'.during opened).nodes = (c.during opened).nodes := hsame.nodes_eq
  have hlist : (c'.during opened).writeBufferList = (c.during opened).writeBufferList :=
    hsame.list_eq
  have hcontent : (c'.during opened).content = (c.during opened).content := by
    funext j
    rw [TcpConnectionImpl.content, hnodes, TcpConnectionImpl.content]
  refine ⟨?_, ⟨rfl, rfl⟩, ?_, ?_, ?_, h.owners_nodup, ?_, ?_, ?_⟩
  · exact h.wired.of_fields hsame.list_eq hsame.nodes_eq hsame.next_eq hsame.closeOnEmpty_eq
      (fun _ hj => hj) fun _ hf => .inl hf
  · rw [hlist]
    exact h.nodup
  · rw [hlist, hnodes]
    exact h.whole
  · rw [hlist, hnodes]
    exact h.streams_wait
  · intro j hj
    rw [show (c'.during opened).nextNode = c.nextNode from hsame.next_eq]
    exact h.owners_lt j hj
  · show Ledger.Aligned (c'.during opened).content _ c'.socket.output
      (c'.during opened).writeBufferList log
    rw [hlist, hcontent, hsame.output_eq]
    exact h.aligned.congr (fun _ _ => rfl) fun j _ => by rw [isStreamNode, hnodes]; rfl
  · show c'.bytesSent = c'.socket.output.length
    rw [hsame.bytesSent_eq, hsame.output_eq]
    exact h.sent

/-- A node that is not in the list. -/
theorem accounted_newNode {s : Ledgered} (h : s.Accounted) (node : BufferNode) :
    Accounted ⟨s.conn.newNode node, s.log⟩ := by
  have hold : ∀ j ∈ s.conn.writeBufferList, (s.conn.newNode node).nodes j = s.conn.nodes j :=
    fun j hj => nodes_newNode_of_lt node (h.wired.list_lt j hj)
  refine h.of_kept (kept_newNode node) h.nodup ?_ ?_ rfl ?_ h.sent
  · intro j hj
    rw [hold j hj]
    exact h.whole j hj
  · intro j hj
    have hwait := h.streams_wait j hj
    rw [hold j hwait.1]
    exact hwait
  · exact h.aligned.congr (fun j hj => congrArg BufferNode.content (hold j hj))
      fun j hj => by rw [isStreamNode, hold j hj]; rfl

/-- A node nobody has touched comes into the list and is a stream. -/
theorem accounted_join (h : Accounted ⟨c.during opened, log⟩) (hlt : id < c.nextNode)
    (hnode : c.nodes id = .data .newAsyncStreamBufferNode) (hlist : id ∉ c.writeBufferList)
    (howner : id ∉ Ledger.owners log) :
    Accounted ⟨(c.pushBack id).during (opened ++ [id]), log ++ [⟨some id, []⟩]⟩ := by
  -- the fields that the new node in the list and its item in the ledger touch
  refine ⟨?_, ⟨rfl, rfl⟩, ?_, ?_, ?_, ?_, ?_, ?_, h.sent⟩
  · have hpush := h.wired.of_kept (kept_pushBack (c := c.during opened) hlt)
    exact hpush.stream hlt (by
      show (c.nodes id).kind = .async
      rw [hnode]
      rfl)
  · exact List.nodup_append.mpr ⟨h.nodup, List.nodup_singleton _,
      fun a ha b hb hab => hlist (List.mem_singleton.mp hb ▸ hab ▸ ha)⟩
  · intro j hj
    rcases List.mem_append.mp hj with hj | hj
    · exact h.whole j hj
    · rw [List.mem_singleton.mp hj]
      show (c.nodes id).Whole
      rw [hnode]
      trivial
  · intro j hj
    rcases List.mem_append.mp hj with hj | hj
    · exact ⟨List.mem_append_left _ (h.streams_wait j hj).1, (h.streams_wait j hj).2⟩
    · rw [List.mem_singleton.mp hj]
      refine ⟨List.mem_append_right _ List.mem_cons_self, ?_⟩
      show (c.nodes id).available = true
      rw [hnode]
      rfl
  · rw [Ledger.owners_concat_some]
    exact List.nodup_append.mpr ⟨h.owners_nodup, List.nodup_singleton _,
      fun a ha b hb hab => howner (List.mem_singleton.mp hb ▸ hab ▸ ha)⟩
  · intro j hj
    rw [Ledger.owners_concat_some] at hj
    rcases List.mem_append.mp hj with hj | hj
    · exact h.owners_lt j hj
    · rw [List.mem_singleton.mp hj]
      exact hlt
  · refine Ledger.aligned_open h.aligned ?_ ?_
    · show (c.nodes id).kind = .async
      rw [hnode]
      rfl
    · show (c.nodes id).content = []
      rw [hnode]
      rfl

/-! ## The ledger -/

end Ledgered

/-- The ledger when the loop runs a closure; the calls in the loop thread do the same. -/
def book (c : TcpConnectionImpl) (log : List (Ledger.Item NodeId Byte)) :
    Func → List (Ledger.Item NodeId Byte)
  | .sendInLoop msg => if c.status = .connected then log ++ [⟨none, msg⟩] else log
  | .sendAsyncStream id _ => log ++ [⟨some id, []⟩]
  | .sendAsyncData id (some data) => Ledger.chunk id data log
  | _ => log

namespace Ledgered

def record (s : Ledgered) : Op → List (Ledger.Item NodeId Byte)
  | .send true msg => s.conn.book s.log (.sendInLoop msg)
  | .sendAsyncStream true disableKickoff =>
    s.conn.book s.log (.sendAsyncStream s.conn.nextNode disableKickoff)
  | .asyncSend true id data =>
    if id ∈ s.conn.streams ∧ s.conn.status = .connected then
      s.conn.book s.log (.sendAsyncData id (some data))
    else s.log
  | .runFunc =>
    match s.conn.funcs with
    | [] => s.log
    | f :: _ => s.conn.book s.log f
  | _ => s.log

/-- A step, with the ledger in the order in which the loop executes the calls. -/
def execute (s : Ledgered) (a : Op × List SysRet) : Ledgered where
  conn := s.conn.step a
  log := if s.conn.failed then s.log else s.record a.1

/-! ## What the closures will find -/

/-- Nobody has touched the node of the stream. -/
structure Fresh (s : Ledgered) (id : NodeId) : Prop where
  lt : id < s.conn.nextNode
  node : s.conn.nodes id = .data .newAsyncStreamBufferNode
  list : id ∉ s.conn.writeBufferList
  owner : id ∉ Ledger.owners s.log

structure Plan (s : Ledgered) (opened : List NodeId) (funcs : List Func) : Prop where
  streamed : ∀ f ∈ funcs, f.streamed = true
  fresh : ∀ f ∈ funcs, ∀ id, f.opens = some id → s.Fresh id
  once : (funcs.filterMap Func.opens).Nodup
  planned : Planned opened funcs
  streams : ∀ id ∈ s.conn.streams, id ∈ openAfter opened funcs

/-- The streams in `opened` are open, and the queued closures will open and close others. -/
structure Booked (s : Ledgered) (opened : List NodeId) : Prop where
  bytes : Accounted ⟨s.conn.during opened, s.log⟩
  wired : s.conn.Wired
  plan : s.Plan opened s.conn.funcs

variable {s t : Ledgered} {f : Func} {fs : List Func}

theorem Plan.tail (h : s.Plan opened (f :: fs)) : s.Plan (f.after opened) fs where
  streamed g hg := h.streamed g (List.mem_cons_of_mem f hg)
  fresh g hg := h.fresh g (List.mem_cons_of_mem f hg)
  once := h.once.sublist ((List.sublist_cons_self f fs).filterMap Func.opens)
  planned := h.planned.2
  streams := h.streams

theorem Plan.concat (h : s.Plan opened fs) (hstreamed : f.streamed = true)
    (hfresh : ∀ id, f.opens = some id → t.Fresh id ∧ id ∉ fs.filterMap Func.opens)
    (hlegal : f.Legal (openAfter opened fs))
    (hstreams : ∀ id ∈ t.conn.streams, id ∈ f.after (openAfter opened fs))
    (hmove : ∀ id, s.Fresh id → t.Fresh id) : t.Plan opened (fs ++ [f]) where
  streamed g hg := by
    rcases List.mem_append.mp hg with hg | hg
    · exact h.streamed g hg
    · rw [List.mem_singleton.mp hg]
      exact hstreamed
  fresh g hg id hopens := by
    rcases List.mem_append.mp hg with hg | hg
    · exact hmove id (h.fresh g hg id hopens)
    · rw [List.mem_singleton.mp hg] at hopens
      exact (hfresh id hopens).1
  once := by
    rw [List.filterMap_append]
    cases hopens : f.opens with
    | none => simpa [hopens] using h.once
    | some id =>
      simp only [List.filterMap_cons, hopens, List.filterMap_nil]
      exact List.nodup_append.mpr ⟨h.once, List.nodup_singleton _, fun a ha b hb hab =>
        (hfresh id hopens).2 (List.mem_singleton.mp hb ▸ hab ▸ ha)⟩
  planned := planned_concat h.planned hlegal
  streams := by
    rw [openAfter_concat]
    exact hstreams

theorem Plan.move (h : s.Plan opened fs)
    (hfresh : ∀ g ∈ fs, ∀ id, g.opens = some id → s.Fresh id → t.Fresh id)
    (hstreams : ∀ id ∈ t.conn.streams, id ∈ s.conn.streams) : t.Plan opened fs where
  streamed := h.streamed
  fresh g hg id hopens := hfresh g hg id hopens (h.fresh g hg id hopens)
  once := h.once
  planned := h.planned
  streams id hid := h.streams id (hstreams id hid)

end Ledgered

/-! ## Nodes that are not in the list -/

/-- Nodes that were made and are not in the list are left alone. -/
structure Apart (c c' : TcpConnectionImpl) : Prop where
  nodes : ∀ id, id < c.nextNode → id ∉ c.writeBufferList → c'.nodes id = c.nodes id
  list : ∀ id ∈ c'.writeBufferList, id ∈ c.writeBufferList ∨ c.nextNode ≤ id

theorem Apart.refl (c : TcpConnectionImpl) : Apart c c :=
  ⟨fun _ _ _ => rfl, fun _ hid => .inl hid⟩

theorem Apart.trans {c₁ c₂ c₃ : TcpConnectionImpl} (h₁ : Apart c₁ c₂) (h₂ : Apart c₂ c₃)
    (hnext : c₁.nextNode ≤ c₂.nextNode) : Apart c₁ c₃ where
  nodes id hlt hnot := by
    refine (h₂.nodes id (Nat.lt_of_lt_of_le hlt hnext) fun hid => ?_).trans (h₁.nodes id hlt hnot)
    exact (h₁.list id hid).elim hnot fun hle => Nat.lt_irrefl _ (Nat.lt_of_lt_of_le hlt hle)
  list id hid := by
    rcases h₂.list id hid with hid | hle
    · exact h₁.list id hid
    · exact .inr (Nat.le_trans hnext hle)

theorem SameSends.apart (h : SameSends c c') : Apart c c' where
  nodes id _ _ := congrFun h.nodes_eq id
  list id hid := by
    rw [h.list_eq] at hid
    exact .inl hid

theorem apart_newNode (node : BufferNode) : Apart c (c.newNode node) :=
  ⟨fun _ hlt _ => nodes_newNode_of_lt node hlt, fun _ hid => .inl hid⟩

/-- One node of the list, or a new one, changes. -/
theorem apart_of_update {k : NodeId} {node : BufferNode}
    (hnodes : c'.nodes = Function.update c.nodes k node)
    (hk : k ∈ c.writeBufferList ∨ c.nextNode ≤ k)
    (hlist : ∀ id ∈ c'.writeBufferList, id ∈ c.writeBufferList ∨ c.nextNode ≤ id) :
    Apart c c' where
  nodes id hlt hnot := by
    rw [hnodes]
    refine Function.update_of_ne ?_ _ _
    rintro rfl
    exact hk.elim hnot fun hle => Nat.lt_irrefl _ (Nat.lt_of_lt_of_le hlt hle)
  list := hlist

theorem apart_enqueue (data : List Byte) : Apart c (c.enqueue data) := by
  rcases enqueue_cases (c := c) data with ⟨l, back, hl, -, hlist, hnodes⟩ | ⟨hlist, hnodes⟩
  · refine apart_of_update hnodes (.inl ?_) ?_
    · rw [hl]
      exact List.mem_append_right _ List.mem_cons_self
    · rw [hlist]
      exact fun _ hid => .inl hid
  · refine apart_of_update hnodes (.inr (Nat.le_refl _)) ?_
    rw [hlist]
    intro id hid
    rcases List.mem_append.mp hid with hid | hid
    · exact .inl hid
    · exact .inr (Nat.le_of_eq (List.mem_singleton.mp hid).symm)

theorem Sent.apart (h : Sent c c' id) (hid : id ∈ c.writeBufferList) : Apart c c' where
  nodes j _ hnot := h.others j fun heq => hnot (heq ▸ hid)
  list j hj := by
    rw [h.list_eq] at hj
    exact .inl hj

theorem apart_wrote (r : SysRet) (buffer : List Byte) : Apart c (c.wrote r buffer) where
  nodes j _ _ := by rw [nodes_wrote]
  list j hj := by
    rw [(sent_wrote (c := c) r buffer 0).list_eq] at hj
    exact .inl hj

theorem apart_sendInLoop (rs : List SysRet) (buffer : List Byte) :
    Apart c (c.sendInLoop rs buffer) := by
  by_cases h : c.status = .connected
  · by_cases hwait : c.ioChannel.isWriting = true ∨ c.writeBufferList ≠ []
    · rw [sendInLoop_queued rs buffer h hwait]
      split
      · exact .refl c
      · exact apart_enqueue buffer
    · obtain ⟨hw, hl⟩ := not_or.mp hwait
      rw [sendInLoop_direct rs buffer h (Bool.eq_false_iff.mpr hw) (not_not.mp hl)]
      split
      · exact apart_wrote _ buffer
      · exact (apart_wrote _ buffer).trans (apart_enqueue _)
          (sent_wrote (c := c) (rs.headD .again) buffer 0).kept.next_le
  · rw [sendInLoop_of_not_connected rs buffer h]
    exact .refl c

theorem apart_sendAsyncData (rs : List SysRet) {id : NodeId} (hid : id ∈ c.writeBufferList)
    (data : Option (List Byte)) : Apart c (c.sendAsyncDataInLoop rs id data) := by
  cases data with
  | none =>
    -- only the node of the stream is touched, which is in the list
    have hnodes : (c.sendAsyncDataInLoop rs id none).nodes
        = Function.update c.nodes id (c.nodes id).done := by
      rw [sendAsyncData_close]
      show (c.closeNode id).nodes = _
      unfold closeNode
      split <;> rfl
    have hlist : (c.sendAsyncDataInLoop rs id none).writeBufferList = c.writeBufferList := by
      rw [sendAsyncData_close]
      show (c.closeNode id).writeBufferList = _
      unfold closeNode
      split <;> rfl
    refine apart_of_update hnodes (.inl hid) ?_
    rw [hlist]
    exact fun _ hj => .inl hj
  | some data =>
    by_cases hdata : data = []
    · rw [hdata]
      exact .refl c
    · by_cases hfront : c.writeBufferList.head? = some id ∧ c.remainingBytes id = 0
      · rw [sendAsyncData_front rs hdata hfront]
        have hwrote := sent_wrote (c := c) (rs.headD .again) data id
        split
        · exact hwrote.apart hid
        · exact (hwrote.trans (sent_setNode (c := c.wrote (rs.headD .again) data) id
            (by rw [BufferNode.kind_append, nodes_wrote]))).apart hid
      · rw [sendAsyncData_behind rs hdata hfront]
        exact apart_of_update rfl (.inl hid) fun _ hj => .inl hj

theorem apart_writeCallback (rs : List SysRet) (hclose : c.closeOnEmpty = false) :
    Apart c (c.writeCallback rs) := by
  cases hw : c.ioChannel.isWriting with
  | false =>
    rw [writeCallback_of_not_writing rs hw]
    exact .refl c
  | true =>
    -- a node that is done with leaves the list
    have hpop : ∀ c' id rest, (Apart c c' ∧ c'.closeOnEmpty = false ∧
          ∀ j ∈ c'.writeBufferList, j ∈ c.writeBufferList) →
        c'.writeBufferList = id :: rest → c'.remainingBytes id = 0 →
        (!(c'.nodes id).isAsync || !(c'.nodes id).available) = true →
        (Apart c { c' with writeBufferList := rest } ∧ c'.closeOnEmpty = false ∧
          ∀ j ∈ rest, j ∈ c.writeBufferList) := by
      rintro c' id rest ⟨hapart, hopen, hsub⟩ hl - -
      have hrest : ∀ j ∈ rest, j ∈ c.writeBufferList := fun j hj =>
        hsub j (by rw [hl]; exact List.mem_cons_of_mem id hj)
      exact ⟨⟨hapart.nodes, fun j hj => .inl (hrest j hj)⟩, hopen, hrest⟩
    -- only the node in front is written, which was in the list
    have hsend : ∀ c' rs id rest, (Apart c c' ∧ c'.closeOnEmpty = false ∧
          ∀ j ∈ c'.writeBufferList, j ∈ c.writeBufferList) →
        c'.writeBufferList = id :: rest → c'.remainingBytes id ≠ 0 →
        (Apart c (c'.sendNodeInLoop rs id).1 ∧ (c'.sendNodeInLoop rs id).1.closeOnEmpty = false ∧
          ∀ j ∈ (c'.sendNodeInLoop rs id).1.writeBufferList, j ∈ c.writeBufferList) := by
      rintro c' rs id rest ⟨hapart, hopen, hsub⟩ hl -
      have hsent := c'.sendNode_sent rs id
      have hlist : ∀ j ∈ (c'.sendNodeInLoop rs id).1.writeBufferList, j ∈ c.writeBufferList := by
        rw [hsent.list_eq]
        exact hsub
      have hin : id ∈ c.writeBufferList := hsub id (by rw [hl]; exact List.mem_cons_self)
      refine ⟨⟨fun j hlt hnot => ?_, fun j hj => .inl (hlist j hj)⟩,
        hsent.kept.closeOnEmpty_eq.trans hopen, hlist⟩
      rw [hsent.others j fun heq => hnot (heq ▸ hin)]
      exact hapart.nodes j hlt hnot
    -- the rule of the loop, with the two as its cases
    obtain ⟨c', ⟨hapart, -⟩, ⟨heq, -⟩ | ⟨heq, -⟩⟩ := writeCallback_rule
      (I := fun c' => Apart c c' ∧ c'.closeOnEmpty = false ∧
        ∀ j ∈ c'.writeBufferList, j ∈ c.writeBufferList)
      hpop hsend (fun _ h => h.2.1) rs ⟨.refl c, hclose, fun _ hj => hj⟩ hw
    · rw [heq]
      exact ⟨hapart.nodes, hapart.list⟩
    · rw [heq]
      exact hapart

namespace Ledgered

variable {s t : Ledgered} {f : Func} {fs : List Func}

theorem Fresh.apart (h : s.Fresh id) (hapart : Apart s.conn t.conn)
    (hnext : s.conn.nextNode ≤ t.conn.nextNode)
    (howner : id ∈ Ledger.owners t.log → id ∈ Ledger.owners s.log) : t.Fresh id where
  lt := Nat.lt_of_lt_of_le h.lt hnext
  node := (hapart.nodes id h.lt h.list).trans h.node
  list hid := (hapart.list id hid).elim h.list
    fun hle => Nat.lt_irrefl _ (Nat.lt_of_lt_of_le h.lt hle)
  owner hid := h.owner (howner hid)

/-- What a step of the loop has to keep. -/
theorem Plan.booked (h : s.Plan opened fs) (hbytes : Accounted ⟨t.conn.during opened, t.log⟩)
    (hwired : t.conn.Wired) (hfuncs : t.conn.funcs = fs)
    (hstreams : ∀ id ∈ t.conn.streams, id ∈ s.conn.streams) (hapart : Apart s.conn t.conn)
    (hnext : s.conn.nextNode ≤ t.conn.nextNode)
    (howners : Ledger.owners t.log = Ledger.owners s.log) : t.Booked opened where
  bytes := hbytes
  wired := hwired
  plan := by
    rw [hfuncs]
    refine h.move (fun g _ id _ hid => hid.apart hapart hnext ?_) hstreams
    rw [howners]
    exact fun hin => hin

theorem Booked.of_sameSends (h : s.Booked opened) {c' : TcpConnectionImpl}
    (hsame : SameSends s.conn c') (hwired : c'.Wired) : Booked ⟨c', s.log⟩ opened := by
  refine h.plan.booked (t := ⟨c', s.log⟩) (h.bytes.of_sameSends hsame) hwired hsame.funcs_eq ?_
    hsame.apart (Nat.le_of_eq hsame.next_eq.symm) rfl
  rw [hsame.streams_eq]
  exact fun _ hid => hid

/-! ## Running a closure -/

theorem booked_sendInLoop (hplan : s.Plan opened s.conn.funcs)
    (hbytes : Accounted ⟨s.conn.during opened, s.log⟩) (hwired : s.conn.Wired)
    (rs : List SysRet) (msg : List Byte) :
    Booked ⟨s.conn.sendInLoop rs msg, s.conn.book s.log (.sendInLoop msg)⟩ opened := by
  by_cases hstatus : s.conn.status = .connected
  · have hsend := accounted_send hbytes rs msg
    rw [during_sendInLoop opened rs msg hstatus] at hsend
    have hkept := kept_sendInLoop (c := s.conn) rs msg
    have hbook : s.conn.book s.log (.sendInLoop msg) = s.log ++ [⟨none, msg⟩] := if_pos hstatus
    rw [hbook]
    refine hplan.booked (t := ⟨s.conn.sendInLoop rs msg, s.log ++ [⟨none, msg⟩]⟩) hsend
      (hwired.of_kept hkept) hkept.funcs_eq ?_ (apart_sendInLoop rs msg) hkept.next_le
      (Ledger.owners_concat_none _ _)
    rw [hkept.streams_eq]
    exact fun _ hid => hid
  · have hbook : s.conn.book s.log (.sendInLoop msg) = s.log := if_neg hstatus
    rw [sendInLoop_of_not_connected rs msg hstatus, hbook]
    exact ⟨hbytes, hwired, hplan⟩

/-- Data of an open stream. -/
theorem booked_chunk (hplan : s.Plan opened s.conn.funcs)
    (hbytes : Accounted ⟨s.conn.during opened, s.log⟩) (hwired : s.conn.Wired)
    (rs : List SysRet) (hid : id ∈ opened) (data : List Byte) :
    Booked ⟨s.conn.sendAsyncDataInLoop rs id (some data), Ledger.chunk id data s.log⟩ opened := by
  have hchunk := accounted_asyncSend hbytes rs hid data
  rw [during_sendAsyncData] at hchunk
  have hkept := kept_sendAsyncDataInLoop (c := s.conn) rs id (some data)
  refine hplan.booked
    (t := ⟨s.conn.sendAsyncDataInLoop rs id (some data), Ledger.chunk id data s.log⟩) hchunk
    (hwired.of_kept hkept) hkept.funcs_eq ?_
    (apart_sendAsyncData (c := s.conn) rs (hbytes.streams_wait id hid).1 (some data)) hkept.next_le
    (Ledger.owners_chunk id data s.log)
  rw [hkept.streams_eq]
  exact fun _ hj => hj

/-- An open stream is closed. -/
theorem booked_close (hplan : s.Plan (opened.filter (· ≠ id)) s.conn.funcs)
    (hbytes : Accounted ⟨s.conn.during opened, s.log⟩) (hwired : s.conn.Wired)
    (rs : List SysRet) (hid : id ∈ opened) :
    Booked ⟨s.conn.sendAsyncDataInLoop rs id none, s.log⟩ (opened.filter (· ≠ id)) := by
  have hclose := accounted_asyncClose hbytes rs hid
  have hkept := kept_sendAsyncDataInLoop (c := s.conn) rs id none
  have hsame : { (s.conn.during opened).sendAsyncDataInLoop rs id none with
      streams := ((s.conn.during opened).sendAsyncDataInLoop rs id none).streams.filter (· ≠ id) }
      = (s.conn.sendAsyncDataInLoop rs id none).during (opened.filter (· ≠ id)) := by
    rw [during_sendAsyncData]
    rfl
  rw [hsame] at hclose
  refine hplan.booked (t := ⟨s.conn.sendAsyncDataInLoop rs id none, s.log⟩) hclose
    (hwired.of_kept hkept) hkept.funcs_eq ?_
    (apart_sendAsyncData (c := s.conn) rs (hbytes.streams_wait id hid).1 none) hkept.next_le rfl
  rw [hkept.streams_eq]
  exact fun _ hj => hj

/-- A closure opens its stream. -/
theorem booked_open {disableKickoff : Bool} (rs : List SysRet) (hfs : s.conn.funcs = fs)
    (hplan : s.Plan opened (.sendAsyncStream id disableKickoff :: fs))
    (hbytes : Accounted ⟨s.conn.during opened, s.log⟩)
    (hwired : (s.conn.sendAsyncStreamQueued rs id disableKickoff).Wired) :
    Booked ⟨s.conn.sendAsyncStreamQueued rs id disableKickoff, s.log ++ [⟨some id, []⟩]⟩
      (opened ++ [id]) := by
  have hfresh := hplan.fresh _ List.mem_cons_self id rfl
  have hrest := hplan.tail
  have hsame : SameSends s.conn (if disableKickoff then s.conn.disableKickoff else s.conn) := by
    split <;> exact ⟨rfl, rfl, rfl, rfl, rfl, rfl, rfl, rfl⟩
  have hkick := kept_disableKickoff (c := s.conn) disableKickoff
  -- the node is empty still, so opening it does not enable writing
  have heq : s.conn.sendAsyncStreamQueued rs id disableKickoff
      = (if disableKickoff then s.conn.disableKickoff else s.conn).pushBack id := by
    rw [sendAsyncStreamQueued_eq]
    dsimp only
    rw [if_neg]
    rintro ⟨-, hrem⟩
    rw [TcpConnectionImpl.remainingBytes, hsame.nodes_eq, hfresh.node] at hrem
    exact Int.lt_irrefl 0 hrem
  rw [heq] at hwired ⊢
  -- what the kick-off does is no matter from here on
  revert hsame hkick hwired
  generalize (if disableKickoff then s.conn.disableKickoff else s.conn) = c'
  intro hwired hsame hkick
  refine ⟨?_, hwired, ?_⟩
  · refine accounted_join (hbytes.of_sameSends hsame) ?_ ?_ ?_ hfresh.owner
    · rw [hsame.next_eq]
      exact hfresh.lt
    · rw [hsame.nodes_eq]
      exact hfresh.node
    · rw [hsame.list_eq]
      exact hfresh.list
  · -- the closures that are left find what they found before
    have hfuncs : (c'.pushBack id).funcs = fs := hkick.funcs_eq.trans hfs
    show Plan _ _ (c'.pushBack id).funcs
    rw [hfuncs]
    refine hrest.move (fun g hg j hopens hj => ?_) fun j hj => ?_
    · -- another stream that is still to be opened
      have hne : j ≠ id := by
        rintro rfl
        have hnodup := hplan.once
        rw [List.filterMap_cons_some (show Func.opens (.sendAsyncStream j disableKickoff) = some j
          from rfl), List.nodup_cons] at hnodup
        exact hnodup.1 (List.mem_filterMap.mpr ⟨g, hg, hopens⟩)
      refine ⟨?_, ?_, ?_, ?_⟩
      · show j < c'.nextNode
        rw [hsame.next_eq]
        exact hj.lt
      · show c'.nodes j = _
        rw [hsame.nodes_eq]
        exact hj.node
      · show j ∉ c'.writeBufferList ++ [id]
        rw [hsame.list_eq]
        simp [hj.list, hne]
      · rw [Ledger.owners_concat_some]
        simp [hj.owner, hne]
    · show j ∈ s.conn.streams
      rw [← hkick.streams_eq]
      exact hj

/-- The loop takes the first closure and runs it. -/
theorem booked_runFunc (h : s.Booked opened) (hfs : s.conn.funcs = f :: fs) (rs : List SysRet) :
    ∃ opened, Booked ⟨{ s.conn with funcs := fs }.call rs f, s.conn.book s.log f⟩ opened := by
  -- `t` is the connection with this closure taken off the queue
  obtain ⟨t, ht⟩ : ∃ t : Ledgered, t = ⟨{ s.conn with funcs := fs }, s.log⟩ := ⟨_, rfl⟩
  have hwired : t.conn.Wired := by
    rw [ht]
    exact h.wired.tail_funcs hfs
  have hcall : (t.conn.call rs f).Wired := by
    refine wired_call hwired rs f fun id kind hnode => ?_
    rw [ht]
    exact (h.wired.funcs f (by rw [hfs]; exact List.mem_cons_self) id kind hnode).1
  have hplan : t.Plan opened (f :: fs) := by
    rw [ht, ← hfs]
    exact h.plan.move (fun _ _ _ _ hj => ⟨hj.lt, hj.node, hj.list, hj.owner⟩) fun _ hj => hj
  have hbytes : Accounted ⟨t.conn.during opened, t.log⟩ := by
    rw [ht]
    exact h.bytes
  have hfuncs : t.conn.funcs = fs := by rw [ht]
  have hgoal : ∃ opened, Booked ⟨t.conn.call rs f, t.conn.book t.log f⟩ opened := by
    clear ht
    have hrest := hplan.tail
    -- a closure that neither sends nor opens nor closes
    have hquiet : f.after opened = opened → t.conn.book t.log f = t.log →
        SameSends t.conn (t.conn.call rs f) →
        ∃ opened, Booked ⟨t.conn.call rs f, t.conn.book t.log f⟩ opened := by
      intro hafter hbook hsame
      rw [hafter, ← hfuncs] at hrest
      rw [hbook]
      exact ⟨opened, Booked.of_sameSends ⟨hbytes, hwired, hrest⟩ hsame hcall⟩
    cases f with
    | sendInLoop msg =>
      exact ⟨opened, booked_sendInLoop (hfuncs ▸ hrest) hbytes hwired rs msg⟩
    | sendAsyncStream id disableKickoff =>
      exact ⟨opened ++ [id], booked_open rs hfuncs hplan hbytes hcall⟩
    | sendAsyncData id data =>
      cases data with
      | some data =>
        exact ⟨opened, booked_chunk (hfuncs ▸ hrest) hbytes hwired rs hplan.planned.1 data⟩
      | none => exact ⟨_, booked_close (hfuncs ▸ hrest) hbytes hwired rs hplan.planned.1⟩
    | shutdown => exact hquiet rfl rfl sameSends_shutdownInLoop
    | forceClose => exact hquiet rfl rfl sameSends_forceCloseInLoop
    | connectDestroyed => exact hquiet rfl rfl sameSends_connectDestroyed
    | sendFile id => cases hplan.streamed _ List.mem_cons_self
    | sendStream id => cases hplan.streamed _ List.mem_cons_self
  rw [ht] at hgoal
  exact hgoal

/-! ## One step -/

/-- A call of another thread. -/
theorem Booked.queue (h : s.Booked opened) {c' : TcpConnectionImpl}
    (hsame : c'.during opened = s.conn.during opened) (hfuncs : c'.funcs = s.conn.funcs ++ [f])
    (hwired : c'.Wired) (hstreamed : f.streamed = true) (hopens : f.opens = none)
    (hlegal : f.Legal (openAfter opened s.conn.funcs))
    (hstreams : ∀ id ∈ c'.streams, id ∈ f.after (openAfter opened s.conn.funcs)) :
    Booked ⟨c', s.log⟩ opened where
  bytes := by
    rw [hsame]
    exact h.bytes
  wired := hwired
  plan := by
    rw [hfuncs]
    refine h.plan.concat hstreamed ?_ hlegal hstreams ?_
    · rw [hopens]
      rintro id ⟨⟩
    · intro id hid
      have hnext := congrArg TcpConnectionImpl.nextNode hsame
      have hnodes := congrArg TcpConnectionImpl.nodes hsame
      have hlist := congrArg TcpConnectionImpl.writeBufferList hsame
      refine ⟨?_, (congrFun hnodes id).trans hid.node, ?_, hid.owner⟩
      · exact Nat.lt_of_lt_of_eq hid.lt hnext.symm
      · intro hin
        exact hid.list ((congrArg (id ∈ ·) hlist).mp hin)

/-- A stream for which the loop thread calls is open. -/
theorem Booked.mem_opened (h : s.Booked opened) (hid : id ∈ s.conn.streams)
    (hturn : ∀ f ∈ s.conn.funcs, f.stream ≠ some id) : id ∈ opened :=
  (mem_openAfter_iff hturn).mp (h.plan.streams id hid)

theorem Booked.stream_lt (h : s.Booked opened) (hf : f ∈ s.conn.funcs)
    (hstream : f.stream = some id) : id < s.conn.nextNode := by
  have hnode : ∃ kind, Func.node f = some (id, kind) := by
    cases f with
    | sendAsyncStream j disableKickoff => cases hstream; exact ⟨_, rfl⟩
    | sendAsyncData j data => cases hstream; exact ⟨_, rfl⟩
    | _ => cases hstream
  obtain ⟨kind, hnode⟩ := hnode
  exact (h.wired.funcs f hf id kind hnode).1

/-- The loop thread opens a stream. -/
theorem booked_newStream (h : s.Booked opened) (disableKickoff : Bool) :
    Booked ⟨s.conn.newStream.sendAsyncStreamInLoop s.conn.nextNode disableKickoff,
      s.log ++ [⟨some s.conn.nextNode, []⟩]⟩ (opened ++ [s.conn.nextNode]) := by
  have hopen := accounted_open h.bytes disableKickoff
  have hkept := kept_sendAsyncStreamInLoop (c := s.conn.newStream) disableKickoff
    (Nat.lt_succ_self s.conn.nextNode)
  have hwired := (wired_newStream h.wired).of_kept hkept
  have hbytes : Accounted ⟨(s.conn.newStream.sendAsyncStreamInLoop s.conn.nextNode
      disableKickoff).during (opened ++ [s.conn.nextNode]),
      s.log ++ [⟨some s.conn.nextNode, []⟩]⟩ := by
    cases disableKickoff <;> exact hopen
  have hlist : (s.conn.newStream.sendAsyncStreamInLoop s.conn.nextNode
      disableKickoff).writeBufferList = s.conn.writeBufferList ++ [s.conn.nextNode] := by
    cases disableKickoff <;> rfl
  have hnodes : (s.conn.newStream.sendAsyncStreamInLoop s.conn.nextNode disableKickoff).nodes
      = Function.update s.conn.nodes s.conn.nextNode (.data .newAsyncStreamBufferNode) := by
    cases disableKickoff <;> rfl
  have hstreams : (s.conn.newStream.sendAsyncStreamInLoop s.conn.nextNode disableKickoff).streams
      = s.conn.streams ++ [s.conn.nextNode] := hkept.streams_eq
  have hfuncs : (s.conn.newStream.sendAsyncStreamInLoop s.conn.nextNode disableKickoff).funcs
      = s.conn.funcs := hkept.funcs_eq
  have hnext : s.conn.nextNode ≤
      (s.conn.newStream.sendAsyncStreamInLoop s.conn.nextNode disableKickoff).nextNode :=
    Nat.le_trans (Nat.le_succ _) hkept.next_le
  -- only what is known of the lists and the nodes matters from here on
  revert hwired hbytes hlist hnodes hstreams hfuncs hnext
  clear hopen hkept
  generalize s.conn.newStream.sendAsyncStreamInLoop s.conn.nextNode disableKickoff = c'
  intro hwired hbytes hlist hnodes hstreams hfuncs hnext
  have hapart : Apart s.conn c' := by
    refine apart_of_update hnodes (.inr (Nat.le_refl _)) ?_
    rw [hlist]
    intro id hid
    rcases List.mem_append.mp hid with hid | hid
    · exact .inl hid
    · exact .inr (Nat.le_of_eq (List.mem_singleton.mp hid).symm)
  -- the number of the node is new, so no closure in the queue is about it
  have hunknown : ∀ g ∈ s.conn.funcs, g.stream ≠ some s.conn.nextNode :=
    fun g hg hstream => Nat.lt_irrefl _ (h.stream_lt hg hstream)
  obtain ⟨hplanned, hafter⟩ := planned_mono
    (fun j hj => List.mem_append_left [s.conn.nextNode] hj) h.plan.planned
  refine ⟨hbytes, hwired, ?_⟩
  show Plan _ _ c'.funcs
  rw [hfuncs]
  refine ⟨h.plan.streamed, fun g hg id hopens => ?_, h.plan.once, hplanned, ?_⟩
  · -- a stream that is still to be opened
    have hid := h.plan.fresh g hg id hopens
    refine hid.apart hapart hnext fun hin => ?_
    rw [Ledger.owners_concat_some] at hin
    rcases List.mem_append.mp hin with hin | hin
    · exact hin
    · exact absurd (List.mem_singleton.mp hin) (Nat.ne_of_lt hid.lt)
  · -- the streams of the connection, the new one among them
    intro id hid
    have hid' : id ∈ s.conn.streams ++ [s.conn.nextNode] := hstreams ▸ hid
    rcases List.mem_append.mp hid' with hin | hin
    · exact hafter id (h.plan.streams id hin)
    · rw [List.mem_singleton.mp hin]
      exact (mem_openAfter_iff hunknown).mpr (List.mem_append_right _ List.mem_cons_self)

/-- Another thread opens a stream: its node waits for the closure. -/
theorem booked_announce (h : s.Booked opened) (disableKickoff : Bool)
    (hwired : (s.conn.newStream.queue (.sendAsyncStream s.conn.nextNode disableKickoff)).Wired) :
    Booked ⟨s.conn.newStream.queue (.sendAsyncStream s.conn.nextNode disableKickoff), s.log⟩
      opened := by
  refine ⟨accounted_newNode h.bytes (.data .newAsyncStreamBufferNode), hwired, ?_⟩
  refine h.plan.concat rfl ?_ trivial ?_ ?_
  · rintro id ⟨⟩
    refine ⟨⟨Nat.lt_succ_self _, nodes_newNode_self _, ?_, ?_⟩, ?_⟩
    · exact fun hin => Nat.lt_irrefl _ (h.wired.list_lt _ hin)
    · exact fun hin => Nat.lt_irrefl _ (h.bytes.owners_lt _ hin)
    · intro hin
      obtain ⟨g, hg, hopens⟩ := List.mem_filterMap.mp hin
      have hstream : g.stream = some s.conn.nextNode := by
        cases g with
        | sendAsyncStream j disableKickoff => exact hopens
        | _ => cases hopens
      exact Nat.lt_irrefl _ (h.stream_lt hg hstream)
  · intro id hid
    rcases List.mem_append.mp hid with hin | hin
    · exact List.mem_append_left _ (h.plan.streams id hin)
    · rw [List.mem_singleton.mp hin]
      exact List.mem_append_right _ List.mem_cons_self
  · intro id hid
    have hapart := apart_newNode (c := s.conn) (.data .newAsyncStreamBufferNode)
    exact hid.apart (t := ⟨_, s.log⟩) ⟨hapart.nodes, hapart.list⟩ (Nat.le_succ _) fun hin => hin

/-- The callback of a stream that is called in the loop thread. -/
theorem streamCallback_inLoop (c : TcpConnectionImpl) (rs : List SysRet) (id : NodeId)
    (data : Option (List Byte)) (h : c.status = .connected) :
    c.streamCallback rs true id data = c.sendAsyncDataInLoop rs id data := by
  rw [streamCallback, if_neg (not_not_intro h)]
  rfl

theorem streamCallback_queued (c : TcpConnectionImpl) (rs : List SysRet) (id : NodeId)
    (data : Option (List Byte)) (h : c.status = .connected) :
    c.streamCallback rs false id data = c.queue (.sendAsyncData id data) := by
  rw [streamCallback, if_neg (not_not_intro h)]
  rfl

theorem booked_asyncSend (h : s.Booked opened) (hf : s.conn.failed = false) (rs : List SysRet)
    (inLoop : Bool) (data : List Byte) (hturn : s.conn.InTurn (.asyncSend inLoop id data)) :
    (s.execute (.asyncSend inLoop id data, rs)).Booked opened := by
  have hwired := wired_step h.wired (.asyncSend inLoop id data) rs
  have hconn := step_asyncSend rs inLoop hf id data
  have hlog : (s.execute (.asyncSend inLoop id data, rs)).log
      = s.record (.asyncSend inLoop id data) := if_neg (by simp [hf])
  unfold execute at hlog ⊢
  dsimp only at hlog ⊢
  rw [hlog]
  rw [hconn] at hwired ⊢
  by_cases hid : id ∈ s.conn.streams
  · rw [if_pos hid] at hwired ⊢
    by_cases hstatus : s.conn.status = .connected
    · cases inLoop with
      | true =>
        -- in the loop thread the chunk is booked now
        rw [streamCallback_inLoop _ _ _ _ hstatus]
        have hrecord : s.record (.asyncSend true id data) = Ledger.chunk id data s.log :=
          if_pos ⟨hid, hstatus⟩
        rw [hrecord]
        exact booked_chunk h.plan h.bytes h.wired rs (h.mem_opened hid hturn) data
      | false =>
        -- from another thread it is booked when the closure runs
        rw [streamCallback_queued _ _ _ _ hstatus] at hwired ⊢
        exact h.queue rfl rfl hwired rfl rfl (h.plan.streams id hid) h.plan.streams
    · -- no longer connected: nothing is asked
      rw [streamCallback_of_not_connected rs inLoop id (some data) hstatus]
      have hrecord : s.record (.asyncSend inLoop id data) = s.log := by
        cases inLoop with
        | true => exact if_neg fun hcond => hstatus hcond.2
        | false => rfl
      rw [hrecord]
      exact h
  · -- closed, or never opened: nothing is asked
    rw [if_neg hid]
    have hrecord : s.record (.asyncSend inLoop id data) = s.log := by
      cases inLoop with
      | true => exact if_neg fun hcond => hid hcond.1
      | false => rfl
    rw [hrecord]
    exact h

theorem Booked.fewer_streams (h : s.Booked opened) {c' : TcpConnectionImpl}
    (hc : c' = { s.conn with streams := s.conn.streams.filter (· ≠ id) }) :
    Booked ⟨c', s.log⟩ opened := by
  have hsub : ∀ j ∈ s.conn.streams.filter (· ≠ id), j ∈ s.conn.streams :=
    fun j hj => (List.mem_filter.mp hj).1
  rw [hc]
  refine ⟨h.bytes, h.wired.of_fields rfl rfl rfl rfl hsub fun _ hg => .inl hg, ?_⟩
  exact h.plan.move (fun _ _ _ _ hj => ⟨hj.lt, hj.node, hj.list, hj.owner⟩) hsub

/-- The close of a stream and the removal of the `AsyncStream` object commute. -/
theorem sendAsyncData_close_streams (c : TcpConnectionImpl) (rs : List SysRet) (id : NodeId) :
    ({ c with streams := c.streams.filter (· ≠ id) } : TcpConnectionImpl).sendAsyncDataInLoop rs id
        none
      = { c.sendAsyncDataInLoop rs id none with
          streams := (c.sendAsyncDataInLoop rs id none).streams.filter (· ≠ id) } := by
  rw [sendAsyncData_close, sendAsyncData_close]
  unfold closeNode
  by_cases hfront : c.writeBufferList.head? = some id ∧ c.ioChannel.isWriting = false
  · rw [if_pos hfront, if_pos hfront]
    rfl
  · rw [if_neg hfront, if_neg hfront]
    rfl

theorem booked_asyncClose (h : s.Booked opened) (hf : s.conn.failed = false) (rs : List SysRet)
    (inLoop : Bool) (hturn : s.conn.InTurn (.asyncClose inLoop id)) :
    ∃ opened, (s.execute (.asyncClose inLoop id, rs)).Booked opened := by
  have hwired := wired_step h.wired (.asyncClose inLoop id) rs
  have hconn := step_asyncClose rs inLoop hf id
  have hlog : (s.execute (.asyncClose inLoop id, rs)).log = s.log := by
    unfold execute record
    cases inLoop <;> exact ite_self s.log
  unfold execute at hlog ⊢
  dsimp only at hlog ⊢
  rw [hlog]
  rw [hconn] at hwired ⊢
  by_cases hid : id ∈ s.conn.streams
  · rw [if_pos hid] at hwired ⊢
    by_cases hstatus : s.conn.status = .connected
    · cases inLoop with
      | true =>
        rw [streamCallback_inLoop _ _ _ _ hstatus] at hwired ⊢
        have hopen := h.mem_opened hid hturn
        obtain ⟨hplanned, hafter⟩ := planned_close hturn h.plan.planned
        -- the streams of the connection are those that are not this one
        have hless : Booked ⟨{ s.conn with streams := s.conn.streams.filter (· ≠ id) }, s.log⟩
            opened := h.fewer_streams rfl
        have hplan : Plan ⟨{ s.conn with streams := s.conn.streams.filter (· ≠ id) }, s.log⟩
            (opened.filter (· ≠ id)) s.conn.funcs := by
          refine ⟨h.plan.streamed, hless.plan.fresh, h.plan.once, hplanned, ?_⟩
          rw [hafter]
          intro j hj
          obtain ⟨hin, hne⟩ := List.mem_filter.mp hj
          exact List.mem_filter.mpr ⟨h.plan.streams j hin, hne⟩
        have hclose := booked_close hplan hless.bytes hless.wired rs hopen
        refine ⟨opened.filter (· ≠ id), ?_⟩
        rw [sendAsyncData_close_streams] at hclose
        exact hclose
      | false =>
        rw [streamCallback_queued _ _ _ _ hstatus] at hwired ⊢
        refine ⟨opened, h.queue rfl rfl hwired rfl rfl (h.plan.streams id hid) ?_⟩
        intro j hj
        obtain ⟨hin, hne⟩ := List.mem_filter.mp hj
        exact List.mem_filter.mpr ⟨h.plan.streams j hin, hne⟩
    · rw [streamCallback_of_not_connected rs inLoop id none hstatus]
      exact ⟨opened, h.fewer_streams rfl⟩
  · rw [if_neg hid]
    exact ⟨opened, h⟩

theorem booked_writeCallback (h : s.Booked opened) (rs : List SysRet) :
    Booked ⟨s.conn.writeCallback rs, s.log⟩ opened := by
  have hwrite := accounted_writeCallback h.bytes rs
  have hkept := kept_writeCallback rs h.wired.stays_open
  rw [during_writeCallback opened rs h.wired.stays_open] at hwrite
  refine h.plan.booked (t := ⟨s.conn.writeCallback rs, s.log⟩) hwrite (h.wired.of_kept hkept)
    hkept.funcs_eq ?_ (apart_writeCallback rs h.wired.stays_open) hkept.next_le rfl
  rw [hkept.streams_eq]
  exact fun _ hid => hid

theorem execute_eq (hf : s.conn.failed = false) (op : Op) (rs : List SysRet)
    {c' : TcpConnectionImpl} {log' : List (Ledger.Item NodeId Byte)}
    (hconn : s.conn.step (op, rs) = c') (hlog : s.record op = log') :
    s.execute (op, rs) = ⟨c', log'⟩ := by
  unfold execute
  rw [hconn, hf, ← hlog]
  rfl

/-- **One step** of the connection keeps the books. -/
theorem booked_execute (h : s.Booked opened) {op : Op} (hop : op.streamed = true)
    (hturn : s.conn.InTurn op) (rs : List SysRet) :
    ∃ opened, (s.execute (op, rs)).Booked opened := by
  have hwired := wired_step h.wired op rs
  cases hf : s.conn.failed with
  | true =>
    -- an assertion has failed, and nothing runs any more
    refine ⟨opened, ?_⟩
    unfold execute
    rw [step_failed rs hf, hf]
    exact h
  | false =>
    -- in the loop thread a call takes effect at once, elsewhere it queues a closure
    cases op with
    | send inLoop msg =>
      refine ⟨opened, ?_⟩
      have hconn := step_send rs inLoop hf msg
      cases inLoop with
      | true =>
        rw [execute_eq hf _ rs hconn rfl]
        exact booked_sendInLoop h.plan h.bytes h.wired rs msg
      | false =>
        rw [execute_eq hf _ rs hconn rfl]
        rw [hconn] at hwired
        exact h.queue rfl rfl hwired rfl rfl trivial h.plan.streams
    | sendAsyncStream inLoop disableKickoff =>
      have hconn := step_sendAsyncStream rs inLoop hf disableKickoff
      cases inLoop with
      | true =>
        rw [execute_eq hf _ rs hconn rfl]
        -- the stream is open at once
        exact ⟨_, booked_newStream h disableKickoff⟩
      | false =>
        rw [execute_eq hf _ rs hconn rfl]
        rw [hconn] at hwired
        -- it is open when its closure runs
        exact ⟨_, booked_announce h disableKickoff hwired⟩
    | asyncSend inLoop id data => exact ⟨_, booked_asyncSend h hf rs inLoop data hturn⟩
    | asyncClose inLoop id => exact booked_asyncClose h hf rs inLoop hturn
    | shutdown inLoop =>
      -- shutdown and close leave alone what is asked, and what waits
      refine ⟨opened, ?_⟩
      have hconn := step_shutdown rs inLoop hf
      rw [hconn] at hwired
      cases inLoop with
      | true =>
        rw [execute_eq hf _ rs hconn rfl]
        exact h.of_sameSends sameSends_shutdownInLoop hwired
      | false =>
        rw [execute_eq hf _ rs hconn rfl]
        exact h.queue rfl rfl hwired rfl rfl trivial h.plan.streams
    | forceClose inLoop =>
      refine ⟨opened, ?_⟩
      have hconn := step_forceClose rs inLoop hf
      rw [hconn] at hwired
      cases inLoop with
      | true =>
        rw [execute_eq hf _ rs hconn rfl]
        exact h.of_sameSends sameSends_forceCloseInLoop hwired
      | false =>
        rw [execute_eq hf _ rs hconn rfl]
        exact h.queue rfl rfl hwired rfl rfl trivial h.plan.streams
    | runFunc =>
      -- what a queued call asked for is booked now
      cases hfs : s.conn.funcs with
      | nil =>
        have hrecord : s.record .runFunc = s.log := by
          unfold record
          rw [hfs]
        rw [execute_eq hf _ rs (step_runFunc_nil rs hf hfs) hrecord]
        exact ⟨opened, h⟩
      | cons f fs =>
        have hrecord : s.record .runFunc = s.conn.book s.log f := by
          unfold record
          rw [hfs]
        rw [execute_eq hf _ rs (step_runFunc_cons rs hf hfs) hrecord]
        exact booked_runFunc h hfs rs
    | queueDestroyed =>
      refine ⟨opened, ?_⟩
      have hconn := step_queueDestroyed rs hf
      rw [execute_eq hf _ rs hconn rfl]
      rw [hconn] at hwired
      split at hwired
      case isTrue hclosing =>
        rw [if_pos hclosing]
        exact h.queue rfl rfl hwired rfl rfl trivial h.plan.streams
      case isFalse hclosing =>
        rw [if_neg hclosing]
        exact h
    | readCallback now ret =>
      -- the rest does not send: the bytes and the queue are as before
      have hconn := step_readCallback rs hf now ret
      rw [execute_eq hf _ rs hconn rfl]
      rw [hconn] at hwired
      exact ⟨opened, h.of_sameSends (sameSends_readCallback now ret) hwired⟩
    | writeCallback =>
      rw [execute_eq hf _ rs (step_writeCallback rs hf) rfl]
      exact ⟨opened, booked_writeCallback h rs⟩
    | closeCallback =>
      have hconn := step_closeCallback rs hf
      rw [execute_eq hf _ rs hconn rfl]
      rw [hconn] at hwired
      exact ⟨opened, h.of_sameSends sameSends_handleClose hwired⟩
    | keepAlive =>
      have hconn := step_keepAlive rs hf
      rw [execute_eq hf _ rs hconn rfl]
      rw [hconn] at hwired
      exact ⟨opened, h.of_sameSends (sameSends_kickoff _) hwired⟩
    | enableKickingOff timeout =>
      have hconn := step_enableKickingOff rs hf timeout
      rw [execute_eq hf _ rs hconn rfl]
      rw [hconn] at hwired
      refine ⟨opened, h.of_sameSends ?_ hwired⟩
      split
      · exact sameSends_kickoff _
      · exact sameSends_assert false
    | destroyEntry i =>
      have hconn := step_destroyEntry rs hf i
      rw [execute_eq hf _ rs hconn rfl]
      rw [hconn] at hwired
      refine ⟨opened, h.of_sameSends ?_ hwired⟩
      split
      · exact (sameSends_kickoff _).trans sameSends_forceCloseInLoop
      · exact sameSends_kickoff _
    | sendFile inLoop file => cases hop
    | sendStream inLoop callback => cases hop

/-! ## Runs -/

theorem booked_start (highWaterMark : Option Nat) (kickoff : Kickoff) :
    (start highWaterMark kickoff).Booked [] where
  bytes := by
    have hstart := accounted_start highWaterMark kickoff
    exact hstart
  wired := wired_established highWaterMark kickoff
  plan := by
    refine ⟨?_, ?_, List.nodup_nil, trivial, ?_⟩
    · rintro f ⟨⟩
    · rintro f ⟨⟩
    · rintro id ⟨⟩

/-- What is known of the bytes, read off the books. -/
theorem Booked.balanced (h : s.Booked opened) : s.Conserved := by
  have hconserved := h.bytes.toConserved
  refine ⟨hconserved.total, fun pre id bs post hlog hid => ?_, hconserved.sent⟩
  refine hconserved.behind pre id bs post hlog ?_
  -- a stream that is still to be opened has no item in the ledger
  rcases mem_or_opens (h.plan.streams id hid) with hopen | ⟨f, hf, hopens⟩
  · exact hopen
  · refine absurd ?_ (h.plan.fresh f hf id hopens).owner
    rw [hlog]
    exact Ledger.mem_owners.mpr ⟨_, List.mem_append_right _ List.mem_cons_self, rfl⟩

/-- **Sends of any thread.** In every state of every run, through shutdown and close, what the
socket accepted and what waits in the nodes is what was asked, in the order in which the loop
came to it. -/
theorem conserved_from_threads (highWaterMark : Option Nat) (kickoff : Kickoff)
    {as : List (Op × List SysRet)} (hops : ∀ a ∈ as, a.1.streamed = true)
    (hturn : Runs.Along execute (fun s a => s.conn.InTurn a.1) (start highWaterMark kickoff) as) :
    Runs.Always execute Conserved (start highWaterMark kickoff) as := by
  have hmem :
      Runs.Along execute (fun _ a => a.1.streamed = true) (start highWaterMark kickoff) as :=
    Runs.along_of_mem hops _
  have hall := Runs.always_of_along (I := fun s : Ledgered => ∃ opened, s.Booked opened)
    (fun _ a h hg => by
      obtain ⟨_, h⟩ := h
      exact booked_execute h hg.1 hg.2 a.2)
    ⟨[], booked_start highWaterMark kickoff⟩ (hmem.and hturn)
  refine hall.mono fun _ h => ?_
  obtain ⟨_, h⟩ := h
  exact h.balanced

/-- A stream that another thread opens, feeds and closes, a payload of the loop thread before it
and one of another thread behind it. -/
theorem conserved_from_threads_stream :
    Runs.Always execute Conserved (start none .new)
      [(.sendAsyncStream false false, []), (.asyncSend false 0 [4, 5], []),
        (.send true [1, 2, 3], [⟨some 1, .success, 0⟩]), (.send false [7, 8], []),
        (.asyncClose false 0, []), (.runFunc, []), (.runFunc, []), (.runFunc, []), (.runFunc, []),
        (.shutdown true, []), (.writeCallback, [.again])] :=
  conserved_from_threads none .new (by decide) (by decide)

end Ledgered

end TcpConnectionImpl

end XiaoNet
