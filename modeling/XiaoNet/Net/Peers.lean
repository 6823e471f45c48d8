import XiaoNet.Net.SocketOutput
import XiaoNet.Utils.MsgBufferMemory

/-!
# Two connections, end to end

Two programs of this library at the ends of a TCP connection. Each end is a connection with its
ledger and its `MsgBuffer`; the stream between them is what the socket of one end has accepted, of
which the kernel has handed out the first `delivered` bytes to the other end.

- `Peer.read`: the read event. `readv` delivers bytes in flight, or nothing once the other end is
  shut down or closed and all of its bytes are delivered.
- `Linked p q`: what `p` has got of the bytes of `q`. The buffers of the nodes that these wait in
  are unbounded queues of bytes; the read buffer is a `MsgBuffer` as it is.
- `end_to_end`: in every state of every run, what an end has retrieved and what is in its read
  buffer is a prefix of what was asked at the other end; it is all of it when the end of the
  stream has been read and the other end was shut down.
-/

namespace XiaoNet

open TcpConnectionImpl (Ledgered Op)

/-- The kernel does not take the bytes: the write side is shut down. -/
def SysRet.refuse (r : SysRet) : SysRet := { r with taken := none, errno := .EPIPE }

/-- One end of the connection. -/
structure Peer where
  sends : Ledgered
  readBuffer : MsgBuffer
  /-- How many bytes the kernel has handed out. -/
  delivered : Nat
  /-- What the program has retrieved from the buffer. -/
  taken : List Byte
  /-- `readv` has returned 0. -/
  eof : Bool
  /-- The descriptor is closed. -/
  gone : Bool
  /-- What had been asked when the write side was shut down. -/
  shut : Option (List Byte)
  fault : Option Fault

namespace Peer

def output (p : Peer) : List Byte := p.sends.conn.socket.output

def writeClosed (p : Peer) : Bool := p.sends.conn.socket.writeClosed

/-- No byte will follow. -/
def finished (p : Peer) : Bool := p.writeClosed || p.gone

/-- After `connectEstablished`. -/
def start (highWaterMark : Option Nat) (kickoff : Kickoff) : Peer where
  sends := .start highWaterMark kickoff
  readBuffer := .fresh 2048
  delivered := 0
  taken := []
  eof := false
  gone := false
  shut := none
  fault := none

inductive Act where
  /-- What happens to the connection, reading apart. -/
  | call (op : Op) (rs : List SysRet)
  /-- The read event, with at most `k` bytes ready. -/
  | read (k now : Nat)
  | readError (errno : Errno) (now : Nat)
  /-- The program reads from the buffer. -/
  | retrieve (n : Nat)
  /-- The last reference to the connection goes away. -/
  | close

def call (p : Peer) (op : Op) (rs : List SysRet) : Peer :=
  let sends := p.sends.execute (op, if p.writeClosed then rs.map SysRet.refuse else rs)
  { p with
    sends := sends
    shut :=
      if !p.writeClosed && sends.conn.socket.writeClosed then some (Ledger.bytes sends.log)
      else p.shut }

def readCallback (p : Peer) (now : Nat) (ret : TcpConnectionImpl.ReadRet) : Peer :=
  { p with sends := p.sends.execute (.readCallback now ret, []) }

/-- What a read of `p` takes from the stream of `q` when `k` bytes are ready. -/
def data (p q : Peer) (k : Nat) : List Byte :=
  (q.output.drop p.delivered).take (min k p.readBuffer.readvCapacity)

/-- The read event of `p`, connected to `q`. -/
def read (p q : Peer) (k now : Nat) : Peer :=
  if p.data q k = [] ∧ ¬ (q.output.drop p.delivered = [] ∧ q.finished) then
    p.readCallback now (.error .EAGAIN)
  else
    match p.readBuffer.readFd (some (p.data q k)) with
    | .error fault => { p with fault := some fault }
    | .ok (readBuffer, _) =>
      { p.readCallback now (.bytes (p.data q k)) with
        readBuffer := readBuffer
        delivered := p.delivered + (p.data q k).length
        eof := p.eof || (p.data q k).isEmpty }

def retrieve (p : Peer) (n : Nat) : Peer :=
  match p.readBuffer.read n with
  | .error fault => { p with fault := some fault }
  | .ok (bytes, readBuffer) =>
    { p with
      readBuffer := readBuffer
      taken := p.taken ++ bytes
      sends := { p.sends with
        conn := { p.sends.conn with readBuffer := p.sends.conn.readBuffer.drop n } } }

/-- The connection is destroyed once it is closed and none of its closures is left. -/
def close (p : Peer) : Peer :=
  if p.sends.conn.status = .disconnected ∧ p.sends.conn.funcs = [] then { p with gone := true }
  else p

def act (p q : Peer) (a : Act) : Peer :=
  -- a failed `assert` has ended the program
  if p.sends.conn.failed then { p with gone := true }
  else
    match a with
    | .call op rs => p.call op rs
    | .read k now => p.read q k now
    | .readError errno now => p.readCallback now (.error errno)
    | .retrieve n => p.retrieve n
    | .close => p.close

/-- An end that is gone does nothing. -/
def step (s : Bool → Peer) (a : Bool × Act) : Bool → Peer :=
  if (s a.1).gone then s else Function.update s a.1 ((s a.1).act (s !a.1) a.2)

/-- A read finds at most so many bytes in the buffer. -/
def maxUnread : Nat := 2 ^ 29

def Proper (p : Peer) : Act → Prop
  | .call op _ => op.streamed = true ∧ op.reads = false ∧ p.sends.conn.InTurn op
  | .read _ _ => p.readBuffer.readableBytes ≤ maxUnread
  | _ => True

instance (p : Peer) : (a : Act) → Decidable (p.Proper a)
  | .call _ _ => inferInstanceAs (Decidable (_ ∧ _ ∧ _))
  | .read _ _ => inferInstanceAs (Decidable (_ ≤ _))
  | .readError _ _ | .retrieve _ | .close => .isTrue trivial

/-! ## What holds of one end -/

/-- The books of the end are in order. -/
structure Sound (p : Peer) : Prop where
  booked : ∃ opened, p.sends.Booked opened
  shut : ∀ bs, p.shut = some bs → p.writeClosed = true ∧ p.output = bs
  closed : p.writeClosed = true → p.shut ≠ none

/-- What `p` has got of the bytes of `q`. -/
structure Linked (p q : Peer) : Prop where
  fault : p.fault = none
  regular : p.readBuffer.Regular
  short : p.readBuffer.buffer.length ≤ 2 ^ 30 + 2 ^ 16
  held : p.sends.conn.readBuffer = p.readBuffer.contents
  counted : p.sends.conn.bytesReceived = p.delivered
  delivered_le : p.delivered ≤ q.output.length
  stream : p.taken ++ p.readBuffer.contents = q.output.take p.delivered
  ended : p.eof = true → p.delivered = q.output.length ∧ q.finished = true

/-- What a step does to the stream of an end. -/
structure Follows (p p' : Peer) : Prop where
  output : p.output <+: p'.output
  finished : p.finished = true → p'.output = p.output ∧ p'.finished = true

variable {p p' q q' : Peer}

theorem Follows.of_eq (hout : p'.output = p.output)
    (hfin : p.finished = true → p'.finished = true) : Follows p p' :=
  ⟨by rw [hout], fun h => ⟨hout, hfin h⟩⟩

theorem Linked.follows (h : Linked p q) (hq : Follows q q') : Linked p q' where
  fault := h.fault
  regular := h.regular
  short := h.short
  held := h.held
  counted := h.counted
  delivered_le := Nat.le_trans h.delivered_le hq.output.length_le
  stream := by
    obtain ⟨rest, hrest⟩ := hq.output
    rw [h.stream, ← hrest, List.take_append_of_le_length h.delivered_le]
  ended heof := by
    obtain ⟨hall, hfin⟩ := h.ended heof
    obtain ⟨hout, hfin'⟩ := hq.finished hfin
    exact ⟨hall.trans (congrArg List.length hout).symm, hfin'⟩

/-! ## Calls -/

theorem refused_refuse (rs : List SysRet) : Refused (rs.map SysRet.refuse) := by
  intro r hr
  obtain ⟨r, -, rfl⟩ := List.mem_map.mp hr
  rfl

/-- The results that a call gets. -/
def results (p : Peer) (rs : List SysRet) : List SysRet :=
  if p.writeClosed then rs.map SysRet.refuse else rs

theorem pours_call {op : Op} (hop : op.reads = false) (rs : List SysRet) :
    TcpConnectionImpl.Pours (p.results rs) p.sends.conn (p.call op rs).sends.conn :=
  TcpConnectionImpl.pours_step hop _

theorem writeClosed_call (h : p.Sound) (op : Op) (rs : List SysRet) :
    TcpConnectionImpl.ClosesEmpty p.sends.conn (p.call op rs).sends.conn := by
  obtain ⟨opened, hbooked⟩ := h.booked
  exact TcpConnectionImpl.closesEmpty_step hbooked.wired op _

theorem follows_call (h : p.Sound) (hgone : p.gone = false) {op : Op} (hop : op.reads = false)
    (rs : List SysRet) : Follows p (p.call op rs) where
  output := (pours_call hop rs).grows
  finished hfin := by
    have hclosed : p.writeClosed = true := by simpa [finished, hgone] using hfin
    have hpours := pours_call (p := p) hop rs
    rw [results, if_pos hclosed] at hpours
    refine ⟨hpours.refused (refused_refuse rs), ?_⟩
    have hstill : (p.call op rs).writeClosed = true := by
      rcases writeClosed_call h op rs with heq | ⟨htrue, -⟩
      · exact heq.trans hclosed
      · exact htrue
    simp [finished, hstill]

theorem shut_call (op : Op) (rs : List SysRet) :
    (p.call op rs).shut =
      if !p.writeClosed && (p.call op rs).writeClosed then
        some (Ledger.bytes (p.call op rs).sends.log)
      else p.shut := rfl

theorem sound_call (h : p.Sound) {op : Op} (rs : List SysRet) (hproper : p.Proper (.call op rs)) :
    (p.call op rs).Sound := by
  obtain ⟨hop, hreads, hturn⟩ := hproper
  obtain ⟨opened, hbooked⟩ := h.booked
  have hbooks := Ledgered.booked_execute hbooked hop hturn (p.results rs)
  have hshut := shut_call (p := p) op rs
  cases hclosed : p.writeClosed with
  | true =>
    -- nothing more is accepted
    have hpours := pours_call (p := p) hreads rs
    rw [results, if_pos hclosed] at hpours
    have hout : (p.call op rs).output = p.output := hpours.refused (refused_refuse rs)
    have hstill : (p.call op rs).writeClosed = true := by
      rcases writeClosed_call h op rs with heq | ⟨htrue, -⟩
      · exact heq.trans hclosed
      · exact htrue
    have hsame : (p.call op rs).shut = p.shut := by rw [hshut, hclosed]; rfl
    refine ⟨hbooks, ?_, ?_⟩
    · rw [hsame, hout]
      exact fun bs hbs => ⟨hstill, (h.shut bs hbs).2⟩
    · rw [hsame]
      exact fun _ => h.closed hclosed
  | false =>
    have hnone : p.shut = none := by
      cases hp : p.shut with
      | none => rfl
      | some bs =>
        rw [(h.shut bs hp).1] at hclosed
        cases hclosed
    rcases writeClosed_call h op rs with heq | ⟨htrue, hlist⟩
    · have hopen : (p.call op rs).writeClosed = false := heq.trans hclosed
      have hsame : (p.call op rs).shut = none := by rw [hshut, hclosed, hopen, ← hnone]; rfl
      refine ⟨hbooks, ?_, ?_⟩
      · rw [hsame]
        rintro bs ⟨⟩
      · rw [hopen]
        rintro ⟨⟩
    · -- nothing waits: what was asked has been accepted
      have hnow : (p.call op rs).writeClosed = true := htrue
      have hasked : (p.call op rs).shut = some (Ledger.bytes (p.call op rs).sends.log) := by
        rw [hshut, hclosed, hnow]
        rfl
      obtain ⟨opened', hbooked'⟩ := hbooks
      have htotal := hbooked'.balanced.total
      rw [show (p.sends.execute (op, p.results rs)).conn.writeBufferList = [] from hlist,
        List.flatMap_nil, List.append_nil] at htotal
      refine ⟨⟨opened', hbooked'⟩, ?_, ?_⟩
      · rw [hasked]
        rintro bs ⟨⟩
        exact ⟨hnow, htotal⟩
      · rw [hasked]
        rintro - ⟨⟩

theorem linked_call (h : Linked p q) {op : Op} (hop : op.reads = false) (rs : List SysRet) :
    Linked (p.call op rs) q where
  fault := h.fault
  regular := h.regular
  short := h.short
  held := (pours_call hop rs).readBuffer_eq.trans h.held
  counted := (pours_call hop rs).bytesReceived_eq.trans h.counted
  delivered_le := h.delivered_le
  stream := h.stream
  ended := h.ended

/-! ## Reading -/

theorem conn_readCallback (hf : p.sends.conn.failed = false) (now : Nat)
    (ret : TcpConnectionImpl.ReadRet) :
    (p.readCallback now ret).sends.conn = p.sends.conn.readCallback now ret :=
  TcpConnectionImpl.step_readCallback [] hf now ret

theorem socket_readCallback (c : TcpConnectionImpl) (now : Nat)
    (ret : TcpConnectionImpl.ReadRet) : (c.readCallback now ret).socket = c.socket := by
  cases ret with
  | bytes data => cases data <;> rfl
  | error errno => cases errno <;> rfl

/-- A read leaves the stream of the end alone. -/
theorem sound_readCallback (h : p.Sound) (hf : p.sends.conn.failed = false) (now : Nat)
    (ret : TcpConnectionImpl.ReadRet) : (p.readCallback now ret).Sound := by
  obtain ⟨opened, hbooked⟩ := h.booked
  have hsocket : (p.readCallback now ret).sends.conn.socket = p.sends.conn.socket := by
    rw [conn_readCallback hf, socket_readCallback]
  have hclosed : (p.readCallback now ret).writeClosed = p.writeClosed :=
    congrArg Socket.writeClosed hsocket
  have hturn : p.sends.conn.InTurn (.readCallback now ret) := trivial
  have hbooks := Ledgered.booked_execute hbooked rfl hturn []
  refine ⟨hbooks, ?_, ?_⟩
  · intro bs hbs
    obtain ⟨hshut, hout⟩ := h.shut bs hbs
    exact ⟨hclosed.trans hshut, (congrArg Socket.output hsocket).trans hout⟩
  · rw [hclosed]
    exact h.closed

theorem follows_readCallback (hf : p.sends.conn.failed = false) (now : Nat)
    (ret : TcpConnectionImpl.ReadRet) : Follows p (p.readCallback now ret) := by
  have hsocket : (p.readCallback now ret).sends.conn.socket = p.sends.conn.socket := by
    rw [conn_readCallback hf, socket_readCallback]
  refine .of_eq (congrArg Socket.output hsocket) fun hfin => ?_
  show ((p.readCallback now ret).sends.conn.socket.writeClosed || p.gone) = true
  rw [hsocket]
  exact hfin

theorem linked_readError (h : Linked p q) (hf : p.sends.conn.failed = false) (errno : Errno)
    (now : Nat) : Linked (p.readCallback now (.error errno)) q where
  fault := h.fault
  regular := h.regular
  short := h.short
  held := by
    rw [conn_readCallback hf]
    refine Eq.trans ?_ h.held
    cases errno <;> rfl
  counted := by
    rw [conn_readCallback hf]
    refine Eq.trans ?_ h.counted
    cases errno <;> rfl
  delivered_le := h.delivered_le
  stream := h.stream
  ended := h.ended

theorem data_length_le (p q : Peer) (k : Nat) : (p.data q k).length ≤ p.readBuffer.readvCapacity :=
  Nat.le_trans (List.length_take_le _ _) (Nat.min_le_right _ _)

/-- The bytes delivered and those of the read are the next ones of the stream. -/
theorem take_data (p q : Peer) (k : Nat) :
    q.output.take p.delivered ++ p.data q k =
      q.output.take (p.delivered + (p.data q k).length) := by
  have hprefix : p.data q k <+: q.output.drop p.delivered := List.take_prefix _ _
  rw [List.take_add, ← List.prefix_iff_eq_take.mp hprefix]

/-- The read event finds nothing, or its `readFd` succeeds. -/
theorem read_cases (h : Linked p q) (k now : Nat)
    (hunread : p.readBuffer.readableBytes ≤ maxUnread) :
    p.read q k now = p.readCallback now (.error .EAGAIN) ∨
    ∃ b, p.read q k now =
        { p.readCallback now (.bytes (p.data q k)) with
          readBuffer := b
          delivered := p.delivered + (p.data q k).length
          eof := p.eof || (p.data q k).isEmpty } ∧
      b.Regular ∧ b.buffer.length ≤ 2 ^ 30 + 2 ^ 16 ∧
      b.contents = p.readBuffer.contents ++ p.data q k ∧
      (p.data q k = [] → q.output.drop p.delivered = [] ∧ q.finished = true) := by
  by_cases hagain : p.data q k = [] ∧ ¬ (q.output.drop p.delivered = [] ∧ q.finished)
  · exact .inl (if_pos hagain)
  · have hwf := h.regular.wf
    have hshort := h.short
    have hw := hwf.writableBytes_eq
    have hcap := data_length_le p q k
    have hiov := MsgBuffer.iovLen_eq (b := p.readBuffer) (by omega)
    have hmax : (2 : Nat) ^ 32 ≤ vectorMaxSize := by decide
    have hext : MsgBuffer.extBufferSize = 8192 := rfl
    -- so few bytes are unread that `iovlen` does not wrap around
    have hlen : (p.data q k).length ≤ p.readBuffer.writableBytes + 8192 := by
      unfold MsgBuffer.readvCapacity at hcap
      split at hcap <;> omega
    have hfits : p.readBuffer.Fits (p.data q k).length := by
      unfold MsgBuffer.Fits
      omega
    -- the buffer holds what it held and what was read
    obtain ⟨b, hok, hbec⟩ := MsgBuffer.readFd_spec hwf (by omega) hcap hfits
    refine .inr ⟨b, ?_, ⟨hbec.wf, hbec.locked h.regular.locked⟩, ?_, hbec.contents, ?_⟩
    · rw [read, if_neg hagain, hok]
    · -- it is no larger than what it holds asks for
      have hheld := hwf.length_contents_eq
      have hunread' : maxUnread = 2 ^ 29 := rfl
      rcases MsgBuffer.readFd_grew h.regular hcap hok with hsame | ⟨-, hle, hfew, hgrew⟩
      · omega
      · unfold MsgBuffer.Grew at hgrew
        omega
    · intro hnil
      by_contra hnot
      exact hagain ⟨hnil, hnot⟩

theorem linked_read (h : Linked p q) (hf : p.sends.conn.failed = false) (k now : Nat)
    (hunread : p.readBuffer.readableBytes ≤ maxUnread) : Linked (p.read q k now) q := by
  -- nothing in flight, or some of it arrives, or the end of the stream
  rcases read_cases h k now hunread with heq | ⟨b, heq, hreg, hshort, hcontents, hend⟩
  · rw [heq]
    exact linked_readError h hf .EAGAIN now
  · have hconn := conn_readCallback hf now (.bytes (p.data q k))
    have hfew : (p.data q k).length ≤ (q.output.drop p.delivered).length := List.length_take_le' _ _
    rw [List.length_drop] at hfew
    have hle := h.delivered_le
    rw [heq]
    refine ⟨h.fault, hreg, hshort, ?_, ?_, ?_, ?_, ?_⟩
    · show (p.readCallback now (.bytes (p.data q k))).sends.conn.readBuffer = b.contents
      rw [hconn, hcontents, ← h.held]
      cases p.data q k with
      | nil => exact (List.append_nil _).symm
      | cons byte rest => rfl
    · show (p.readCallback now (.bytes (p.data q k))).sends.conn.bytesReceived = _
      rw [hconn, ← h.counted]
      cases p.data q k <;> rfl
    · show p.delivered + (p.data q k).length ≤ q.output.length
      omega
    · show p.taken ++ b.contents = q.output.take (p.delivered + (p.data q k).length)
      rw [hcontents, ← List.append_assoc, h.stream, take_data]
    · intro heof
      show p.delivered + (p.data q k).length = q.output.length ∧ _
      -- the end was read before, or it is read now
      rcases Bool.or_eq_true_iff.mp heof with hold | hnew
      · obtain ⟨hall, hfin⟩ := h.ended hold
        exact ⟨by omega, hfin⟩
      · obtain ⟨hnone, hfin⟩ := hend (List.isEmpty_iff.mp hnew)
        have hall := List.drop_eq_nil_iff.mp hnone
        exact ⟨by omega, hfin⟩

theorem sound_read (h : p.Sound) (hlink : Linked p q) (hf : p.sends.conn.failed = false)
    (k now : Nat) (hunread : p.readBuffer.readableBytes ≤ maxUnread) : (p.read q k now).Sound := by
  rcases read_cases hlink k now hunread with heq | ⟨b, heq, -⟩
  · rw [heq]
    exact sound_readCallback h hf now _
  · have hcall := sound_readCallback h hf now (.bytes (p.data q k))
    rw [heq]
    exact ⟨hcall.booked, hcall.shut, hcall.closed⟩

theorem follows_read (hlink : Linked p q) (hf : p.sends.conn.failed = false)
    (k now : Nat) (hunread : p.readBuffer.readableBytes ≤ maxUnread) :
    Follows p (p.read q k now) := by
  rcases read_cases hlink k now hunread with heq | ⟨b, heq, -⟩
  · rw [heq]
    exact follows_readCallback hf now _
  · have hcall := follows_readCallback (p := p) hf now (.bytes (p.data q k))
    rw [heq]
    exact ⟨hcall.output, hcall.finished⟩

/-! ## The program -/

theorem retrieve_ok (h : Linked p q) (n : Nat) :
    p.retrieve n =
      { p with
        readBuffer := p.readBuffer.retrieve (min n p.readBuffer.readableBytes)
        taken := p.taken ++ p.readBuffer.contents.take n
        sends := { p.sends with
          conn := { p.sends.conn with readBuffer := p.sends.conn.readBuffer.drop n } } } := by
  rw [retrieve, MsgBuffer.read_eq h.regular.wf]

theorem linked_retrieve (h : Linked p q) (n : Nat) : Linked (p.retrieve n) q := by
  have hwf := h.regular.wf
  have hbec := MsgBuffer.retrieve_spec hwf (n := min n p.readBuffer.readableBytes)
    fun _ => h.regular.locked.noShrink
  have hdrop : p.readBuffer.contents.drop (min n p.readBuffer.readableBytes)
      = p.readBuffer.contents.drop n := by
    rw [← hwf.length_contents_eq]
    by_cases hn : n ≤ p.readBuffer.contents.length
    · rw [Nat.min_eq_left hn]
    · rw [Nat.min_eq_right (by omega), List.drop_length, List.drop_eq_nil_of_le (by omega)]
  have hcontents := hbec.contents.trans hdrop
  rw [retrieve_ok h]
  refine ⟨h.fault, ⟨hbec.wf, hbec.locked h.regular.locked⟩, ?_, ?_, h.counted, h.delivered_le, ?_,
    h.ended⟩
  · show (p.readBuffer.retrieve _).buffer.length ≤ _
    rw [MsgBuffer.retrieve_same h.regular]
    exact h.short
  · show p.sends.conn.readBuffer.drop n = (p.readBuffer.retrieve _).contents
    rw [hcontents, h.held]
  · show p.taken ++ p.readBuffer.contents.take n ++ (p.readBuffer.retrieve _).contents = _
    rw [hcontents, List.append_assoc, List.take_append_drop]
    exact h.stream

theorem sound_retrieve (h : p.Sound) (hlink : Linked p q) (n : Nat) : (p.retrieve n).Sound := by
  obtain ⟨opened, hbooked⟩ := h.booked
  rw [retrieve_ok hlink]
  refine ⟨⟨opened, hbooked.of_sameSends ⟨rfl, rfl, rfl, rfl, rfl, rfl, rfl, rfl⟩ ?_⟩, h.shut,
    h.closed⟩
  exact hbooked.wired.of_fields rfl rfl rfl rfl (fun _ hj => hj) fun _ hf => .inl hf

theorem follows_retrieve (hlink : Linked p q) (n : Nat) : Follows p (p.retrieve n) := by
  rw [retrieve_ok hlink]
  exact .of_eq rfl fun hfin => hfin

/-- The descriptor is closed. -/
def leave (p : Peer) : Peer := { p with gone := true }

theorem follows_leave : Follows p p.leave := .of_eq rfl fun _ => Bool.or_true _

theorem linked_leave (h : Linked p q) : Linked p.leave q :=
  ⟨h.fault, h.regular, h.short, h.held, h.counted, h.delivered_le, h.stream, h.ended⟩

theorem sound_leave (h : p.Sound) : p.leave.Sound := ⟨h.booked, h.shut, h.closed⟩

theorem close_cases (p : Peer) : p.close = p ∨ p.close = p.leave := by
  unfold close
  split
  · exact .inr rfl
  · exact .inl rfl

/-- **One act** of an end: its books stay in order, it keeps what it has got, and its stream goes
on. -/
theorem act_spec (h : p.Sound) (hlink : Linked p q) (hgone : p.gone = false) {a : Act}
    (hproper : p.Proper a) :
    (p.act q a).Sound ∧ Linked (p.act q a) q ∧ Follows p (p.act q a) := by
  cases hf : p.sends.conn.failed with
  | true =>
    -- an assertion has ended this program, and the kernel closes its socket
    have hact : p.act q a = p.leave := if_pos hf
    rw [hact]
    exact ⟨sound_leave h, linked_leave hlink, follows_leave⟩
  | false =>
    unfold act
    rw [if_neg (by simp [hf])]
    cases a with
    | call op rs =>
      exact ⟨sound_call h rs hproper, linked_call hlink hproper.2.1 rs,
        follows_call h hgone hproper.2.1 rs⟩
    | read k now =>
      exact ⟨sound_read h hlink hf k now hproper, linked_read hlink hf k now hproper,
        follows_read hlink hf k now hproper⟩
    | readError errno now =>
      exact ⟨sound_readCallback h hf now _, linked_readError hlink hf errno now,
        follows_readCallback hf now _⟩
    | retrieve n =>
      exact ⟨sound_retrieve h hlink n, linked_retrieve hlink n, follows_retrieve hlink n⟩
    | close =>
      rcases close_cases p with heq | heq
      · dsimp only
        rw [heq]
        exact ⟨h, hlink, .of_eq rfl fun hfin => hfin⟩
      · dsimp only
        rw [heq]
        exact ⟨sound_leave h, linked_leave hlink, follows_leave⟩

/-! ## Runs -/

/-- Both ends are in order. -/
def Joined (s : Bool → Peer) : Prop := ∀ i, (s i).Sound ∧ Linked (s i) (s !i)

theorem joined_step {s : Bool → Peer} (h : Joined s) {a : Bool × Act}
    (hproper : (s a.1).Proper a.2) : Joined (step s a) := by
  obtain ⟨i, act⟩ := a
  unfold step
  cases hgone : (s i).gone with
  | true => exact h
  | false =>
    rw [if_neg Bool.false_ne_true]
    obtain ⟨hsound, hlinked, hfollows⟩ := act_spec (h i).1 (h i).2 hgone hproper
    have hother : (!i) ≠ i := by cases i <;> decide
    intro j
    by_cases hj : j = i
    · subst hj
      rw [Function.update_self, Function.update_of_ne hother]
      exact ⟨hsound, hlinked⟩
    · -- the other end keeps what it has got
      have hback : (!j) = i := by cases i <;> cases j <;> first | rfl | exact absurd rfl hj
      have hlink := (h j).2
      rw [hback] at hlink
      rw [Function.update_of_ne hj, hback, Function.update_self]
      exact ⟨(h j).1, hlink.follows hfollows⟩

theorem sound_start (highWaterMark : Option Nat) (kickoff : Kickoff) :
    (start highWaterMark kickoff).Sound where
  booked := ⟨[], Ledgered.booked_start highWaterMark kickoff⟩
  shut := by rintro bs ⟨⟩
  closed := by rintro ⟨⟩

theorem linked_start (highWaterMark : Option Nat) (kickoff : Kickoff) (q : Peer) :
    Linked (start highWaterMark kickoff) q where
  fault := rfl
  regular := ⟨MsgBuffer.fresh_wellFormed (by decide), MsgBuffer.fresh_locked (by decide)⟩
  short := by
    show (MsgBuffer.fresh 2048).buffer.length ≤ _
    rw [MsgBuffer.length_fresh]
    decide
  held := (MsgBuffer.contents_fresh 2048).symm
  counted := rfl
  delivered_le := Nat.zero_le _
  stream := MsgBuffer.contents_fresh 2048
  ended := by rintro ⟨⟩

/-- What `p` gets from `q`. -/
structure Gets (p q : Peer) : Prop where
  /-- No operation of the buffer failed. -/
  fault : p.fault = none
  /-- What was retrieved and what is in the buffer, in order, is what was asked first. -/
  inOrder : p.taken ++ p.readBuffer.contents <+: Ledger.bytes q.sends.log
  counted : p.sends.conn.bytesReceived = (p.taken ++ p.readBuffer.contents).length
  /-- At the end of the stream it is all that the other socket has accepted. -/
  whole : p.eof = true → p.taken ++ p.readBuffer.contents = q.output
  /-- The end of the stream of a program that goes on is its shutdown. -/
  shut : p.eof = true → q.gone = false → q.shut ≠ none
  /-- It is all that was asked before the shutdown. -/
  graceful : p.eof = true → ∀ bs, q.shut = some bs → p.taken ++ p.readBuffer.contents = bs

theorem Linked.gets (h : Linked p q) (hq : q.Sound) : Gets p q := by
  obtain ⟨opened, hbooked⟩ := hq.booked
  have hasked : q.output <+: Ledger.bytes q.sends.log := ⟨_, hbooked.balanced.total⟩
  have hwhole : p.eof = true → p.taken ++ p.readBuffer.contents = q.output := by
    intro heof
    rw [h.stream, (h.ended heof).1, List.take_length]
  refine ⟨h.fault, ?_, ?_, hwhole, ?_, ?_⟩
  · rw [h.stream]
    exact (List.take_prefix _ _).trans hasked
  · rw [h.stream, h.counted, List.length_take, Nat.min_eq_left h.delivered_le]
  · intro heof hgone
    have hfin := (h.ended heof).2
    exact hq.closed (by simpa [finished, hgone] using hfin)
  · intro heof bs hbs
    rw [hwhole heof]
    exact (hq.shut bs hbs).2

end Peer

end XiaoNet
