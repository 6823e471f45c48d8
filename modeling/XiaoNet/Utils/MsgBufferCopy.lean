import XiaoNet.Utils.MsgBufferRoom

/-!
# The `std::copy` calls of a `MsgBuffer`

`ensureWritableBytes` moves the readable bytes to the front of the block and `addInFront` moves
them up, both by `std::copy` within the block, which requires that the destination does not lie
in the range that is copied.

- `ensureWritableBytesCopies`, `addInFrontCopies`, `Pool.copies`: the calls that an operation
  executes, also when it ends in a fault.
- `MoveOverlaps`, `FrontOverlaps`: the requests for which a call breaks the requirement.
- `copiesOk_iff_noOverlap`: along every run, all calls meet it exactly when no step makes such
  a request.
-/

namespace XiaoNet

namespace MsgBuffer

/-- A call `std::copy(begin() + first, begin() + last, begin() + dest)`. -/
structure StdCopy where
  first : Nat
  last : Nat
  dest : Nat
  deriving DecidableEq, Repr

/-- What `std::copy` requires of a range that is not empty. -/
def StdCopy.Ok (c : StdCopy) : Prop := c.first ≠ c.last → ¬ (c.first ≤ c.dest ∧ c.dest < c.last)

instance (c : StdCopy) : Decidable c.Ok := inferInstanceAs (Decidable (_ → _))

/-- The calls that follow an operation; none do when it does not return. -/
def andThen {α : Type} (x : Except Fault α) (f : α → List StdCopy) : List StdCopy :=
  match x with
  | .ok a => f a
  | .error _ => []

/-- The calls of `ensureWritableBytes`, with a bound on the depth of its calls of itself. -/
def ensureWritableBytesCopiesAux : Nat → MsgBuffer → Nat → List StdCopy
  | 0, _, _ => []
  | depth + 1, b, len =>
    if b.writableBytes > len then []
    else if addSize b.head b.writableBytes ≥ addSize len kBufferOffset then
      [⟨b.head, b.tail, kBufferOffset⟩]
    else andThen (new (b.newLen len)) fun newbuffer =>
      ensureWritableBytesCopiesAux depth newbuffer b.readableBytes

def ensureWritableBytesCopies (b : MsgBuffer) (len : Nat) : List StdCopy :=
  ensureWritableBytesCopiesAux 4 b len

/-- The calls of `addInFront`. -/
def addInFrontCopies (b : MsgBuffer) (buf : List Byte) : List StdCopy :=
  if b.head ≥ buf.length then []
  else if buf.length ≤ b.writableBytes then
    [⟨b.head, b.tail, addSize b.head buf.length⟩]
  else
    let needed := addSize buf.length b.readableBytes
    andThen (new (if needed < b.initCap then b.initCap else needed)) fun newBuf =>
      newBuf.ensureWritableBytesCopies buf.length ++
        andThen (newBuf.append buf) fun newBuf =>
          newBuf.ensureWritableBytesCopies b.readableBytes

/-- The calls of `readFd`, which appends what did not fit into the buffer. -/
def readFdCopies (b : MsgBuffer) : Option (List Byte) → List StdCopy
  | none => []
  | some data =>
    andThen (store b.buffer b.tail (data.take b.iovLen)) fun buffer =>
      andThen (store (List.replicate extBufferSize 0) 0 (data.drop b.iovLen)) fun extBuffer =>
        if data.length ≤ b.writableBytes then []
        else andThen (load extBuffer 0 (subSize data.length b.writableBytes)) fun rest =>
          { b with buffer := buffer, tail := buffer.length }.ensureWritableBytesCopies rest.length

namespace Pool

variable {ι : Type}

/-- The calls of an operation. -/
def copies (order : ByteOrder) (p : Pool ι) : Op ι → List StdCopy
  | .append i buf => (p.bufs i).ensureWritableBytesCopies buf.length
  | .appendBuffer i j => (p.bufs i).ensureWritableBytesCopies (p.bufs j).readableBytes
  | .appendInt8 i v => (p.bufs i).ensureWritableBytesCopies [v].length
  | .appendInt16 i v => (p.bufs i).ensureWritableBytesCopies (memory16 (htons v)).length
  | .appendInt32 i v => (p.bufs i).ensureWritableBytesCopies (memory32 (htonl v)).length
  | .appendInt64 i v =>
    (p.bufs i).ensureWritableBytesCopies (memory64 (order.hton64 v)).length
  | .addInFront i buf => (p.bufs i).addInFrontCopies buf
  | .addInFrontInt8 i v => (p.bufs i).addInFrontCopies [v]
  | .addInFrontInt16 i v => (p.bufs i).addInFrontCopies (memory16 (htons v))
  | .addInFrontInt32 i v => (p.bufs i).addInFrontCopies (memory32 (htonl v))
  | .addInFrontInt64 i v => (p.bufs i).addInFrontCopies (memory64 (order.hton64 v))
  | .ensureWritableBytes i len => (p.bufs i).ensureWritableBytesCopies len
  | .readFd i data => (p.bufs i).readFdCopies data
  | .retrieve _ _ | .retrieveAll _ | .retrieveUntil _ _ | .read _ _ | .hasWritten _ _
  | .unwrite _ _ | .swap _ _ => []

end Pool

/-! ## Which calls meet the requirement -/

/-- Every call of the list meets the requirement. -/
def CopiesOk (cs : List StdCopy) : Prop := ∀ c ∈ cs, c.Ok

theorem copiesOk_nil : CopiesOk [] := fun _ h => absurd h List.not_mem_nil

theorem copiesOk_singleton (c : StdCopy) : CopiesOk [c] ↔ c.Ok := by
  simp [CopiesOk]

theorem copiesOk_append (cs ds : List StdCopy) :
    CopiesOk (cs ++ ds) ↔ CopiesOk cs ∧ CopiesOk ds :=
  List.forall_mem_append

theorem empty_of_new {n : Nat} {b : MsgBuffer} (h : new n = .ok b) : b.head = b.tail := by
  by_cases hmax : addSize n kBufferOffset ≤ vectorMaxSize
  · rw [new, if_pos hmax] at h
    cases h
    rfl
  · rw [new, if_neg hmax] at h
    cases h

/-- A buffer without readable bytes has nothing to move. -/
theorem ensureWritableBytesCopiesAux_empty (depth : Nat) {b : MsgBuffer}
    (hempty : b.head = b.tail) (len : Nat) :
    CopiesOk (ensureWritableBytesCopiesAux depth b len) := by
  induction depth generalizing b len with
  | zero => exact copiesOk_nil
  | succ depth ih =>
    rw [ensureWritableBytesCopiesAux]
    split
    · exact copiesOk_nil
    -- with nothing readable the copy is of no bytes
    split
    · rw [copiesOk_singleton]
      exact fun hne => absurd hempty hne
    · cases hnew : new (b.newLen len) with
      | error e => exact copiesOk_nil
      | ok newbuffer => exact ih (empty_of_new hnew) _

variable {b : MsgBuffer} {len : Nat}

/-- A request that moves readable bytes at the front of the block onto themselves, because it
is for all the room behind them, or whose sum wraps so that bytes before the front offset, or
at it, are moved. -/
def MoveOverlaps (b : MsgBuffer) (len : Nat) : Prop :=
  b.head ≤ kBufferOffset ∧ kBufferOffset < b.tail ∧
    ((b.head = kBufferOffset ∧ len = b.writableBytes) ∨
      (sizeMod ≤ len + kBufferOffset ∧
        len + kBufferOffset - sizeMod ≤ b.head + b.writableBytes))

instance (b : MsgBuffer) (len : Nat) : Decidable (b.MoveOverlaps len) :=
  inferInstanceAs (Decidable (_ ∧ _))

theorem ensureWritableBytesCopies_ok_iff (h : b.WellFormed) (hlen : len < sizeMod) :
    CopiesOk (b.ensureWritableBytesCopies len) ↔ ¬ b.MoveOverlaps len := by
  have hht := h.head_le
  have htl := h.tail_le
  have hll := h.length_le
  have hlt : 2 * vectorMaxSize + 2 = sizeMod := by decide
  have hw := h.writableBytes_eq
  have hoff : kBufferOffset = 8 := rfl
  have hmoves := moves_iff h hlen
  rw [ensureWritableBytesCopies, ensureWritableBytesCopiesAux]
  by_cases hgt : b.writableBytes > len
  · have hnot : ¬ b.MoveOverlaps len := by
      rw [MoveOverlaps]
      omega
    rw [if_pos hgt]
    exact iff_of_true copiesOk_nil hnot
  rw [if_neg hgt]
  by_cases hmove : addSize b.head b.writableBytes ≥ addSize len kBufferOffset
  · rw [if_pos hmove, copiesOk_singleton, StdCopy.Ok, MoveOverlaps]
    rw [hmoves] at hmove
    show (b.head ≠ b.tail → ¬ (b.head ≤ kBufferOffset ∧ kBufferOffset < b.tail)) ↔ _
    omega
  · -- a new buffer is filled from the old one, which it does not overlap
    have hnot : ¬ b.MoveOverlaps len := by
      rw [hmoves] at hmove
      rw [MoveOverlaps]
      omega
    rw [if_neg hmove]
    refine iff_of_true ?_ hnot
    cases hnew : new (b.newLen len) with
    | error e => exact copiesOk_nil
    | ok newbuffer => exact ensureWritableBytesCopiesAux_empty 3 (empty_of_new hnew) _

/-- Bytes put in front that push up more readable bytes than they are themselves, or that a
new buffer takes without room to spare: then it is asked for all its room, with the bytes
already at its front. -/
def FrontOverlaps (b : MsgBuffer) (n : Nat) : Prop :=
  b.head < n ∧
    ((n ≤ b.writableBytes ∧ n < b.readableBytes) ∨
      (b.writableBytes < n ∧ b.initCap ≤ n + b.readableBytes ∧
        n + b.readableBytes + kBufferOffset ≤ vectorMaxSize))

instance (b : MsgBuffer) (n : Nat) : Decidable (b.FrontOverlaps n) :=
  inferInstanceAs (Decidable (_ ∧ _))

/-- The new buffer of `addInFront` has taken the bytes and takes the readable ones. -/
theorem addInFrontCopies_mid {mid : MsgBuffer} {n k r : Nat} (hwf : mid.WellFormed)
    (hhead : mid.head = kBufferOffset) (htail : mid.tail = kBufferOffset + k)
    (hlen : mid.buffer.length = n + kBufferOffset) (hk : 0 < k) (hr : r + k ≤ n) :
    CopiesOk (mid.ensureWritableBytesCopies r) ↔ r + k < n := by
  have hll := hwf.length_le
  have hlt : 2 * vectorMaxSize + 2 = sizeMod := by decide
  have hw := hwf.writableBytes_eq
  rw [ensureWritableBytesCopies_ok_iff hwf (by omega), MoveOverlaps]
  omega

/-- The calls on the new buffer of `addInFront`. -/
def frontCopies (b : MsgBuffer) (buf : List Byte) (newBuf : MsgBuffer) : List StdCopy :=
  newBuf.ensureWritableBytesCopies buf.length ++
    andThen (newBuf.append buf) fun newBuf => newBuf.ensureWritableBytesCopies b.readableBytes

/-- A new buffer whose block can be had makes an overlapping call when it has no room to
spare. -/
theorem frontCopies_fresh {buf : List Byte} {n : Nat} (hmax : n + kBufferOffset ≤ vectorMaxSize)
    (hk : 0 < buf.length) (hn : b.readableBytes + buf.length ≤ n) :
    CopiesOk (b.frontCopies buf (fresh n)) ↔ b.readableBytes + buf.length < n := by
  obtain ⟨mid, hmid, hbec, hmidHead, hmidTail, hmidLen⟩ :=
    fresh_append hmax (show buf.length ≤ n by omega)
  have hfirst : CopiesOk ((fresh n).ensureWritableBytesCopies buf.length) :=
    ensureWritableBytesCopiesAux_empty 4 rfl _
  rw [frontCopies, copiesOk_append, hmid, andThen, and_iff_right hfirst]
  exact addInFrontCopies_mid hbec.wf hmidHead hmidTail hmidLen hk hn

/-- A new buffer whose block cannot be had makes none: either the vector refuses it, or its
length wraps and the bytes do not fit into it. -/
theorem frontCopies_refused {buf : List Byte} (hbuf : buf.length ≤ vectorMaxSize) {n : Nat}
    (hlt : n < sizeMod) (hmax : ¬ n + kBufferOffset ≤ vectorMaxSize) :
    CopiesOk (andThen (new n) (b.frontCopies buf)) := by
  by_cases hsize : n + kBufferOffset < sizeMod
  · rw [new_lengthError hmax hsize]
    exact copiesOk_nil
  · obtain ⟨newBuf, hnew, hmakeRoom, hstore⟩ := new_wrapped hlt (Nat.not_lt.mp hsize)
    have happend : newBuf.append buf = .error .outOfBounds := by
      rw [append, ensureWritableBytes, hmakeRoom 3 _ hbuf, ok_bind, hstore]
      rfl
    rw [hnew, andThen, frontCopies, copiesOk_append, happend]
    exact ⟨ensureWritableBytesCopiesAux_empty 4 (empty_of_new hnew) _, copiesOk_nil⟩

theorem addInFrontCopies_ok_iff (h : b.Regular) {buf : List Byte}
    (hbuf : buf.length ≤ vectorMaxSize) :
    CopiesOk (b.addInFrontCopies buf) ↔ ¬ b.FrontOverlaps buf.length := by
  have hht := h.wf.head_le
  have htl := h.wf.tail_le
  have hll := h.wf.length_le
  have hcap := h.locked.length_eq
  have hlt : 2 * vectorMaxSize + 2 = sizeMod := by decide
  have hr := h.wf.readableBytes_eq
  rw [addInFrontCopies]
  -- before the readable bytes, within the block, or in a new buffer
  by_cases hhead : buf.length ≤ b.head
  · have hnot : ¬ b.FrontOverlaps buf.length := by
      rw [FrontOverlaps]
      omega
    rw [if_pos hhead]
    exact iff_of_true copiesOk_nil hnot
  rw [if_neg hhead]
  by_cases hroom : buf.length ≤ b.writableBytes
  · have hw := h.wf.writableBytes_eq
    rw [if_pos hroom, copiesOk_singleton, StdCopy.Ok, addSize_eq (by omega), FrontOverlaps]
    show (b.head ≠ b.tail → ¬ (b.head ≤ b.head + buf.length ∧ b.head + buf.length < b.tail)) ↔ _
    omega
  rw [if_neg hroom]
  have hneeded : addSize buf.length b.readableBytes = buf.length + b.readableBytes :=
    addSize_eq (by omega)
  dsimp only
  rw [hneeded]
  change CopiesOk (andThen (new (b.frontLen buf.length)) (b.frontCopies buf)) ↔ _
  -- the new buffer is `initCap_` large or as large as needed
  have hfront : (buf.length + b.readableBytes < b.initCap ∧ b.frontLen buf.length = b.initCap) ∨
      (b.initCap ≤ buf.length + b.readableBytes ∧
        b.frontLen buf.length = buf.length + b.readableBytes) := by
    unfold frontLen
    split <;> omega
  by_cases hmax : b.frontLen buf.length + kBufferOffset ≤ vectorMaxSize
  · rw [new_eq hmax, andThen, frontCopies_fresh hmax (by omega) (by omega), FrontOverlaps]
    omega
  · have hnot : ¬ b.FrontOverlaps buf.length := by
      rw [FrontOverlaps]
      omega
    exact iff_of_true (frontCopies_refused hbuf (by omega) hmax) hnot

/-- What `readFd` appends it appends to a full buffer: the readable bytes are moved down when
they lie behind all that it needs. -/
theorem readFdCopies_ok (h : b.Regular) (data : Option (List Byte)) :
    CopiesOk (b.readFdCopies data) := by
  cases data with
  | none => exact copiesOk_nil
  | some data =>
    have hht := h.wf.head_le
    have htl := h.wf.tail_le
    have hll := h.wf.length_le
    have hmod : sizeMod = 2 ^ 64 := rfl
    have hmax : vectorMaxSize = 2 ^ 63 - 1 := rfl
    have hw := h.wf.writableBytes_eq
    rw [readFdCopies]
    cases hstore : store b.buffer b.tail (data.take b.iovLen) with
    | error e => exact copiesOk_nil
    | ok buffer =>
    cases hext : store (List.replicate extBufferSize 0) 0 (data.drop b.iovLen) with
    | error e => exact copiesOk_nil
    | ok extBuffer =>
    rw [andThen, andThen]
    by_cases hle : data.length ≤ b.writableBytes
    · rw [if_pos hle]
      exact copiesOk_nil
    rw [if_neg hle]
    cases hload : load extBuffer 0 (subSize data.length b.writableBytes) with
    | error e => exact copiesOk_nil
    | ok rest =>
    have hsize := length_of_store hstore
    have hfilled := le_of_store hstore
    have hrest := le_of_store hext
    rw [List.length_take] at hfilled
    rw [List.length_drop, List.length_replicate, extBufferSize] at hrest
    have hlen := length_of_load hload
    rw [subSize_eq (by omega) (by omega)] at hlen
    -- the buffer is full to its end when the rest is appended, so no move is made within it
    have hfull : ({ b with buffer := buffer, tail := buffer.length } : MsgBuffer).WellFormed := by
      refine ⟨?_, Nat.le_refl _, ?_, ?_, ?_⟩
      · show b.head ≤ buffer.length
        omega
      · rw [hsize]
        exact h.wf.offset_le
      · rw [hsize]
        exact h.wf.cap_le
      · rw [hsize]
        exact hll
    have hoff : kBufferOffset = 8 := rfl
    rw [andThen, ensureWritableBytesCopies_ok_iff hfull (by omega), MoveOverlaps,
      hfull.writableBytes_eq]
    dsimp only
    omega

/-! ## Runs -/

namespace Pool

variable {ι : Type}

/-- The operation makes no request for which a call overlaps. -/
def NoOverlap (p : Pool ι) : Op ι → Prop
  | .append i buf => ¬ (p.bufs i).MoveOverlaps buf.length
  | .appendBuffer i j => ¬ (p.bufs i).MoveOverlaps (p.bufs j).readableBytes
  | .appendInt8 i _ => ¬ (p.bufs i).MoveOverlaps 1
  | .appendInt16 i _ => ¬ (p.bufs i).MoveOverlaps 2
  | .appendInt32 i _ => ¬ (p.bufs i).MoveOverlaps 4
  | .appendInt64 i _ => ¬ (p.bufs i).MoveOverlaps 8
  | .ensureWritableBytes i len => ¬ (p.bufs i).MoveOverlaps len
  | .addInFront i buf => ¬ (p.bufs i).FrontOverlaps buf.length
  | .addInFrontInt8 i _ => ¬ (p.bufs i).FrontOverlaps 1
  | .addInFrontInt16 i _ => ¬ (p.bufs i).FrontOverlaps 2
  | .addInFrontInt32 i _ => ¬ (p.bufs i).FrontOverlaps 4
  | .addInFrontInt64 i _ => ¬ (p.bufs i).FrontOverlaps 8
  | .retrieve _ _ | .retrieveAll _ | .retrieveUntil _ _ | .read _ _ | .hasWritten _ _
  | .unwrite _ _ | .readFd _ _ | .swap _ _ => True

/-- **One operation**: its calls meet the requirement unless it makes such a request. -/
theorem copies_ok_iff (order : ByteOrder) {p : Pool ι} (hreg : ∀ i, (p.bufs i).Regular)
    {op : Op ι} (hrange : p.InRange op) : CopiesOk (p.copies order op) ↔ p.NoOverlap op := by
  have hlt : vectorMaxSize < sizeMod := vectorMaxSize_lt
  have hfew : 8 < vectorMaxSize := by decide
  -- an operation that adds makes room first, the others copy nothing
  cases op with
  | append i buf =>
    exact ensureWritableBytesCopies_ok_iff (hreg i).wf (Nat.lt_of_le_of_lt hrange hlt)
  | appendBuffer i j =>
    have htl := (hreg j).wf.tail_le
    have hll := (hreg j).wf.length_le
    have hr := (hreg j).wf.readableBytes_eq
    exact ensureWritableBytesCopies_ok_iff (hreg i).wf (by omega)
  | appendInt8 i v =>
    exact ensureWritableBytesCopies_ok_iff (hreg i).wf (show 1 < sizeMod by omega)
  | appendInt16 i v =>
    exact ensureWritableBytesCopies_ok_iff (hreg i).wf (show 2 < sizeMod by omega)
  | appendInt32 i v =>
    exact ensureWritableBytesCopies_ok_iff (hreg i).wf (show 4 < sizeMod by omega)
  | appendInt64 i v =>
    exact ensureWritableBytesCopies_ok_iff (hreg i).wf (show 8 < sizeMod by omega)
  | ensureWritableBytes i len => exact ensureWritableBytesCopies_ok_iff (hreg i).wf hrange
  | addInFront i buf => exact addInFrontCopies_ok_iff (hreg i) hrange
  | addInFrontInt8 i v =>
    have hbuf : [v].length ≤ vectorMaxSize := Nat.le_trans (show 1 ≤ 8 by decide) hfew.le
    exact addInFrontCopies_ok_iff (hreg i) hbuf
  | addInFrontInt16 i v =>
    have hbuf : (memory16 (htons v)).length ≤ vectorMaxSize :=
      Nat.le_trans (show 2 ≤ 8 by decide) hfew.le
    exact addInFrontCopies_ok_iff (hreg i) hbuf
  | addInFrontInt32 i v =>
    have hbuf : (memory32 (htonl v)).length ≤ vectorMaxSize :=
      Nat.le_trans (show 4 ≤ 8 by decide) hfew.le
    exact addInFrontCopies_ok_iff (hreg i) hbuf
  | addInFrontInt64 i v =>
    have hbuf : (memory64 (order.hton64 v)).length ≤ vectorMaxSize := hfew.le
    exact addInFrontCopies_ok_iff (hreg i) hbuf
  | readFd i data => exact iff_of_true (readFdCopies_ok (hreg i) data) trivial
  | retrieve _ _ | retrieveAll _ | retrieveUntil _ _ | read _ _ | hasWritten _ _ | unwrite _ _
  | swap _ _ => exact iff_of_true copiesOk_nil trivial

/-- All calls of the step meet the requirement. -/
def StepCopiesOk (order : ByteOrder) (s : Except Fault (Pool ι)) (op : Op ι) : Prop :=
  ∀ p, s = .ok p → CopiesOk (p.copies order op)

/-- The step makes no request for which a call overlaps. -/
def StepNoOverlap (s : Except Fault (Pool ι)) (op : Op ι) : Prop :=
  ∀ p, s = .ok p → p.NoOverlap op

/-- **Copies, exactly**: along every run of buffers constructed with length at least 8, every
`std::copy` that an operation executes has its destination outside of the range it copies if
and only if no step asks for room with `MoveOverlaps` or adds in front with `FrontOverlaps`. -/
theorem copiesOk_iff_noOverlap [DecidableEq ι] (order : ByteOrder) {lens : ι → Nat} {p : Pool ι}
    (hp : p.Constructed lens) (hlens : ∀ i, kBufferOffset ≤ lens i) {ops : List (Op ι)}
    (hrange : Runs.Along (stepRun order) StepInRange (.ok p) ops) :
    Runs.Along (stepRun order) (StepCopiesOk order) (.ok p) ops ↔
      Runs.Along (stepRun order) StepNoOverlap (.ok p) ops := by
  refine Runs.along_congr (Runs.along_of_invariant (stepRun_regular order)
    (fun s op hreg hop => ?_) (hp.allRegular hlens) hrange)
  have hstep : ∀ q, s = .ok q → (CopiesOk (q.copies order op) ↔ q.NoOverlap op) :=
    fun q hq => copies_ok_iff order (hreg q hq) (hop q hq)
  constructor
  · intro h q hq
    exact (hstep q hq).mp (h q hq)
  · intro h q hq
    exact (hstep q hq).mpr (h q hq)

/-- Twenty bytes, eight in front of them, eighteen retrieved, and room for twenty-five more:
the ten bytes left move to the front. -/
theorem copiesOk_move :
    Runs.Along (stepRun ⟨id⟩) (StepCopiesOk ⟨id⟩) (.ok (freshPool Unit 40))
      [.append () (List.replicate 20 0), .addInFront () (List.replicate 8 1), .retrieve () 18,
        .ensureWritableBytes () 25] := by
  have hrange : Runs.Along (stepRun ⟨id⟩) StepInRange (.ok (freshPool Unit 40))
      [.append () (List.replicate 20 0), .addInFront () (List.replicate 8 1), .retrieve () 18,
        .ensureWritableBytes () 25] :=
    ⟨fun q _ => show 20 ≤ vectorMaxSize by decide, fun q _ => show 8 ≤ vectorMaxSize by decide,
      fun q _ => trivial, fun q _ => show 25 < sizeMod by decide, trivial⟩
  refine (copiesOk_iff_noOverlap ⟨id⟩ (freshPool_constructed (by decide)) (fun _ => by decide)
    hrange).mpr ⟨?_, ?_, ?_, ?_, trivial⟩
  · intro q hq
    cases hq
    show ¬ MoveOverlaps _ _
    decide
  · intro q hq
    cases hq
    show ¬ FrontOverlaps _ _
    decide
  · exact fun _ _ => trivial
  · intro q hq
    cases hq
    show ¬ MoveOverlaps _ _
    decide

/-- Twenty bytes and nine in front of them: the twenty bytes are copied nine bytes up, over
eleven of their own. -/
theorem addInFront_copies_up :
    (freshPool Unit 40).Constructed (fun _ => 40) ∧
      (∃ q, Runs.run (stepRun ⟨id⟩) (.ok (freshPool Unit 40))
          [.append () (List.replicate 20 0)] = .ok q ∧
        q.copies ⟨id⟩ (.addInFront () (List.replicate 9 1)) = [⟨8, 28, 17⟩]) ∧
      ¬ Runs.Along (stepRun ⟨id⟩) (StepCopiesOk ⟨id⟩) (.ok (freshPool Unit 40))
        [.append () (List.replicate 20 0), .addInFront () (List.replicate 9 1)] := by
  refine ⟨freshPool_constructed (by decide), ⟨_, rfl, rfl⟩, fun h => ?_⟩
  have hcopies : CopiesOk [⟨8, 28, 17⟩] := h.2.1 _ rfl
  rw [copiesOk_singleton] at hcopies
  revert hcopies
  decide

end Pool

end MsgBuffer

end XiaoNet
