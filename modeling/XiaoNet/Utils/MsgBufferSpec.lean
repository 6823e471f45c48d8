import XiaoNet.Utils.MsgBuffer

/-!
# What each `MsgBuffer` operation does

- `WellFormed`: the indices are ordered and inside the block. It holds after
  construction whatever the length.
- `Locked`: the block is `initCap + 8` long and `initCap` is at least 8. It holds
  after a construction with length at least 8, and under it `retrieveAll` never
  shrinks the block.
- `contents`: the readable bytes.

One lemma per operation gives its result for a well-formed buffer, when the
sizes are small enough for the arithmetic not to wrap (`Fits`); callers use these
and never unfold the operation.
-/

namespace XiaoNet

namespace MsgBuffer

/-- The indices of a buffer are ordered and lie in the block. -/
structure WellFormed (b : MsgBuffer) : Prop where
  head_le : b.head ≤ b.tail
  tail_le : b.tail ≤ b.buffer.length
  offset_le : kBufferOffset ≤ b.buffer.length
  cap_le : b.initCap ≤ b.buffer.length
  length_le : b.buffer.length ≤ vectorMaxSize

/-- Capacity and `initCap` are locked together. -/
structure Locked (b : MsgBuffer) : Prop where
  length_eq : b.buffer.length = b.initCap + kBufferOffset
  cap_ge : kBufferOffset ≤ b.initCap

/-- The readable bytes. -/
def contents (b : MsgBuffer) : List Byte :=
  Block.slice b.buffer b.head (b.tail - b.head)

/-- No size computed for a request of `len` bytes passes `PTRDIFF_MAX`. -/
def Fits (b : MsgBuffer) (len : Nat) : Prop :=
  2 * b.buffer.length + len + 16 ≤ vectorMaxSize

instance (b : MsgBuffer) (len : Nat) : Decidable (b.Fits len) :=
  inferInstanceAs (Decidable (_ ≤ _))

/-- `b'` is a well-formed successor of `b` that holds `cs`. -/
structure Becomes (b b' : MsgBuffer) (cs : List Byte) : Prop where
  wf : b'.WellFormed
  contents : b'.contents = cs
  locked : b.Locked → b'.Locked

theorem vectorMaxSize_lt : vectorMaxSize < sizeMod := by decide

variable {b : MsgBuffer} {len : Nat}

/-! ## Sizes of a well-formed buffer -/

theorem WellFormed.readableBytes_eq (h : b.WellFormed) :
    b.readableBytes = b.tail - b.head := by
  have := vectorMaxSize_lt
  exact subSize_eq h.head_le (by have := h.tail_le; have := h.length_le; omega)

theorem WellFormed.writableBytes_eq (h : b.WellFormed) :
    b.writableBytes = b.buffer.length - b.tail := by
  have := vectorMaxSize_lt
  exact subSize_eq h.tail_le (by have := h.length_le; omega)

theorem WellFormed.length_contents (h : b.WellFormed) :
    b.contents.length = b.tail - b.head :=
  Block.length_slice (by have := h.head_le; have := h.tail_le; omega)

theorem WellFormed.length_contents_eq (h : b.WellFormed) :
    b.contents.length = b.readableBytes := by
  rw [h.length_contents, h.readableBytes_eq]

/-- Reading the readable bytes. -/
theorem WellFormed.load_contents (h : b.WellFormed) :
    load b.buffer b.head b.readableBytes = .ok b.contents := by
  rw [h.readableBytes_eq]
  exact load_eq (by have := h.head_le; have := h.tail_le; omega)

theorem Becomes.refl (h : b.WellFormed) : Becomes b b b.contents :=
  ⟨h, rfl, id⟩

theorem Becomes.trans {b₁ b₂ b₃ : MsgBuffer} {cs ds : List Byte}
    (h₁ : Becomes b₁ b₂ cs) (h₂ : Becomes b₂ b₃ ds) : Becomes b₁ b₃ ds :=
  ⟨h₂.wf, h₂.contents, fun h => h₂.locked (h₁.locked h)⟩

/-! ## Construction -/

/-- A new buffer of length `len`. -/
def fresh (len : Nat) : MsgBuffer :=
  ⟨kBufferOffset, len, List.replicate (len + kBufferOffset) 0, kBufferOffset⟩

theorem new_eq (h : len + kBufferOffset ≤ vectorMaxSize) : new len = .ok (fresh len) := by
  have hsum : addSize len kBufferOffset = len + kBufferOffset :=
    addSize_eq (Nat.lt_of_le_of_lt h vectorMaxSize_lt)
  simp only [new, hsum, if_pos h, fresh]

@[simp] theorem length_fresh (len : Nat) :
    (fresh len).buffer.length = len + kBufferOffset := List.length_replicate

theorem fresh_wellFormed (h : len + kBufferOffset ≤ vectorMaxSize) :
    (fresh len).WellFormed where
  head_le := Nat.le_refl _
  tail_le := by rw [length_fresh]; exact Nat.le_add_left _ _
  offset_le := by rw [length_fresh]; exact Nat.le_add_left _ _
  cap_le := by rw [length_fresh]; exact Nat.le_add_right _ _
  length_le := by rw [length_fresh]; exact h

theorem fresh_locked (h : kBufferOffset ≤ len) : (fresh len).Locked :=
  ⟨length_fresh len, h⟩

@[simp] theorem contents_fresh (len : Nat) : (fresh len).contents = [] := by
  simp [contents, fresh]

/-! ## Moving the indices and storing bytes -/

/-- Bytes stored behind the readable ones become readable when `tail` moves over them. -/
theorem store_tail (h : b.WellFormed) (data : List Byte)
    (hroom : data.length ≤ b.buffer.length - b.tail) :
    ∃ buffer, store b.buffer b.tail data = .ok buffer ∧
      Becomes b { b with buffer := buffer, tail := addSize b.tail data.length }
        (b.contents ++ data) := by
  have hht := h.head_le
  have htl := h.tail_le
  have hll := h.length_le
  have hlt := vectorMaxSize_lt
  have hin : b.tail + data.length ≤ b.buffer.length := by omega
  have hlen := Block.length_splice hin
  have hsum : addSize b.tail data.length = b.tail + data.length :=
    addSize_eq (by omega)
  refine ⟨_, store_eq hin, ?_⟩
  rw [hsum]
  -- the bounds, then what can be read, then the lock on the capacity
  refine ⟨⟨?_, ?_, ?_, ?_, ?_⟩, ?_, ?_⟩
  · show b.head ≤ b.tail + data.length
    omega
  · show b.tail + data.length ≤ (Block.splice b.buffer b.tail data).length
    omega
  · show kBufferOffset ≤ (Block.splice b.buffer b.tail data).length
    rw [hlen]
    exact h.offset_le
  · show b.initCap ≤ (Block.splice b.buffer b.tail data).length
    rw [hlen]
    exact h.cap_le
  · show (Block.splice b.buffer b.tail data).length ≤ vectorMaxSize
    omega
  · show Block.slice (Block.splice b.buffer b.tail data) b.head
      (b.tail + data.length - b.head) = b.contents ++ data
    rw [show b.tail + data.length - b.head = (b.tail - b.head) + data.length by omega,
      Block.slice_add, Block.slice_splice_before (by omega) (by omega),
      show b.head + (b.tail - b.head) = b.tail by omega, Block.slice_splice_self hin]
    rfl
  · intro hl
    exact ⟨hlen.trans hl.length_eq, hl.cap_ge⟩

/-! ## `ensureWritableBytes` -/

/-- Room for `len` bytes and the readable bytes already at the front: nothing moves. -/
theorem ensureWritableBytesAux_room (h : b.WellFormed) (hhead : b.head = kBufferOffset)
    (hroom : len ≤ b.buffer.length - b.tail) (depth : Nat) :
    ensureWritableBytesAux (depth + 1) b len = .ok b := by
  have hht := h.head_le
  have htl := h.tail_le
  have hll := h.length_le
  have hlt := vectorMaxSize_lt
  have hw := h.writableBytes_eq
  simp only [ensureWritableBytesAux]
  by_cases hgt : b.writableBytes > len
  · rw [if_pos hgt]
  · -- exactly `len` bytes of room: the bytes are moved onto themselves
    have hcond : addSize b.head b.writableBytes ≥ addSize len kBufferOffset := by
      rw [hw, addSize_eq (by omega), addSize_eq (by omega)]
      omega
    have hin : kBufferOffset + b.contents.length ≤ b.buffer.length := by
      rw [h.length_contents]
      omega
    have hself : Block.splice b.buffer kBufferOffset b.contents = b.buffer := by
      rw [← hhead]
      exact Block.splice_slice_self (by omega)
    have htail : addSize kBufferOffset (subSize b.tail b.head) = b.tail := by
      rw [subSize_eq hht (by omega), addSize_eq (by omega)]
      omega
    rw [if_neg hgt, if_pos hcond, h.load_contents, ok_bind, store_eq hin, ok_bind, hself,
      htail, ← hhead]

/-- The branch that moves the readable bytes to the front of the block. -/
def moveToFront (b : MsgBuffer) : Except Fault MsgBuffer := do
  let bytes ← load b.buffer b.head b.readableBytes
  let buffer ← store b.buffer kBufferOffset bytes
  .ok { b with
    buffer := buffer
    tail := addSize kBufferOffset (subSize b.tail b.head)
    head := kBufferOffset }

/-- The branch that appends the readable bytes to a new buffer of length `newLen`. -/
def moveToNew (b : MsgBuffer) (depth newLen : Nat) : Except Fault MsgBuffer := do
  let newbuffer ← new newLen
  let newbuffer ← ensureWritableBytesAux depth newbuffer b.readableBytes
  let bytes ← load b.buffer b.head b.readableBytes
  let buffer ← store newbuffer.buffer newbuffer.tail bytes
  .ok { newbuffer with
    buffer := buffer
    tail := addSize newbuffer.tail b.readableBytes }

/-- The length of the new buffer, in `size_t`. -/
def newLen (b : MsgBuffer) (len : Nat) : Nat :=
  let needed := addSize (addSize kBufferOffset b.readableBytes) len
  let doubled := mulSize b.buffer.length 2
  if doubled > needed then doubled else needed

theorem ensureWritableBytesAux_succ (depth : Nat) (b : MsgBuffer) (len : Nat) :
    ensureWritableBytesAux (depth + 1) b len =
      if b.writableBytes > len then .ok b
      else if addSize b.head b.writableBytes ≥ addSize len kBufferOffset then b.moveToFront
      else b.moveToNew depth (b.newLen len) := rfl

/-- The readable bytes fit behind the front offset. -/
theorem moveToFront_spec (h : b.WellFormed)
    (hin : kBufferOffset + b.readableBytes ≤ b.buffer.length) :
    ∃ b', b.moveToFront = .ok b' ∧ Becomes b b' b.contents ∧
      b'.buffer.length = b.buffer.length ∧ b'.tail = kBufferOffset + b.readableBytes := by
  have hht := h.head_le
  have htl := h.tail_le
  have hll := h.length_le
  have hlt := vectorMaxSize_lt
  have hr := h.readableBytes_eq
  have hcl := h.length_contents_eq
  have hin' : kBufferOffset + b.contents.length ≤ b.buffer.length := by omega
  have hlen := Block.length_splice hin'
  -- `tail_` is set from the indices before the move
  have htail : addSize kBufferOffset (subSize b.tail b.head)
      = kBufferOffset + b.readableBytes := by
    rw [subSize_eq hht (by omega), ← hr, addSize_eq (by omega)]
  rw [moveToFront, h.load_contents, ok_bind, store_eq hin', ok_bind, htail]
  refine ⟨_, rfl, ⟨⟨?_, ?_, ?_, ?_, ?_⟩, ?_, ?_⟩, hlen, rfl⟩
  · exact Nat.le_add_right _ _
  · show kBufferOffset + b.readableBytes ≤ (Block.splice b.buffer kBufferOffset _).length
    omega
  · show kBufferOffset ≤ (Block.splice b.buffer kBufferOffset _).length
    rw [hlen]
    exact h.offset_le
  · show b.initCap ≤ (Block.splice b.buffer kBufferOffset _).length
    rw [hlen]
    exact h.cap_le
  · show (Block.splice b.buffer kBufferOffset _).length ≤ vectorMaxSize
    rw [hlen]
    exact hll
  · show Block.slice (Block.splice b.buffer kBufferOffset b.contents) kBufferOffset
      (kBufferOffset + b.readableBytes - kBufferOffset) = b.contents
    rw [Nat.add_sub_cancel_left, ← hcl, Block.slice_splice_self hin']
  · intro hl
    exact ⟨hlen.trans hl.length_eq, hl.cap_ge⟩

theorem moveToFront_outOfBounds (h : b.WellFormed)
    (hin : ¬ kBufferOffset + b.readableBytes ≤ b.buffer.length) :
    b.moveToFront = .error .outOfBounds := by
  rw [← h.length_contents_eq] at hin
  rw [moveToFront, h.load_contents, ok_bind, store, if_neg hin]
  rfl

/-- The first bytes stored in a fresh buffer. -/
theorem store_fresh {n : Nat} (data : List Byte)
    (hn : n + kBufferOffset ≤ vectorMaxSize) (hd : data.length ≤ n) :
    ∃ buffer, store (fresh n).buffer (fresh n).tail data = .ok buffer ∧
      Becomes (fresh n) { fresh n with
        buffer := buffer
        tail := addSize (fresh n).tail data.length } data ∧
      buffer.length = n + kBufferOffset := by
  have hwf := fresh_wellFormed hn
  obtain ⟨buffer, hstore, hbec⟩ := store_tail hwf data (by
    rw [length_fresh]
    show data.length ≤ n + kBufferOffset - kBufferOffset
    omega)
  refine ⟨buffer, hstore, ⟨hbec.wf, ?_, hbec.locked⟩, ?_⟩
  · rw [hbec.contents, contents_fresh, List.nil_append]
  · rw [length_of_store hstore, length_fresh]

/-- The new buffer has room for the readable bytes. -/
theorem moveToNew_spec (h : b.WellFormed) {n : Nat}
    (hn : kBufferOffset + b.readableBytes ≤ n) (hmax : n + kBufferOffset ≤ vectorMaxSize)
    (depth : Nat) :
    ∃ b', b.moveToNew (depth + 1) n = .ok b' ∧ Becomes b b' b.contents ∧
      b'.buffer.length = n + kBufferOffset ∧ b'.tail = kBufferOffset + b.readableBytes := by
  have hlt := vectorMaxSize_lt
  have hcl := h.length_contents_eq
  have hmakeRoom : ensureWritableBytesAux (depth + 1) (fresh n) b.readableBytes
      = .ok (fresh n) := by
    refine ensureWritableBytesAux_room (fresh_wellFormed hmax) rfl ?_ depth
    rw [length_fresh]
    show b.readableBytes ≤ n + kBufferOffset - kBufferOffset
    omega
  obtain ⟨buffer, hstore, hbec, hblen⟩ := store_fresh b.contents hmax (by omega)
  rw [hcl] at hbec
  have hlocked : (fresh n).Locked := fresh_locked (by omega)
  rw [moveToNew, new_eq hmax, ok_bind, hmakeRoom, ok_bind, h.load_contents, ok_bind, hstore,
    ok_bind]
  exact ⟨_, rfl, ⟨hbec.wf, hbec.contents, fun _ => hbec.locked hlocked⟩, hblen,
    addSize_eq (a := kBufferOffset) (by omega)⟩

/-- The vector refuses the length of the new buffer. -/
theorem new_lengthError {n : Nat} (hmax : ¬ n + kBufferOffset ≤ vectorMaxSize)
    (hsize : n + kBufferOffset < sizeMod) : new n = .error .lengthError := by
  rw [new, addSize_eq hsize]
  exact if_neg hmax

/-- The length of the new buffer wraps: its block ends before the front offset, it takes
itself to have room for anything, and no byte can be stored. -/
theorem new_wrapped {n : Nat} (hn : n < sizeMod) (hwrap : sizeMod ≤ n + kBufferOffset) :
    ∃ b, new n = .ok b ∧
      (∀ depth len, len ≤ vectorMaxSize → ensureWritableBytesAux (depth + 1) b len = .ok b) ∧
      ∀ data, store b.buffer b.tail data = .error .outOfBounds := by
  have hmod : sizeMod = 2 * vectorMaxSize + 2 := by decide
  have hoff : kBufferOffset = 8 := rfl
  have hmaxval : vectorMaxSize = 2 ^ 63 - 1 := rfl
  have hsize : addSize n kBufferOffset = n + kBufferOffset - sizeMod :=
    addSize_wrap hwrap (by omega)
  generalize hk : n + kBufferOffset - sizeMod = k at hsize
  have hnew : new n = .ok ⟨kBufferOffset, n, List.replicate k 0, kBufferOffset⟩ := by
    simp only [new, hsize]
    rw [if_pos (by omega)]
  have hwritable : (⟨kBufferOffset, n, List.replicate k 0, kBufferOffset⟩ :
      MsgBuffer).writableBytes = k + (sizeMod - kBufferOffset) := by
    rw [writableBytes, subSize, List.length_replicate, Nat.mod_eq_of_lt (a := kBufferOffset)
      (by omega), Nat.mod_eq_of_lt (by omega)]
  refine ⟨_, hnew, fun depth len hlen => ?_, fun data => if_neg ?_⟩
  · rw [ensureWritableBytesAux, hwritable, if_pos (by omega)]
  · rw [List.length_replicate]
    show ¬ kBufferOffset + data.length ≤ k
    omega

theorem moveToNew_wrapped (h : b.WellFormed) {n : Nat} (hn : n < sizeMod)
    (hwrap : sizeMod ≤ n + kBufferOffset) (depth : Nat) :
    b.moveToNew (depth + 1) n = .error .outOfBounds := by
  have hll := h.length_le
  have htl := h.tail_le
  have hr := h.readableBytes_eq
  obtain ⟨newbuffer, hnew, hroom, hstore⟩ := new_wrapped hn hwrap
  rw [moveToNew, hnew, ok_bind, hroom depth _ (by omega), ok_bind, h.load_contents, ok_bind,
    hstore]
  rfl

theorem moveToNew_lengthError {n : Nat} (hmax : ¬ n + kBufferOffset ≤ vectorMaxSize)
    (hsize : n + kBufferOffset < sizeMod) (depth : Nat) :
    b.moveToNew depth n = .error .lengthError := by
  rw [moveToNew, new_lengthError hmax hsize]
  rfl

/-- The request needs a new block: there is no room behind, and not enough after moving the
readable bytes to the front. -/
def Grows (b : MsgBuffer) (len : Nat) : Prop :=
  b.buffer.length - b.tail ≤ len ∧
    b.head + (b.buffer.length - b.tail) < len + kBufferOffset

/-- The length the new buffer is constructed with. -/
def grownLen (b : MsgBuffer) (len : Nat) : Nat :=
  if b.buffer.length * 2 > kBufferOffset + b.readableBytes + len then b.buffer.length * 2
  else kBufferOffset + b.readableBytes + len

/-- The new block is at most twice as long as what it has to hold. -/
theorem WellFormed.grownLen_le (h : b.WellFormed) (hg : b.Grows len) :
    b.grownLen len ≤ 2 * (b.readableBytes + len + kBufferOffset) := by
  have hht := h.head_le
  have htl := h.tail_le
  have hr := h.readableBytes_eq
  have hlt := hg.2
  unfold grownLen
  split <;> omega

/-- No new block: the buffer has room, or its readable bytes move to the front. -/
theorem ensureWritableBytesAux_inPlace (h : b.WellFormed)
    (hlen : len + kBufferOffset ≤ vectorMaxSize) (hg : ¬ b.Grows len) (depth : Nat) :
    ∃ b', ensureWritableBytesAux (depth + 1) b len = .ok b' ∧ Becomes b b' b.contents ∧
      len ≤ b'.buffer.length - b'.tail ∧ b'.buffer.length = b.buffer.length := by
  have hht := h.head_le
  have htl := h.tail_le
  have hll := h.length_le
  have hlt := vectorMaxSize_lt
  have hw := h.writableBytes_eq
  have hr := h.readableBytes_eq
  rw [Grows, not_and_or, Nat.not_le, Nat.not_lt] at hg
  rw [ensureWritableBytesAux_succ]
  by_cases hgt : b.writableBytes > len
  · rw [if_pos hgt]
    exact ⟨b, rfl, Becomes.refl h, by omega, rfl⟩
  have hcond : len + kBufferOffset ≤ b.head + (b.buffer.length - b.tail) := by
    rcases hg with hroom | hmove
    · exact absurd (hw ▸ hroom) hgt
    · exact hmove
  obtain ⟨b', hb', hbec, hsame, htail⟩ := moveToFront_spec h (by omega)
  rw [if_neg hgt, hw, addSize_eq (a := b.head) (by omega), addSize_eq (a := len) (by omega),
    if_pos hcond]
  exact ⟨b', hb', hbec, by omega, hsame⟩

/-- What a request that needs a new block computes. -/
theorem ensureWritableBytesAux_grows (h : b.WellFormed)
    (hlen : len + kBufferOffset ≤ vectorMaxSize) (hg : b.Grows len) (depth : Nat) :
    ensureWritableBytesAux (depth + 1) b len = b.moveToNew depth (b.grownLen len) := by
  have hht := h.head_le
  have htl := h.tail_le
  have hll := h.length_le
  have hlt : 2 * vectorMaxSize < sizeMod := by decide
  have hw := h.writableBytes_eq
  have hr := h.readableBytes_eq
  obtain ⟨hroom, hmove⟩ := hg
  have hsum₁ : addSize b.head (b.buffer.length - b.tail)
      = b.head + (b.buffer.length - b.tail) := addSize_eq (by omega)
  have hsum₂ : addSize len kBufferOffset = len + kBufferOffset := addSize_eq (by omega)
  have hsum₃ : addSize kBufferOffset b.readableBytes = kBufferOffset + b.readableBytes :=
    addSize_eq (by omega)
  have hneeded : addSize (kBufferOffset + b.readableBytes) len
      = kBufferOffset + b.readableBytes + len := addSize_eq (by omega)
  have hdoubled : mulSize b.buffer.length 2 = b.buffer.length * 2 := mulSize_eq (by omega)
  have hnew : b.newLen len = b.grownLen len := by
    rw [newLen, hsum₃, hneeded, hdoubled, grownLen]
  rw [ensureWritableBytesAux_succ, if_neg (by omega), hw, hsum₁, hsum₂, if_neg (by omega), hnew]

/-- The new block can be had. -/
theorem ensureWritableBytesAux_grown (h : b.WellFormed)
    (hlen : len + kBufferOffset ≤ vectorMaxSize) (hg : b.Grows len)
    (hmax : b.grownLen len + kBufferOffset ≤ vectorMaxSize) (depth : Nat) :
    ∃ b', ensureWritableBytesAux (depth + 2) b len = .ok b' ∧ Becomes b b' b.contents ∧
      len ≤ b'.buffer.length - b'.tail ∧
      b'.buffer.length = b.grownLen len + kBufferOffset := by
  have hn : kBufferOffset + b.readableBytes + len ≤ b.grownLen len := by
    unfold grownLen
    split <;> omega
  obtain ⟨b', hb', hbec, hsize, htail⟩ := moveToNew_spec h (by omega) hmax depth
  rw [ensureWritableBytesAux_grows h hlen hg]
  exact ⟨b', hb', hbec, by omega, hsize⟩

/-- The new block would be too long: the vector refuses it, or its length wraps to less than
the front offset and the bytes do not go in. -/
theorem ensureWritableBytesAux_refused (h : b.WellFormed)
    (hlen : len + kBufferOffset ≤ vectorMaxSize) (hg : b.Grows len)
    (hmax : ¬ b.grownLen len + kBufferOffset ≤ vectorMaxSize) (depth : Nat) (b' : MsgBuffer) :
    ensureWritableBytesAux (depth + 2) b len ≠ .ok b' := by
  have hll := h.length_le
  have hr := h.readableBytes_eq
  have htl := h.tail_le
  have hmod : sizeMod = 2 * vectorMaxSize + 2 := by decide
  have hoff : kBufferOffset = 8 := rfl
  have hle : b.grownLen len ≤ 2 * vectorMaxSize := by
    unfold grownLen
    split <;> omega
  intro hok
  rw [ensureWritableBytesAux_grows h hlen hg] at hok
  by_cases hsize : b.grownLen len + kBufferOffset < sizeMod
  · rw [moveToNew_lengthError hmax hsize] at hok
    cases hok
  · rw [moveToNew_wrapped h (by omega) (by omega)] at hok
    cases hok

/-- The new buffer is at least twice as long as the old block. -/
theorem WellFormed.le_newLen (h : b.WellFormed) (len : Nat) :
    b.buffer.length * 2 ≤ b.newLen len ∧ b.newLen len < sizeMod := by
  have hll := h.length_le
  have hlt : 2 * vectorMaxSize < sizeMod := by decide
  have hdoubled : mulSize b.buffer.length 2 = b.buffer.length * 2 := mulSize_eq (by omega)
  have hneeded : addSize (addSize kBufferOffset b.readableBytes) len < sizeMod :=
    Nat.mod_lt _ (by decide)
  rw [newLen, hdoubled]
  generalize addSize (addSize kBufferOffset b.readableBytes) len = needed at hneeded
  split <;> omega

/-- Whatever the length asked for: when it returns, it has kept the readable bytes, and the
block has not become shorter. -/
theorem ensureWritableBytes_keeps (h : b.WellFormed) {b' : MsgBuffer}
    (hok : b.ensureWritableBytes len = .ok b') :
    Becomes b b' b.contents ∧ b.buffer.length ≤ b'.buffer.length := by
  have htl := h.tail_le
  have hoff := h.offset_le
  have hr := h.readableBytes_eq
  rw [ensureWritableBytes, ensureWritableBytesAux_succ] at hok
  by_cases hgt : b.writableBytes > len
  · rw [if_pos hgt] at hok
    cases hok
    exact ⟨Becomes.refl h, Nat.le_refl _⟩
  rw [if_neg hgt] at hok
  by_cases hmove : addSize b.head b.writableBytes ≥ addSize len kBufferOffset
  · rw [if_pos hmove] at hok
    by_cases hin : kBufferOffset + b.readableBytes ≤ b.buffer.length
    · obtain ⟨b₁, hb₁, hbec, hsame, -⟩ := moveToFront_spec h hin
      cases hb₁.symm.trans hok
      exact ⟨hbec, hsame.ge⟩
    · rw [moveToFront_outOfBounds h hin] at hok
      cases hok
  rw [if_neg hmove] at hok
  obtain ⟨hle, hlt⟩ := h.le_newLen len
  by_cases hmax : b.newLen len + kBufferOffset ≤ vectorMaxSize
  · obtain ⟨b₁, hb₁, hbec, hsize, -⟩ := moveToNew_spec h (by omega) hmax 2
    cases hb₁.symm.trans hok
    exact ⟨hbec, by omega⟩
  by_cases hsize : b.newLen len + kBufferOffset < sizeMod
  · rw [moveToNew_lengthError hmax hsize] at hok
    cases hok
  · rw [moveToNew_wrapped h hlt (Nat.not_lt.mp hsize)] at hok
    cases hok

/-- **`ensureWritableBytes`** makes room and keeps the readable bytes. -/
theorem ensureWritableBytesAux_spec (h : b.WellFormed) (hfit : b.Fits len) (depth : Nat) :
    ∃ b', ensureWritableBytesAux (depth + 2) b len = .ok b' ∧ Becomes b b' b.contents ∧
      len ≤ b'.buffer.length - b'.tail := by
  have htl := h.tail_le
  have hr := h.readableBytes_eq
  have hoff : kBufferOffset = 8 := rfl
  unfold Fits at hfit
  by_cases hg : b.Grows len
  · have hmax : b.grownLen len + kBufferOffset ≤ vectorMaxSize := by
      unfold grownLen
      split <;> omega
    obtain ⟨b', hb', hbec, hroom, -⟩ :=
      ensureWritableBytesAux_grown h (by omega) hg hmax depth
    exact ⟨b', hb', hbec, hroom⟩
  · obtain ⟨b', hb', hbec, hroom, -⟩ :=
      ensureWritableBytesAux_inPlace h (by omega) hg (depth + 1)
    exact ⟨b', hb', hbec, hroom⟩

/-- Whatever the sizes: when it returns it has made room, in a block at most twice as long as
what it has to hold. -/
theorem ensureWritableBytes_of_ok (h : b.WellFormed)
    (hlen : len + kBufferOffset ≤ vectorMaxSize) {b' : MsgBuffer}
    (hok : b.ensureWritableBytes len = .ok b') :
    Becomes b b' b.contents ∧ len ≤ b'.buffer.length - b'.tail ∧
      b'.buffer.length ≤ max b.buffer.length (2 * (b.contents.length + len) + 24) := by
  have hcl := h.length_contents_eq
  have hoff : kBufferOffset = 8 := rfl
  by_cases hg : b.Grows len
  · have hgrown := h.grownLen_le hg
    by_cases hmax : b.grownLen len + kBufferOffset ≤ vectorMaxSize
    · obtain ⟨b₁, hb₁, hbec, hroom, hlen₁⟩ := ensureWritableBytesAux_grown h hlen hg hmax 2
      cases hb₁.symm.trans hok
      exact ⟨hbec, hroom, by omega⟩
    · exact absurd hok (ensureWritableBytesAux_refused h hlen hg hmax 2 b')
  · obtain ⟨b₁, hb₁, hbec, hroom, hlen₁⟩ := ensureWritableBytesAux_inPlace h hlen hg 3
    cases hb₁.symm.trans hok
    exact ⟨hbec, hroom, by omega⟩

theorem ensureWritableBytes_spec (h : b.WellFormed) (hfit : b.Fits len) :
    ∃ b', b.ensureWritableBytes len = .ok b' ∧ Becomes b b' b.contents ∧
      len ≤ b'.buffer.length - b'.tail :=
  ensureWritableBytesAux_spec h hfit 2

/-! ## Appending -/

theorem append_spec (h : b.WellFormed) (buf : List Byte) (hfit : b.Fits buf.length) :
    ∃ b', b.append buf = .ok b' ∧ Becomes b b' (b.contents ++ buf) := by
  obtain ⟨b₁, hens, hbec, hroom⟩ := ensureWritableBytes_spec h hfit
  obtain ⟨buffer, hstore, hbec₂⟩ := store_tail hbec.wf _ hroom
  rw [append, hens, ok_bind, hstore, ok_bind]
  rw [hbec.contents] at hbec₂
  exact ⟨_, rfl, hbec.trans hbec₂⟩

/-- Whatever the sizes: when it returns, the bytes stand behind the readable ones. -/
theorem append_of_ok (h : b.WellFormed) {buf : List Byte}
    (hlen : buf.length + kBufferOffset ≤ vectorMaxSize) {b' : MsgBuffer}
    (hok : b.append buf = .ok b') :
    Becomes b b' (b.contents ++ buf) ∧
      b'.buffer.length ≤ max b.buffer.length (2 * (b.contents ++ buf).length + 24) := by
  obtain ⟨b₁, hens, hok⟩ := bind_eq_ok hok
  obtain ⟨hbec, hroom, hsize⟩ := ensureWritableBytes_of_ok h hlen hens
  obtain ⟨buffer, hstore, hbec₂⟩ := store_tail hbec.wf _ hroom
  rw [hstore, ok_bind] at hok
  cases hok
  rw [hbec.contents] at hbec₂
  refine ⟨hbec.trans hbec₂, ?_⟩
  rw [length_of_store hstore, List.length_append]
  exact hsize

theorem appendBuffer_spec {buf : MsgBuffer} (h : b.WellFormed) (hbuf : buf.WellFormed)
    (hfit : b.Fits buf.readableBytes) :
    ∃ b', b.appendBuffer buf = .ok b' ∧ Becomes b b' (b.contents ++ buf.contents) := by
  have hlen := hbuf.length_contents_eq
  obtain ⟨b₁, hens, hbec, hroom⟩ := ensureWritableBytes_spec h hfit
  rw [← hlen] at hroom
  obtain ⟨buffer, hstore, hbec₂⟩ := store_tail hbec.wf _ hroom
  rw [appendBuffer, hens, ok_bind, hbuf.load_contents, ok_bind, hstore, ok_bind, ← hlen]
  rw [hbec.contents] at hbec₂
  exact ⟨_, rfl, hbec.trans hbec₂⟩

theorem appendSelf_spec (h : b.WellFormed) (hfit : b.Fits b.readableBytes) :
    ∃ b', b.appendSelf = .ok b' ∧ Becomes b b' (b.contents ++ b.contents) := by
  obtain ⟨b₁, hens, hbec, hroom⟩ := ensureWritableBytes_spec h hfit
  have hlen : b₁.contents.length = b₁.readableBytes := hbec.wf.length_contents_eq
  have hsame : b₁.contents.length ≤ b₁.buffer.length - b₁.tail := by
    rw [hbec.contents, h.length_contents_eq]
    exact hroom
  obtain ⟨buffer, hstore, hbec₂⟩ := store_tail hbec.wf _ hsame
  rw [appendSelf, hens, ok_bind, hbec.wf.load_contents, ok_bind, hstore, ok_bind, ← hlen,
    ← hbec.contents]
  exact ⟨_, rfl, hbec.trans hbec₂⟩

theorem hasWritten_spec (h : b.WellFormed) {data : List Byte}
    (hlen : data.length ≤ b.writableBytes) :
    ∃ b', b.hasWritten data = .ok b' ∧ Becomes b b' (b.contents ++ data) := by
  obtain ⟨buffer, hstore, hbec⟩ :=
    store_tail h data (by rw [← h.writableBytes_eq]; exact hlen)
  rw [hasWritten, if_pos hlen, hstore, ok_bind]
  exact ⟨_, rfl, hbec⟩

/-! ## Retrieving -/

/-- Emptying the buffer now leaves room for the `kBufferOffset` bytes in front. -/
def NoShrink (b : MsgBuffer) : Prop :=
  b.buffer.length ≤ 2 * b.initCap ∨ kBufferOffset ≤ b.initCap

instance (b : MsgBuffer) : Decidable b.NoShrink := inferInstanceAs (Decidable (_ ∨ _))

theorem Locked.noShrink (h : b.Locked) : b.NoShrink := .inr h.cap_ge

theorem WellFormed.mulSize_initCap (h : b.WellFormed) :
    mulSize b.initCap 2 = 2 * b.initCap := by
  have hcap := h.cap_le
  have hlen := h.length_le
  have hmax : 2 * vectorMaxSize < sizeMod := by decide
  rw [mulSize_eq (by omega), Nat.mul_comm]

theorem retrieveAll_spec (h : b.WellFormed) (hns : b.NoShrink) :
    Becomes b b.retrieveAll [] := by
  have hcap := h.cap_le
  have hoff := h.offset_le
  have hlen := h.length_le
  have hcontents : ∀ buffer : List Byte,
      Block.slice buffer kBufferOffset (kBufferOffset - kBufferOffset) = [] := by
    intro buffer
    rw [Nat.sub_self, Block.slice_zero]
  unfold retrieveAll
  rw [h.mulSize_initCap]
  dsimp only
  by_cases hbig : b.buffer.length > 2 * b.initCap
  · -- the shrink branch, harmless when `initCap` is at least 8
    have hcap₂ : kBufferOffset ≤ b.initCap := by
      rcases hns with hle | hge
      · omega
      · exact hge
    have htake : (b.buffer.take b.initCap).length = b.initCap := by
      rw [List.length_take]
      omega
    rw [if_pos hbig]
    refine ⟨⟨Nat.le_refl _, ?_, ?_, ?_, ?_⟩, hcontents _, ?_⟩
    · show kBufferOffset ≤ (b.buffer.take b.initCap).length
      omega
    · show kBufferOffset ≤ (b.buffer.take b.initCap).length
      omega
    · show b.initCap ≤ (b.buffer.take b.initCap).length
      omega
    · show (b.buffer.take b.initCap).length ≤ vectorMaxSize
      omega
    · intro hl
      have := hl.length_eq
      omega
  · rw [if_neg hbig]
    exact ⟨⟨Nat.le_refl _, hoff, hoff, hcap, hlen⟩, hcontents _,
      fun hl => ⟨hl.length_eq, hl.cap_ge⟩⟩

/-- Emptying a buffer that must not be shrunk leaves the indices behind the block. -/
theorem retrieveAll_broken (h : b.WellFormed) (hns : ¬ b.NoShrink) :
    b.retrieveAll.buffer.length < b.retrieveAll.tail := by
  have hcap := h.cap_le
  rw [NoShrink, not_or, Nat.not_le, Nat.not_le] at hns
  unfold retrieveAll
  rw [h.mulSize_initCap, if_pos hns.1]
  show (b.buffer.take b.initCap).length < kBufferOffset
  rw [List.length_take]
  omega

theorem retrieve_spec (h : b.WellFormed) {n : Nat}
    (hns : b.readableBytes ≤ n → b.NoShrink) :
    Becomes b (b.retrieve n) (b.contents.drop n) := by
  have hht := h.head_le
  have htl := h.tail_le
  have hll := h.length_le
  have hlt := vectorMaxSize_lt
  have hr := h.readableBytes_eq
  have hcl := h.length_contents
  unfold retrieve
  by_cases hall : n ≥ b.readableBytes
  · have hempty : b.contents.drop n = [] := List.drop_eq_nil_of_le (by omega)
    rw [if_pos hall, hempty]
    exact retrieveAll_spec h (hns hall)
  · rw [if_neg hall, addSize_eq (by omega)]
    refine ⟨⟨?_, htl, h.offset_le, h.cap_le, hll⟩, ?_, fun hl => ⟨hl.length_eq, hl.cap_ge⟩⟩
    · show b.head + n ≤ b.tail
      omega
    · show Block.slice b.buffer (b.head + n) (b.tail - (b.head + n)) = b.contents.drop n
      rw [contents, Block.drop_slice, Nat.sub_sub]

theorem retrieve_broken (h : b.WellFormed) {n : Nat} (hall : b.readableBytes ≤ n)
    (hns : ¬ b.NoShrink) : (b.retrieve n).buffer.length < (b.retrieve n).tail := by
  rw [retrieve, if_pos hall]
  exact retrieveAll_broken h hns

theorem retrieveUntil_eq (h : b.WellFormed) (pos : Nat) (hpos : b.head ≤ pos ∧ pos ≤ b.tail) :
    b.retrieveUntil pos = .ok (b.retrieve (pos - b.head)) := by
  have htl := h.tail_le
  have hll := h.length_le
  have hlt := vectorMaxSize_lt
  rw [retrieveUntil, if_pos hpos, subSize_eq hpos.1 (by omega)]

/-- `read` returns the first bytes and retrieves them. -/
theorem read_eq (h : b.WellFormed) (n : Nat) :
    b.read n = .ok (b.contents.take n, b.retrieve (min n b.readableBytes)) := by
  have hht := h.head_le
  have htl := h.tail_le
  have hr := h.readableBytes_eq
  have hmin : (if n > b.readableBytes then b.readableBytes else n)
      = min n b.readableBytes := by
    split <;> omega
  have hload : load b.buffer b.head (min n b.readableBytes) = .ok (b.contents.take n) := by
    rw [load_eq (by omega), contents, Block.take_slice, ← hr]
  rw [read, hmin, hload, ok_bind]

/-- `unwrite` drops the last bytes. -/
theorem unwrite_spec (h : b.WellFormed) {n : Nat} (hn : n ≤ b.readableBytes) :
    ∃ b', b.unwrite n = .ok b' ∧
      Becomes b b' (b.contents.take (b.contents.length - n)) := by
  have hht := h.head_le
  have htl := h.tail_le
  have hll := h.length_le
  have hlt := vectorMaxSize_lt
  have hr := h.readableBytes_eq
  have hcl := h.length_contents
  rw [unwrite, if_pos hn, subSize_eq (by omega) (by omega)]
  refine ⟨_, rfl, ⟨?_, ?_, h.offset_le, h.cap_le, hll⟩, ?_,
    fun hl => ⟨hl.length_eq, hl.cap_ge⟩⟩
  · show b.head ≤ b.tail - n
    omega
  · show b.tail - n ≤ b.buffer.length
    omega
  · show Block.slice b.buffer b.head (b.tail - n - b.head) = _
    rw [hcl, contents, Block.take_slice]
    congr 1
    omega

/-! ## `addInFront` -/

/-- Headroom: the bytes go in front of the readable ones. -/
theorem addInFront_headroom (h : b.WellFormed) {buf : List Byte}
    (hhead : buf.length ≤ b.head) :
    ∃ b', b.addInFront buf = .ok b' ∧ Becomes b b' (buf ++ b.contents) ∧
      b'.buffer.length = b.buffer.length := by
  have hht := h.head_le
  have htl := h.tail_le
  have hll := h.length_le
  have hlt := vectorMaxSize_lt
  have hsub : subSize b.head buf.length = b.head - buf.length :=
    subSize_eq hhead (by omega)
  have hin : b.head - buf.length + buf.length ≤ b.buffer.length := by omega
  have hlen := Block.length_splice hin
  rw [addInFront, if_pos hhead, hsub, store_eq hin, ok_bind]
  refine ⟨_, rfl, ⟨⟨?_, ?_, ?_, ?_, ?_⟩, ?_, ?_⟩, hlen⟩
  · show b.head - buf.length ≤ b.tail
    omega
  · show b.tail ≤ (Block.splice b.buffer _ buf).length
    omega
  · show kBufferOffset ≤ (Block.splice b.buffer _ buf).length
    rw [hlen]
    exact h.offset_le
  · show b.initCap ≤ (Block.splice b.buffer _ buf).length
    rw [hlen]
    exact h.cap_le
  · show (Block.splice b.buffer _ buf).length ≤ vectorMaxSize
    omega
  · show Block.slice (Block.splice b.buffer (b.head - buf.length) buf) (b.head - buf.length)
      (b.tail - (b.head - buf.length)) = buf ++ b.contents
    rw [show b.tail - (b.head - buf.length) = buf.length + (b.tail - b.head) by omega,
      Block.slice_add, Block.slice_splice_self hin, Block.slice_splice_after (by omega) (by omega),
      Nat.sub_add_cancel hhead]
    rfl
  · intro hl
    exact ⟨hlen.trans hl.length_eq, hl.cap_ge⟩

/-- Room behind: the readable bytes are shifted up and the bytes put in their place. -/
theorem addInFront_shift (h : b.WellFormed) {buf : List Byte} (hhead : ¬ buf.length ≤ b.head)
    (hroom : buf.length ≤ b.writableBytes) :
    ∃ b', b.addInFront buf = .ok b' ∧ Becomes b b' (buf ++ b.contents) ∧
      b'.buffer.length = b.buffer.length := by
  have hht := h.head_le
  have htl := h.tail_le
  have hll := h.length_le
  have hlt := vectorMaxSize_lt
  have hw := h.writableBytes_eq
  have hcl := h.length_contents
  have hsum₁ : addSize b.head buf.length = b.head + buf.length := addSize_eq (by omega)
  have hsum₂ : addSize b.tail buf.length = b.tail + buf.length := addSize_eq (by omega)
  have hin₁ : b.head + buf.length + b.contents.length ≤ b.buffer.length := by omega
  have hlen₁ := Block.length_splice hin₁
  -- first the readable bytes go up, then `buf` goes before them
  generalize hup : Block.splice b.buffer (b.head + buf.length) b.contents = up at hlen₁
  have hin₂ : b.head + buf.length ≤ up.length := by omega
  have hlen₂ := Block.length_splice hin₂
  rw [addInFront, if_neg hhead, if_pos hroom, h.load_contents, ok_bind, hsum₁, hsum₂,
    store_eq hin₁, ok_bind, hup, store_eq hin₂, ok_bind]
  refine ⟨_, rfl, ⟨⟨?_, ?_, ?_, ?_, ?_⟩, ?_, ?_⟩, hlen₂.trans hlen₁⟩
  · show b.head ≤ b.tail + buf.length
    omega
  · show b.tail + buf.length ≤ (Block.splice up b.head buf).length
    omega
  · show kBufferOffset ≤ (Block.splice up b.head buf).length
    rw [hlen₂, hlen₁]
    exact h.offset_le
  · show b.initCap ≤ (Block.splice up b.head buf).length
    rw [hlen₂, hlen₁]
    exact h.cap_le
  · show (Block.splice up b.head buf).length ≤ vectorMaxSize
    omega
  · show Block.slice (Block.splice up b.head buf) b.head (b.tail + buf.length - b.head)
      = buf ++ b.contents
    rw [show b.tail + buf.length - b.head = buf.length + b.contents.length by omega,
      Block.slice_add, Block.slice_splice_self hin₂,
      Block.slice_splice_after (Nat.le_refl _) (by omega), ← hup,
      Block.slice_splice_self hin₁]
  · intro hl
    exact ⟨(hlen₂.trans hlen₁).trans hl.length_eq, hl.cap_ge⟩

/-- The length `addInFront` constructs a new buffer with. -/
def frontLen (b : MsgBuffer) (len : Nat) : Nat :=
  if len + b.readableBytes < b.initCap then b.initCap else len + b.readableBytes

/-- What `addInFront` computes when there is no room at all. -/
theorem addInFront_new (h : b.WellFormed) {buf : List Byte}
    (hlen : buf.length ≤ vectorMaxSize)
    (hhead : ¬ buf.length ≤ b.head) (hroom : ¬ buf.length ≤ b.writableBytes) :
    b.addInFront buf = (do
      let newBuf ← new (b.frontLen buf.length)
      let newBuf ← newBuf.append buf
      newBuf.appendBuffer b) := by
  have htl := h.tail_le
  have hll := h.length_le
  have hlt : 2 * vectorMaxSize < sizeMod := by decide
  have hr := h.readableBytes_eq
  have hneeded : addSize buf.length b.readableBytes = buf.length + b.readableBytes :=
    addSize_eq (by omega)
  rw [addInFront, if_neg hhead, if_neg hroom]
  dsimp only
  rw [hneeded]
  rfl

/-- The new buffer of `addInFront` once it has taken the bytes. -/
theorem fresh_append {n : Nat} {buf : List Byte} (hmax : n + kBufferOffset ≤ vectorMaxSize)
    (hbuf : buf.length ≤ n) :
    ∃ b, (fresh n).append buf = .ok b ∧ Becomes (fresh n) b buf ∧ b.head = kBufferOffset ∧
      b.tail = kBufferOffset + buf.length ∧ b.buffer.length = n + kBufferOffset := by
  have hlt := vectorMaxSize_lt
  have hmakeRoom : (fresh n).ensureWritableBytes buf.length = .ok (fresh n) := by
    refine ensureWritableBytesAux_room (fresh_wellFormed hmax) rfl ?_ 3
    rw [length_fresh]
    show buf.length ≤ n + kBufferOffset - kBufferOffset
    omega
  obtain ⟨buffer, hstore, hbec, hblen⟩ := store_fresh buf hmax hbuf
  have htail : addSize (fresh n).tail buf.length = kBufferOffset + buf.length :=
    addSize_eq (a := kBufferOffset) (by omega)
  rw [append, hmakeRoom, ok_bind, hstore, ok_bind]
  exact ⟨_, rfl, hbec, rfl, htail, hblen⟩

/-- No room at all: a new buffer takes the bytes and then the readable ones. -/
theorem addInFront_grow (h : b.WellFormed) {buf : List Byte}
    (hlen : buf.length ≤ vectorMaxSize)
    (hmax : b.frontLen buf.length + kBufferOffset ≤ vectorMaxSize)
    (hhead : ¬ buf.length ≤ b.head) (hroom : ¬ buf.length ≤ b.writableBytes) :
    ∃ b', b.addInFront buf = .ok b' ∧ Becomes b b' (buf ++ b.contents) ∧
      b'.buffer.length = b.frontLen buf.length + kBufferOffset := by
  have hoff : kBufferOffset = 8 := rfl
  have hn : buf.length + b.readableBytes ≤ b.frontLen buf.length ∧
      b.initCap ≤ b.frontLen buf.length := by
    unfold frontLen
    split <;> omega
  rw [addInFront_new h hlen hhead hroom]
  generalize b.frontLen buf.length = n at hn hmax
  obtain ⟨mid, hmid, hbec, hmidHead, hmidTail, hmidLen⟩ :=
    fresh_append hmax (show buf.length ≤ n by omega)
  have hmakeRoom : mid.ensureWritableBytes b.readableBytes = .ok mid :=
    ensureWritableBytesAux_room hbec.wf hmidHead (by omega) 3
  have hcl := h.length_contents_eq
  obtain ⟨buffer, hstore, hbec₂⟩ := store_tail hbec.wf b.contents (by omega)
  have hbuffer : buffer.length = n + kBufferOffset := (length_of_store hstore).trans hmidLen
  rw [new_eq hmax, ok_bind, hmid, ok_bind, appendBuffer, hmakeRoom, ok_bind,
    h.load_contents, ok_bind, hstore, ok_bind, ← hcl]
  rw [hbec.contents] at hbec₂
  refine ⟨_, rfl, ⟨hbec₂.wf, hbec₂.contents, fun hl => ?_⟩, hbuffer⟩
  exact hbec₂.locked (hbec.locked (fresh_locked (Nat.le_trans hl.cap_ge hn.2)))

/-- Whatever the sizes: when it returns, the bytes stand in front of the readable ones, in the
old block or in a new one. -/
theorem addInFront_of_ok (h : b.WellFormed) {buf : List Byte}
    (hlen : buf.length ≤ vectorMaxSize) {b' : MsgBuffer}
    (hok : b.addInFront buf = .ok b') :
    Becomes b b' (buf ++ b.contents) ∧
      (b'.buffer.length = b.buffer.length ∨
        b'.buffer.length = b.frontLen buf.length + kBufferOffset) := by
  by_cases hhead : buf.length ≤ b.head
  · obtain ⟨b₁, hb₁, hbec, hsize⟩ := addInFront_headroom h hhead
    cases hb₁.symm.trans hok
    exact ⟨hbec, .inl hsize⟩
  by_cases hroom : buf.length ≤ b.writableBytes
  · obtain ⟨b₁, hb₁, hbec, hsize⟩ := addInFront_shift h hhead hroom
    cases hb₁.symm.trans hok
    exact ⟨hbec, .inl hsize⟩
  by_cases hmax : b.frontLen buf.length + kBufferOffset ≤ vectorMaxSize
  · obtain ⟨b₁, hb₁, hbec, hsize⟩ := addInFront_grow h hlen hmax hhead hroom
    cases hb₁.symm.trans hok
    exact ⟨hbec, .inr hsize⟩
  rw [addInFront_new h hlen hhead hroom] at hok
  by_cases hsize : b.frontLen buf.length + kBufferOffset < sizeMod
  · rw [new_lengthError hmax hsize] at hok
    cases hok
  · have hn : b.frontLen buf.length < sizeMod := by
      have hcap := h.cap_le
      have hll := h.length_le
      have hr := h.readableBytes_eq
      have htl := h.tail_le
      have hlt : 2 * vectorMaxSize < sizeMod := by decide
      unfold frontLen
      split <;> omega
    obtain ⟨newBuf, hnew, hmakeRoom, hstore⟩ := new_wrapped hn (Nat.not_lt.mp hsize)
    have happend : newBuf.append buf = .error .outOfBounds := by
      rw [append, ensureWritableBytes, hmakeRoom 3 _ hlen, ok_bind, hstore]
      rfl
    rw [hnew, ok_bind, happend] at hok
    cases hok

/-- The new block is no longer than the old capacity or what it has to hold. -/
theorem WellFormed.frontLen_le (h : b.WellFormed) (buf : List Byte) :
    b.frontLen buf.length ≤ max b.initCap (buf ++ b.contents).length := by
  rw [List.length_append, h.length_contents_eq, frontLen]
  split <;> omega

theorem addInFront_spec (h : b.WellFormed) (buf : List Byte) (hfit : b.Fits buf.length) :
    ∃ b', b.addInFront buf = .ok b' ∧ Becomes b b' (buf ++ b.contents) := by
  by_cases hhead : buf.length ≤ b.head
  · obtain ⟨b', hb', hbec, -⟩ := addInFront_headroom h hhead
    exact ⟨b', hb', hbec⟩
  by_cases hroom : buf.length ≤ b.writableBytes
  · obtain ⟨b', hb', hbec, -⟩ := addInFront_shift h hhead hroom
    exact ⟨b', hb', hbec⟩
  have htl := h.tail_le
  have hcap := h.cap_le
  have hr := h.readableBytes_eq
  have hoff : kBufferOffset = 8 := rfl
  unfold Fits at hfit
  have hmax : b.frontLen buf.length + kBufferOffset ≤ vectorMaxSize := by
    unfold frontLen
    split <;> omega
  obtain ⟨b', hb', hbec, -⟩ := addInFront_grow h (by omega) hmax hhead hroom
  exact ⟨b', hb', hbec⟩

/-! ## `readFd` -/

/-- The `int` conversions of `readFd` are harmless for a buffer with less than 2 GiB of room. -/
theorem iovLen_eq (hw : b.writableBytes < 2 ^ 31) : b.iovLen = b.writableBytes := by
  have hlt : b.writableBytes < sizeMod := by
    have : (2 : Nat) ^ 31 < sizeMod := by decide
    omega
  rw [iovLen, toInt32_eq hw, intToSize_natCast hlt]

/-- A read that fits into the buffer. -/
theorem readFd_direct (h : b.WellFormed) {data : List Byte} (hw : b.writableBytes < 2 ^ 31)
    (hlen : data.length ≤ b.writableBytes) :
    ∃ b', b.readFd (some data) = .ok (b', data.length) ∧
      Becomes b b' (b.contents ++ data) := by
  obtain ⟨buffer, hstore, hbec⟩ :=
    store_tail h data (by rw [← h.writableBytes_eq]; exact hlen)
  have hext : store (List.replicate extBufferSize 0) 0 []
      = .ok (Block.splice (List.replicate extBufferSize 0) 0 []) :=
    store_eq (Nat.zero_le _)
  unfold readFd
  dsimp only
  rw [iovLen_eq hw, List.take_of_length_le hlen, List.drop_eq_nil_of_le hlen, hstore, ok_bind,
    hext, ok_bind, if_pos hlen]
  exact ⟨_, rfl, hbec⟩

/-- A scatter read: the buffer is filled and the rest appended from `extBuffer`. -/
theorem readFd_scatter (h : b.WellFormed) {data : List Byte} (hw : b.writableBytes < 2 ^ 31)
    (hcap : data.length ≤ b.readvCapacity) (hfit : b.Fits data.length)
    (hlen : ¬ data.length ≤ b.writableBytes) :
    ∃ b', b.readFd (some data) = .ok (b', data.length) ∧
      Becomes b b' (b.contents ++ data) := by
  have hht := h.head_le
  have htl := h.tail_le
  have hll := h.length_le
  have hlt := vectorMaxSize_lt
  have hwe := h.writableBytes_eq
  have hiov := iovLen_eq hw
  unfold readvCapacity at hcap
  unfold Fits at hfit
  rw [hiov] at hcap
  have hsmall : data.length ≤ b.writableBytes + extBufferSize := by
    split at hcap <;> omega
  generalize hk : b.writableBytes = k at *
  have hfirst : (data.take k).length = k := by
    rw [List.length_take]
    omega
  have hrestLen : (data.drop k).length = data.length - k := List.length_drop
  -- the buffer is filled
  obtain ⟨buffer, hstore, hbec⟩ := store_tail h (data.take k) (by omega)
  have hblen := length_of_store hstore
  have htail : addSize b.tail (data.take k).length = buffer.length := by
    rw [hfirst, addSize_eq (by omega)]
    omega
  rw [htail] at hbec
  -- the rest sits at the front of `extBuffer`
  have hinExt : 0 + (data.drop k).length ≤ (List.replicate extBufferSize (0 : Byte)).length := by
    rw [List.length_replicate]
    omega
  have hload : load (Block.splice (List.replicate extBufferSize 0) 0 (data.drop k)) 0
      (data.length - k) = .ok (data.drop k) := by
    rw [← hrestLen, load_eq (by rw [Block.length_splice hinExt]; exact hinExt),
      Block.slice_splice_self hinExt]
  -- and is appended
  obtain ⟨b', happ, hbec₂⟩ := append_spec hbec.wf (data.drop k) (by
    show 2 * buffer.length + (data.drop k).length + 16 ≤ vectorMaxSize
    omega)
  rw [hbec.contents, List.append_assoc, List.take_append_drop] at hbec₂
  unfold readFd
  dsimp only
  rw [hiov, hk, hstore, ok_bind, store_eq hinExt, ok_bind, if_neg hlen,
    subSize_eq (by omega) (by omega), hload, ok_bind, happ, ok_bind]
  exact ⟨_, rfl, hbec.trans hbec₂⟩

theorem readFd_spec (h : b.WellFormed) {data : List Byte} (hw : b.writableBytes < 2 ^ 31)
    (hcap : data.length ≤ b.readvCapacity) (hfit : b.Fits data.length) :
    ∃ b', b.readFd (some data) = .ok (b', data.length) ∧
      Becomes b b' (b.contents ++ data) := by
  by_cases hlen : data.length ≤ b.writableBytes
  · exact readFd_direct h hw hlen
  · exact readFd_scatter h hw hcap hfit hlen

end MsgBuffer

end XiaoNet
