import XiaoNet.Utils.MsgBufferCapacity

/-!
# `ensureWritableBytes` for every length

`makeRoom` is `ensureWritableBytes` with the buffer as the state it leaves behind, also when it
throws. What it promises for a length is `KeepsPromise`: room for that many bytes and the
readable bytes unchanged, or an exception from the vector and the buffer unchanged.

- `moveToFront_promise`, `moveToNew_promise`: the two branches that move the readable bytes.
- `RoomFits`: no sum that decides between the branches wraps, or one wraps and nothing comes
  of it.
- `makeRoom_keeps_iff`: in every reachable state and for every `size_t`, the promise is kept
  exactly when `RoomFits` holds.
-/

namespace XiaoNet

namespace MsgBuffer

/-- `MsgBuffer::ensureWritableBytes(len)` as a change of the buffer. -/
def makeRoom (len : Nat) : EStateM Fault MsgBuffer Unit := do
  let b ← get
  if b.writableBytes > len then pure ()
  else if addSize b.head b.writableBytes ≥ addSize len kBufferOffset then
    -- move readable bytes
    let bytes ← ofExcept (load b.buffer b.head b.readableBytes)
    let buffer ← ofExcept (store b.buffer kBufferOffset bytes)
    modify fun b => { b with buffer := buffer }
    modify fun b => { b with tail := addSize kBufferOffset (subSize b.tail b.head) }
    modify fun b => { b with head := kBufferOffset }
  else
    -- create new buffer, swap
    let newbuffer ← ofExcept (b.moveToNew 3 (b.newLen len))
    set newbuffer

/-- The state that a computation on the buffer leaves behind when it changes the buffer last. -/
def leaves (b : MsgBuffer) : Except Fault MsgBuffer → EStateM.Result Fault MsgBuffer Unit
  | .ok b' => .ok () b'
  | .error e => .error e b

/-- `makeRoom` changes the buffer after everything that can fail. -/
theorem makeRoom_run (b : MsgBuffer) (len : Nat) :
    (makeRoom len).run b = b.leaves (b.ensureWritableBytes len) := by
  rw [ensureWritableBytes, ensureWritableBytesAux_succ]
  rw [makeRoom, EStateM.run_bind, EStateM.run_get]
  dsimp only [EStateM.run]
  -- the same tests in the same order, and an exception leaves the buffer at the step it came from
  by_cases hgt : b.writableBytes > len
  · rw [if_pos hgt, if_pos hgt]
    rfl
  rw [if_neg hgt, if_neg hgt]
  by_cases hmove : addSize b.head b.writableBytes ≥ addSize len kBufferOffset
  · rw [if_pos hmove, if_pos hmove, moveToFront]
    cases hload : load b.buffer b.head b.readableBytes with
    | error e => rfl
    | ok bytes =>
      rw [ok_bind]
      show EStateM.bind (ofExcept (store b.buffer kBufferOffset bytes)) _ b = _
      cases hstore : store b.buffer kBufferOffset bytes with
      | error e => rfl
      | ok buffer => rfl
  · rw [if_neg hmove, if_neg hmove]
    cases hnew : b.moveToNew 3 (b.newLen len) with
    | error e => rfl
    | ok newbuffer => rfl

/-- **The promise**: room for `len` bytes and the readable bytes unchanged, or an exception
from the allocation and the buffer unchanged. -/
def KeepsPromise (b : MsgBuffer) (len : Nat) : Prop :=
  (makeRoom len).run b = .error .lengthError b ∨
    ∃ b', (makeRoom len).run b = .ok () b' ∧ len ≤ b'.writableBytes ∧ b'.contents = b.contents

/-- The same of a result. -/
def Delivers (b : MsgBuffer) (len : Nat) : Except Fault MsgBuffer → Prop
  | .ok b' => len ≤ b'.writableBytes ∧ b'.contents = b.contents
  | .error e => e = .lengthError

theorem keepsPromise_iff (b : MsgBuffer) (len : Nat) :
    b.KeepsPromise len ↔ b.Delivers len (b.ensureWritableBytes len) := by
  rw [KeepsPromise, makeRoom_run]
  cases b.ensureWritableBytes len with
  | error e => simp [leaves, Delivers]
  | ok b' => simp [leaves, Delivers]

/-! ## The branches -/

variable {b : MsgBuffer} {len : Nat}

/-- Moved to the front of the block, the readable bytes leave room for `len` bytes when the
block is long enough for both. -/
theorem moveToFront_delivers (h : b.WellFormed) :
    b.Delivers len b.moveToFront ↔ kBufferOffset + b.readableBytes + len ≤ b.buffer.length := by
  by_cases hin : kBufferOffset + b.readableBytes ≤ b.buffer.length
  · obtain ⟨b', hb', hbec, hsame, htail⟩ := moveToFront_spec h hin
    rw [hb', Delivers, hbec.wf.writableBytes_eq, hsame, htail]
    constructor
    · rintro ⟨hroom, -⟩
      omega
    · intro hlen
      exact ⟨by omega, hbec.contents⟩
  · rw [moveToFront_outOfBounds h hin]
    constructor
    · intro he
      cases he
    · intro hlen
      omega

/-- A new buffer delivers unless its length wraps, or it can be had and is too small. -/
theorem moveToNew_delivers (h : b.WellFormed) {n : Nat} (hn : b.buffer.length * 2 ≤ n)
    (hlt : n < sizeMod) (depth : Nat) :
    b.Delivers len (b.moveToNew (depth + 1) n) ↔
      n + kBufferOffset < sizeMod ∧
        (n + kBufferOffset ≤ vectorMaxSize → b.readableBytes + len ≤ n) := by
  have htl := h.tail_le
  have hoff := h.offset_le
  have hr := h.readableBytes_eq
  have hmod := vectorMaxSize_lt
  by_cases hmax : n + kBufferOffset ≤ vectorMaxSize
  · obtain ⟨b', hb', hbec, hsize, htail⟩ := moveToNew_spec h (by omega) hmax depth
    rw [hb', Delivers, hbec.wf.writableBytes_eq, hsize, htail]
    constructor
    · rintro ⟨hroom, -⟩
      exact ⟨by omega, fun _ => by omega⟩
    · rintro ⟨-, hroom⟩
      have := hroom hmax
      exact ⟨by omega, hbec.contents⟩
  by_cases hsize : n + kBufferOffset < sizeMod
  · rw [moveToNew_lengthError hmax hsize]
    exact iff_of_true rfl ⟨hsize, fun hle => absurd hle hmax⟩
  · rw [moveToNew_wrapped h hlt (Nat.not_lt.mp hsize)]
    constructor
    · intro he
      cases he
    · rintro ⟨hle, -⟩
      exact absurd hle hsize

/-- The length of the new buffer when the sum it is chosen by does not wrap. -/
theorem newLen_eq (h : b.WellFormed) (hsum : kBufferOffset + b.readableBytes + len < sizeMod) :
    b.newLen len = max (b.buffer.length * 2) (kBufferOffset + b.readableBytes + len) := by
  have hll := h.length_le
  have hlt : 2 * vectorMaxSize < sizeMod := by decide
  have hdoubled : mulSize b.buffer.length 2 = b.buffer.length * 2 := mulSize_eq (by omega)
  rw [newLen, hdoubled, addSize_eq (a := kBufferOffset) (by omega), addSize_eq hsum]
  split <;> omega

/-- When it wraps, what is left of it is less than twice the block. -/
theorem newLen_wrapped (h : b.Regular) (hlen : len < sizeMod)
    (hwrap : sizeMod ≤ kBufferOffset + b.readableBytes + len) :
    b.newLen len = b.buffer.length * 2 := by
  have hll := h.wf.length_le
  have htl := h.wf.tail_le
  have hr := h.wf.readableBytes_eq
  have hcap := h.locked.cap_ge
  have hsize := h.locked.length_eq
  have hlt : 2 * vectorMaxSize + 2 = sizeMod := by decide
  have hoff : kBufferOffset = 8 := rfl
  have hdoubled : mulSize b.buffer.length 2 = b.buffer.length * 2 := mulSize_eq (by omega)
  -- the wrapped sum is small, so doubling wins
  rw [newLen, hdoubled, addSize_eq (a := kBufferOffset) (by omega),
    addSize_wrap hwrap (by omega)]
  rw [if_pos (by omega)]

/-! ## The condition -/

/-- There is room already, or behind the readable bytes moved to the front, or the length of
the new buffer and of its block are computed without a wrap. -/
def SumsFit (b : MsgBuffer) (len : Nat) : Prop :=
  len < b.writableBytes ∨
    len + kBufferOffset ≤ b.head + b.writableBytes ∨
    (b.buffer.length * 2 + kBufferOffset < sizeMod ∧
      b.readableBytes + len + 2 * kBufferOffset < sizeMod)

/-- The sum wraps, the readable bytes are not moved to the front for that, and the block is so
long that the vector refuses twice its length as well. -/
def RefusedAnyway (b : MsgBuffer) (len : Nat) : Prop :=
  sizeMod ≤ kBufferOffset + b.readableBytes + len ∧
    ¬ (sizeMod ≤ len + kBufferOffset ∧
      len + kBufferOffset - sizeMod ≤ b.head + b.writableBytes) ∧
    vectorMaxSize < b.buffer.length * 2 + kBufferOffset ∧
    b.buffer.length * 2 + kBufferOffset < sizeMod

/-- The lengths for which `ensureWritableBytes` does what it promises. -/
def RoomFits (b : MsgBuffer) (len : Nat) : Prop := b.SumsFit len ∨ b.RefusedAnyway len

/-- The branch that moves the readable bytes to the front, taken with a sum that does not
wrap or with one that does. -/
theorem moves_iff (h : b.WellFormed) (hlen : len < sizeMod) :
    addSize b.head b.writableBytes ≥ addSize len kBufferOffset ↔
      len + kBufferOffset ≤ b.head + b.writableBytes ∨
        (sizeMod ≤ len + kBufferOffset ∧
          len + kBufferOffset - sizeMod ≤ b.head + b.writableBytes) := by
  have hht := h.head_le
  have htl := h.tail_le
  have hll := h.length_le
  have hlt := vectorMaxSize_lt
  have hw := h.writableBytes_eq
  have hoff : kBufferOffset = 8 := rfl
  have hmod : sizeMod = 2 ^ 64 := rfl
  rw [addSize_eq (a := b.head) (by omega)]
  by_cases hwrap : len + kBufferOffset < sizeMod
  · rw [addSize_eq hwrap]
    omega
  · rw [addSize_wrap (Nat.not_lt.mp hwrap) (by omega)]
    omega

theorem delivers_iff (h : b.Regular) (hlen : len < sizeMod) :
    b.Delivers len (b.ensureWritableBytes len) ↔ b.RoomFits len := by
  have hht := h.wf.head_le
  have htl := h.wf.tail_le
  have hll := h.wf.length_le
  have hlt : 2 * vectorMaxSize + 2 = sizeMod := by decide
  have hw := h.wf.writableBytes_eq
  have hr := h.wf.readableBytes_eq
  have hoff : kBufferOffset = 8 := rfl
  have hmoves := moves_iff h.wf hlen
  rw [ensureWritableBytes, ensureWritableBytesAux_succ]
  -- room already, room after a move, or a new buffer
  by_cases hgt : b.writableBytes > len
  · rw [if_pos hgt]
    exact iff_of_true ⟨Nat.le_of_lt hgt, rfl⟩ (.inl (.inl hgt))
  rw [if_neg hgt]
  by_cases hmove : addSize b.head b.writableBytes ≥ addSize len kBufferOffset
  · -- room for the wrapped sum is none for `len`
    rw [if_pos hmove, moveToFront_delivers h.wf, RoomFits, SumsFit, RefusedAnyway]
    rw [hmoves] at hmove
    omega
  rw [if_neg hmove]
  rw [hmoves] at hmove
  obtain ⟨hle, hnew⟩ := h.wf.le_newLen len
  rw [moveToNew_delivers h.wf (by omega) hnew, RoomFits, SumsFit, RefusedAnyway]
  -- the sum that asks for the new buffer may wrap around
  by_cases hsum : kBufferOffset + b.readableBytes + len < sizeMod
  · rw [newLen_eq h.wf hsum]
    omega
  · rw [newLen_wrapped h hlen (Nat.not_lt.mp hsum)]
    omega

namespace Pool

variable {ι : Type} [DecidableEq ι]

/-- The buffers of a run that has not faulted are regular. -/
theorem regular_of_run (order : ByteOrder) {lens : ι → Nat} {p q : Pool ι}
    (hp : p.Constructed lens) (hlens : ∀ i, kBufferOffset ≤ lens i) {ops : List (Op ι)}
    (hrange : Runs.Along (stepRun order) StepInRange (.ok p) ops)
    (hq : Runs.run (stepRun order) (.ok p) ops = .ok q) (i : ι) : (q.bufs i).Regular :=
  (Runs.always_of_along (stepRun_regular order) (hp.allRegular hlens) hrange).last q hq i

/-- **Room for every length, exactly**: in every state that buffers constructed with length
at least 8 reach, and for every length of a `size_t`, `ensureWritableBytes` keeps its promise
if and only if no sum it computes wraps, or the vector refuses the block in any case. -/
theorem makeRoom_keeps_iff (order : ByteOrder) {lens : ι → Nat} {p q : Pool ι}
    (hp : p.Constructed lens) (hlens : ∀ i, kBufferOffset ≤ lens i) {ops : List (Op ι)}
    (hrange : Runs.Along (stepRun order) StepInRange (.ok p) ops)
    (hq : Runs.run (stepRun order) (.ok p) ops = .ok q) (i : ι) {len : Nat}
    (hlen : len < sizeMod) : (q.bufs i).KeepsPromise len ↔ (q.bufs i).RoomFits len := by
  rw [keepsPromise_iff]
  exact delivers_iff (regular_of_run order hp hlens hrange hq i) hlen

/-- Five bytes in a buffer of length 8, and room for nine more. -/
theorem makeRoom_keeps_nine :
    ∃ q, Runs.run (stepRun ⟨id⟩) (.ok (freshPool Unit 8)) [.append () [1, 2, 3, 4, 5]] = .ok q ∧
      (q.bufs ()).KeepsPromise 9 := by
  have hrange : Runs.Along (stepRun ⟨id⟩) StepInRange (.ok (freshPool Unit 8))
      [.append () [1, 2, 3, 4, 5]] := by
    refine ⟨fun q _ => ?_, trivial⟩
    show 5 ≤ vectorMaxSize
    decide
  refine ⟨_, rfl, (makeRoom_keeps_iff ⟨id⟩ (freshPool_constructed (by decide))
    (fun _ => Nat.le_refl _) hrange rfl () (by decide)).mpr ?_⟩
  exact .inl (.inr (.inr (by decide)))

/-- Three bytes in a buffer of length 8: asked for `2 ^ 64 - 1` bytes, it moves the three bytes
onto themselves and returns with room for five. -/
theorem makeRoom_wraps :
    (freshPool Unit 8).Constructed (fun _ => 8) ∧
      ∃ q, Runs.run (stepRun ⟨id⟩) (.ok (freshPool Unit 8)) [.append () [1, 2, 3]] = .ok q ∧
        (makeRoom (2 ^ 64 - 1)).run (q.bufs ()) = .ok () (q.bufs ()) ∧
        (q.bufs ()).writableBytes = 5 ∧ ¬ (q.bufs ()).KeepsPromise (2 ^ 64 - 1) := by
  refine ⟨freshPool_constructed (by decide), _, rfl, rfl, rfl, ?_⟩
  rintro (herr | ⟨b', hok, hroom, -⟩)
  · cases herr
  · cases hok
    exact absurd hroom (by decide)

end Pool

end MsgBuffer

end XiaoNet
