import XiaoNet.Utils.MsgBufferCapacity

/-!
# The memory of a `MsgBuffer`

A block is never given back, so its length has to be bounded by what the buffer once had to hold.

- `Grew n b b'`: the block is as long as before, or not longer than `2 * n + 24`.
- `demand`: how many bytes an operation makes a buffer hold.
- `memory_bounded`: when no operation of a run demands more than `peak` bytes, no block is ever
  longer than `2 * peak + 24`, or than it was at the start.
-/

namespace XiaoNet

namespace MsgBuffer

/-- The block has grown to no more than what `n` bytes need. -/
def Grew (n : Nat) (b b' : MsgBuffer) : Prop :=
  b'.buffer.length ≤ max b.buffer.length (2 * n + 24)

variable {b b' : MsgBuffer} {n : Nat}

theorem Grew.of_eq (h : b'.buffer.length = b.buffer.length) : Grew n b b' := by
  unfold Grew
  omega

theorem Grew.mono {m : Nat} (h : Grew n b b') (hle : n ≤ m) : Grew m b b' := by
  unfold Grew at *
  omega

/-- A number of bytes for which the sums of `append` could wrap is more than a block can have. -/
theorem Grew.of_large (h : b'.WellFormed) (hlarge : ¬ n + kBufferOffset ≤ vectorMaxSize) :
    Grew n b b' := by
  have hle := h.length_le
  have hoff : kBufferOffset = 8 := rfl
  unfold Grew
  omega

theorem ensureWritableBytes_grew (h : b.Regular) {len : Nat}
    (hok : b.ensureWritableBytes len = .ok b') : Grew (b.contents.length + len) b b' := by
  by_cases hlen : len + kBufferOffset ≤ vectorMaxSize
  · exact (ensureWritableBytes_of_ok h.wf hlen hok).2.2
  · refine Grew.of_large (ensureWritableBytes_advances h hok).regular.wf ?_
    omega

theorem append_grew (h : b.Regular) {buf : List Byte} (hok : b.append buf = .ok b') :
    Grew (b.contents.length + buf.length) b b' := by
  obtain ⟨b₁, hens, hok⟩ := bind_eq_ok hok
  obtain ⟨buffer, hstore, hok⟩ := bind_eq_ok hok
  have hgrew := ensureWritableBytes_grew h hens
  cases hok
  unfold Grew at *
  rw [length_of_store hstore]
  exact hgrew

theorem appendBuffer_grew (h : b.Regular) {buf : MsgBuffer} (hok : b.appendBuffer buf = .ok b') :
    Grew (b.contents.length + buf.readableBytes) b b' := by
  obtain ⟨b₁, hens, hok⟩ := bind_eq_ok hok
  obtain ⟨bytes, -, hok⟩ := bind_eq_ok hok
  obtain ⟨buffer, hstore, hok⟩ := bind_eq_ok hok
  have hgrew := ensureWritableBytes_grew h hens
  cases hok
  unfold Grew at *
  rw [length_of_store hstore]
  exact hgrew

theorem appendSelf_grew (h : b.Regular) (hok : b.appendSelf = .ok b') :
    Grew (b.contents.length + b.readableBytes) b b' := by
  obtain ⟨b₁, hens, hok⟩ := bind_eq_ok hok
  obtain ⟨bytes, -, hok⟩ := bind_eq_ok hok
  obtain ⟨buffer, hstore, hok⟩ := bind_eq_ok hok
  have hgrew := ensureWritableBytes_grew h hens
  cases hok
  unfold Grew at *
  rw [length_of_store hstore]
  exact hgrew

/-- A new block of `addInFront` is as long as the old one, or as what it has to hold. -/
theorem addInFront_grew (h : b.Regular) {buf : List Byte} (hbuf : buf.length ≤ vectorMaxSize)
    (hok : b.addInFront buf = .ok b') : Grew (b.contents.length + buf.length) b b' := by
  obtain ⟨-, hsize⟩ := addInFront_of_ok h.wf hbuf hok
  have hfront := h.wf.frontLen_le buf
  have hcap := h.locked.length_eq
  have hoff : kBufferOffset = 8 := rfl
  rw [List.length_append] at hfront
  unfold Grew
  omega

theorem hasWritten_same {data : List Byte} (hok : b.hasWritten data = .ok b') :
    b'.buffer.length = b.buffer.length := by
  unfold hasWritten at hok
  by_cases hlen : data.length ≤ b.writableBytes
  · rw [if_pos hlen] at hok
    obtain ⟨buffer, hstore, hok⟩ := bind_eq_ok hok
    cases hok
    exact length_of_store hstore
  · rw [if_neg hlen] at hok
    cases hok

theorem retrieve_same (h : b.Regular) (len : Nat) : (b.retrieve len).buffer = b.buffer := by
  unfold retrieve
  by_cases hall : len ≥ b.readableBytes
  · rw [if_pos hall]
    exact if_neg h.not_resize
  · rw [if_neg hall]

/-- A read that fits into the room behind the readable bytes needs no memory. -/
theorem readFd_grew (h : b.Regular) {data : List Byte} {r : Int}
    (hcap : data.length ≤ b.readvCapacity) (hok : b.readFd (some data) = .ok (b', r)) :
    b'.buffer.length = b.buffer.length ∨
      (b.writableBytes < data.length ∧ data.length ≤ b.writableBytes + extBufferSize ∧
        b.writableBytes < extBufferSize ∧ Grew (b.contents.length + data.length) b b') := by
  obtain ⟨buffer, hstore, hok⟩ := bind_eq_ok hok
  obtain ⟨extBuffer, hext, hok⟩ := bind_eq_ok hok
  by_cases hlen : data.length ≤ b.writableBytes
  · simp only [if_pos hlen] at hok
    cases hok
    exact .inl (length_of_store hstore)
  · have hin := le_of_store hstore
    have htl := h.wf.tail_le
    have hll := h.wf.length_le
    have hlt : vectorMaxSize + extBufferSize < sizeMod := by decide
    have hw := h.wf.writableBytes_eq
    have hsmall : b.writableBytes < extBufferSize → b.iovLen = b.writableBytes :=
      fun hfew => iovLen_eq (Nat.lt_trans hfew (by decide))
    rw [List.length_take] at hin
    unfold readvCapacity at hcap
    have hfew : b.writableBytes < extBufferSize := by
      by_contra hmany
      rw [if_neg hmany] at hcap
      omega
    rw [if_pos hfew, hsmall hfew] at hcap
    rw [hsmall hfew] at hstore
    -- the buffer is filled to its end
    have htaken : (data.take b.writableBytes).length = b.writableBytes := by
      rw [List.length_take]
      omega
    have hblen := length_of_store hstore
    have htail : addSize b.tail (data.take b.writableBytes).length = buffer.length := by
      rw [htaken, addSize_eq (by omega)]
      omega
    have hfill := store_advances h hstore
    rw [htail] at hfill
    simp only [if_neg hlen] at hok
    obtain ⟨rest, hload, hok⟩ := bind_eq_ok hok
    obtain ⟨b₁, happ, hok⟩ := bind_eq_ok hok
    cases hok
    have hrest : rest.length = data.length - b.writableBytes := by
      rw [length_of_load hload, subSize_eq (by omega) (by omega)]
    have hgrew := append_grew hfill.regular happ
    refine .inr ⟨Nat.not_le.mp hlen, hcap, hfew, ?_⟩
    have hhead := h.wf.head_le
    have hheld := h.wf.length_contents_eq
    have hr := h.wf.readableBytes_eq
    have hheld' := hfill.regular.wf.length_contents_eq
    rw [hfill.regular.wf.readableBytes_eq] at hheld'
    dsimp only at hheld'
    unfold Grew at *
    dsimp only at hgrew
    omega

/-! ## Pools -/

namespace Pool

variable {ι : Type} [DecidableEq ι]

/-- How many bytes the operation makes a buffer hold; 0 when it needs no memory. -/
def demand (p : Pool ι) : Op ι → Nat
  | .append i buf | .addInFront i buf => (p.bufs i).readableBytes + buf.length
  | .appendBuffer i j => (p.bufs i).readableBytes + (p.bufs j).readableBytes
  | .appendInt8 i _ | .addInFrontInt8 i _ => (p.bufs i).readableBytes + 1
  | .appendInt16 i _ | .addInFrontInt16 i _ => (p.bufs i).readableBytes + 2
  | .appendInt32 i _ | .addInFrontInt32 i _ => (p.bufs i).readableBytes + 4
  | .appendInt64 i _ | .addInFrontInt64 i _ => (p.bufs i).readableBytes + 8
  | .ensureWritableBytes i len => (p.bufs i).readableBytes + len
  | .readFd i (some data) =>
    if data.length ≤ (p.bufs i).writableBytes then 0
    else (p.bufs i).readableBytes + data.length
  | .readFd _ none | .hasWritten _ _ | .retrieve _ _ | .retrieveAll _ | .retrieveUntil _ _
  | .read _ _ | .unwrite _ _ | .swap _ _ => 0

theorem update_grew {p : Pool ι} {i : ι} {b : MsgBuffer} (hb : Grew n (p.bufs i) b) (k : ι) :
    Grew n (p.bufs k) (Function.update p.bufs i b k) := by
  by_cases hk : k = i
  · subst hk
    rw [Function.update_self]
    exact hb
  · rw [Function.update_of_ne hk]
    exact .of_eq rfl

theorem modify_grew {p p' : Pool ι} {i : ι} {f : MsgBuffer → Except Fault MsgBuffer}
    (hok : p.modify i f = .ok p') (hf : ∀ b, f (p.bufs i) = .ok b → Grew n (p.bufs i) b) (k : ι) :
    Grew n (p.bufs k) (p'.bufs k) := by
  obtain ⟨b, hb, hok⟩ := bind_eq_ok hok
  cases hok
  exact update_grew (hf b hb) k

/-- **One operation**: it has exchanged two buffers, or no block has grown to more than the
demand. -/
theorem step_grew (order : ByteOrder) {p p' : Pool ι} (hreg : ∀ k, (p.bufs k).Regular)
    {op : Op ι} (hrange : p.InRange op) (hok : p.step order op = .ok p') :
    (∃ i j, op = .swap i j ∧ p'.bufs = fun k => p.bufs (Equiv.swap i j k)) ∨
      ∀ k, Grew (p.demand op) (p.bufs k) (p'.bufs k) := by
  -- what a buffer holds is what the growth lemmas count
  have hheld := fun i => (hreg i).wf.length_contents_eq
  -- two buffers change places, or at most one grows
  cases op with
  | swap i j =>
    cases hok
    exact .inl ⟨i, j, rfl, rfl⟩
  | append i _ | appendInt8 i _ | appendInt16 i _ | appendInt32 i _ | appendInt64 i _ =>
    -- what is put in behind
    right
    rw [step] at hok
    refine modify_grew hok fun _ hb => ?_
    rw [demand, ← hheld]
    exact append_grew (hreg i) hb
  | appendBuffer i j =>
    right
    rw [step] at hok
    rw [demand, ← hheld]
    by_cases hij : i = j
    · rw [if_pos hij] at hok
      refine modify_grew hok fun _ hb => ?_
      rw [← hij]
      exact appendSelf_grew (hreg i) hb
    · rw [if_neg hij] at hok
      exact modify_grew hok fun _ hb => appendBuffer_grew (hreg i) hb
  | addInFront i _ =>
    -- what is put in in front: room is made by moving, or in a new block
    right
    rw [step] at hok
    refine modify_grew hok fun _ hb => ?_
    rw [demand, ← hheld]
    exact addInFront_grew (hreg i) hrange hb
  | addInFrontInt8 i _ | addInFrontInt16 i _ | addInFrontInt32 i _ | addInFrontInt64 i _ =>
    right
    rw [step] at hok
    refine modify_grew hok fun _ hb => ?_
    rw [demand, ← hheld]
    refine addInFront_grew (hreg i) ?_ hb
    have hfew : 8 ≤ vectorMaxSize := by decide
    exact Nat.le_trans (Nat.le_of_ble_eq_true rfl) hfew
  | retrieve i len =>
    -- what takes bytes out leaves the block as it is
    right
    rw [step] at hok
    refine modify_grew hok fun b hb => ?_
    cases hb
    exact .of_eq (congrArg List.length (retrieve_same (hreg i) len))
  | retrieveAll i =>
    right
    rw [step] at hok
    refine modify_grew hok fun b hb => ?_
    cases hb
    exact .of_eq (congrArg List.length (if_neg (hreg i).not_resize))
  | retrieveUntil i offset =>
    right
    rw [step] at hok
    refine modify_grew hok fun b hb => .of_eq ?_
    unfold retrieveUntil at hb
    by_cases hpos : (p.bufs i).head ≤ (p.bufs i).head + offset ∧
        (p.bufs i).head + offset ≤ (p.bufs i).tail
    · rw [if_pos hpos] at hb
      cases hb
      exact congrArg List.length (retrieve_same (hreg i) _)
    · rw [if_neg hpos] at hb
      cases hb
  | read i len =>
    right
    rw [step, read_eq (hreg i).wf, ok_bind] at hok
    cases hok
    exact update_grew (.of_eq (congrArg List.length (retrieve_same (hreg i) _)))
  | hasWritten i _ =>
    -- only the indices move
    right
    rw [step] at hok
    exact modify_grew hok fun _ hb => .of_eq (hasWritten_same hb)
  | unwrite i offset =>
    right
    rw [step] at hok
    refine modify_grew hok fun b hb => .of_eq ?_
    unfold unwrite at hb
    by_cases hle : offset ≤ (p.bufs i).readableBytes
    · rw [if_pos hle] at hb
      cases hb
      rfl
    · rw [if_neg hle] at hb
      cases hb
  | ensureWritableBytes i len =>
    -- room without bytes
    right
    rw [step] at hok
    refine modify_grew hok fun _ hb => ?_
    rw [demand, ← hheld]
    exact ensureWritableBytes_grew (hreg i) hb
  | readFd i data =>
    -- `readv` reads into the block, and what does not fit is appended
    right
    rw [step] at hok
    obtain ⟨⟨b, r⟩, hb, hok⟩ := bind_eq_ok hok
    cases hok
    refine update_grew ?_
    cases data with
    | none =>
      cases hb
      exact .of_eq rfl
    | some data =>
      rcases readFd_grew (hreg i) hrange hb with hsame | ⟨hlt, -, -, hgrew⟩
      · exact .of_eq hsame
      · -- the bytes of the second buffer make the block grow
        rw [demand, if_neg (Nat.not_le.mpr hlt), ← hheld]
        exact hgrew

/-- Every block is at most `limit` bytes long, unless a fault has ended the run. -/
def Within (limit : Nat) (s : Except Fault (Pool ι)) : Prop :=
  ∀ p, s = .ok p → ∀ i, (p.bufs i).buffer.length ≤ limit

/-- The step demands no more than `peak` bytes. -/
def Modest (peak : Nat) (s : Except Fault (Pool ι)) (op : Op ι) : Prop :=
  ∀ p, s = .ok p → p.demand op ≤ peak

instance (p : Pool ι) : (op : Op ι) → Decidable (p.InRange op)
  | .append _ _ | .addInFront _ _ | .hasWritten _ _ => inferInstanceAs (Decidable (_ ≤ _))
  | .ensureWritableBytes _ _ => inferInstanceAs (Decidable (_ < _))
  | .readFd _ (some _) => inferInstanceAs (Decidable (_ ≤ _))
  | .appendBuffer _ _ | .appendInt8 _ _ | .addInFrontInt8 _ _ | .appendInt16 _ _
  | .addInFrontInt16 _ _ | .appendInt32 _ _ | .addInFrontInt32 _ _ | .appendInt64 _ _
  | .addInFrontInt64 _ _ | .retrieve _ _ | .retrieveAll _ | .retrieveUntil _ _ | .read _ _
  | .readFd _ none | .unwrite _ _ | .swap _ _ => inferInstanceAs (Decidable True)

instance (s : Except Fault (Pool ι)) (op : Op ι) : Decidable (StepInRange s op) :=
  match s with
  | .error _ => .isTrue (by rintro _ ⟨⟩)
  | .ok p => decidable_of_iff (p.InRange op) (forall_ok (Q := fun q => q.InRange op)).symm

instance (peak : Nat) (s : Except Fault (Pool ι)) (op : Op ι) : Decidable (Modest peak s op) :=
  match s with
  | .error _ => .isTrue (by rintro _ ⟨⟩)
  | .ok p =>
    decidable_of_iff (p.demand op ≤ peak) (forall_ok (Q := fun q => q.demand op ≤ peak)).symm

/-- **Memory** is bounded by the peak of what the buffers had to hold at once, however long the
run is. -/
theorem memory_bounded (order : ByteOrder) {lens : ι → Nat} {p : Pool ι}
    (hp : p.Constructed lens) (hlens : ∀ i, kBufferOffset ≤ lens i) {peak limit : Nat}
    (hlimit : 2 * peak + 24 ≤ limit) (hfirst : ∀ i, lens i + kBufferOffset ≤ limit)
    {ops : List (Op ι)} (hrange : Runs.Along (stepRun order) StepInRange (.ok p) ops)
    (hmodest : Runs.Along (stepRun order) (Modest peak) (.ok p) ops) :
    Runs.Always (stepRun order) (Within limit) (.ok p) ops := by
  have hall : Runs.Always (stepRun order) (fun s => AllRegular s ∧ Within limit s) (.ok p) ops := by
    refine Runs.always_of_along ?_ ?_ (hrange.and hmodest)
    · rintro s op ⟨hreg, hwithin⟩ ⟨hr, hm⟩
      refine ⟨stepRun_regular order s op hreg hr, ?_⟩
      intro p' hok i
      obtain ⟨q, rfl, hstep⟩ := bind_eq_ok hok
      obtain ⟨j, k, -, hbufs⟩ | hgrew := step_grew order (hreg q rfl) (hr q rfl) hstep
      · rw [hbufs]
        exact hwithin q rfl _
      · have hone : Grew peak (q.bufs i) (p'.bufs i) := (hgrew i).mono (hm q rfl)
        have hbefore := hwithin q rfl i
        unfold Grew at hone
        omega
    · refine ⟨hp.allRegular hlens, fun q hq i => ?_⟩
      cases hq
      rw [hp.fresh i, length_fresh]
      exact hfirst i
  exact hall.mono fun _ h => h.2

/-- A buffer of length 8 that never holds more than 40 bytes and is emptied in between. -/
theorem memory_bounded_eight :
    Runs.Always (stepRun ⟨id⟩) (Within 104) (.ok (freshPool Unit 8))
      [.append () (List.replicate 30 1), .retrieve () 25, .append () (List.replicate 35 2),
        .retrieveAll (), .readFd () (some (List.replicate 40 3))] :=
  memory_bounded ⟨id⟩ (freshPool_constructed (by decide)) (by decide)
    (show 2 * 40 + 24 ≤ 104 by decide) (by decide) (by decide) (by decide)

end Pool

end MsgBuffer

end XiaoNet
