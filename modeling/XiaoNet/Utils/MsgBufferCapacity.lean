import XiaoNet.Utils.MsgBufferRuns

/-!
# The capacity of a `MsgBuffer`

`initCap` is the length a block was constructed with, less the front offset, and
`ensureWritableBytes` and `addInFront` replace both together by a swap with a new buffer.

- `Regular`: the indices are in order and `initCap` is locked to the length of the block.
- `Advances`: what every operation but `swap` does to a regular buffer when it returns,
  whatever the sizes: the buffer stays regular and its block does not become shorter.
- `step_of_ok`: an operation on a pool advances every buffer, or exchanges two.
- `capacity_locked`: along a run within the preconditions the lock holds after each
  operation, the resize branch of `retrieveAll` is out of reach, and only a `swap` with a
  shorter buffer makes a block shorter.
-/

namespace XiaoNet

namespace MsgBuffer

/-- The indices are in order and `initCap` goes with the length of the block. -/
structure Regular (b : MsgBuffer) : Prop where
  wf : b.WellFormed
  locked : b.Locked

/-- A regular buffer whose block is at least as long. -/
structure Advances (b b' : MsgBuffer) : Prop where
  regular : b'.Regular
  length_le : b.buffer.length ≤ b'.buffer.length

variable {b b' : MsgBuffer}

theorem Advances.refl (h : b.Regular) : Advances b b := ⟨h, Nat.le_refl _⟩

theorem Advances.trans {b₁ b₂ b₃ : MsgBuffer} (h₁ : Advances b₁ b₂) (h₂ : Advances b₂ b₃) :
    Advances b₁ b₃ :=
  ⟨h₂.regular, Nat.le_trans h₁.length_le h₂.length_le⟩

theorem Becomes.advances {cs : List Byte} (hbec : Becomes b b' cs) (hl : b.Locked)
    (hlen : b.buffer.length ≤ b'.buffer.length) : Advances b b' :=
  ⟨⟨hbec.wf, hbec.locked hl⟩, hlen⟩

/-! ## Operations that return -/

theorem ensureWritableBytes_advances (h : b.Regular) {len : Nat}
    (hok : b.ensureWritableBytes len = .ok b') : Advances b b' := by
  obtain ⟨hbec, hlen⟩ := ensureWritableBytes_keeps h.wf hok
  exact hbec.advances h.locked hlen

/-- Bytes stored behind the readable ones. -/
theorem store_advances (h : b.Regular) {data buffer : List Byte}
    (hok : store b.buffer b.tail data = .ok buffer) :
    Advances b { b with buffer := buffer, tail := addSize b.tail data.length } := by
  have hin := le_of_store hok
  obtain ⟨buffer', hstore, hbec⟩ := store_tail h.wf data (by omega)
  cases hstore.symm.trans hok
  exact hbec.advances h.locked (length_of_store hok).ge

theorem append_advances (h : b.Regular) {buf : List Byte} (hok : b.append buf = .ok b') :
    Advances b b' := by
  obtain ⟨b₁, hens, hok⟩ := bind_eq_ok hok
  obtain ⟨buffer, hstore, hok⟩ := bind_eq_ok hok
  have hroom := ensureWritableBytes_advances h hens
  have hwrite := store_advances hroom.regular hstore
  cases hok
  exact hroom.trans hwrite

theorem appendBuffer_advances {buf : MsgBuffer} (h : b.Regular) (hbuf : buf.WellFormed)
    (hok : b.appendBuffer buf = .ok b') : Advances b b' := by
  obtain ⟨b₁, hens, hok⟩ := bind_eq_ok hok
  rw [hbuf.load_contents, ok_bind] at hok
  obtain ⟨buffer, hstore, hok⟩ := bind_eq_ok hok
  have hroom := ensureWritableBytes_advances h hens
  have hwrite := store_advances hroom.regular hstore
  rw [hbuf.length_contents_eq] at hwrite
  cases hok
  exact hroom.trans hwrite

theorem appendSelf_advances (h : b.Regular) (hok : b.appendSelf = .ok b') : Advances b b' := by
  obtain ⟨b₁, hens, hok⟩ := bind_eq_ok hok
  have hroom := ensureWritableBytes_advances h hens
  rw [hroom.regular.wf.load_contents, ok_bind] at hok
  obtain ⟨buffer, hstore, hok⟩ := bind_eq_ok hok
  have hwrite := store_advances hroom.regular hstore
  rw [hroom.regular.wf.length_contents_eq] at hwrite
  cases hok
  exact hroom.trans hwrite

theorem hasWritten_advances (h : b.Regular) {data : List Byte}
    (hok : b.hasWritten data = .ok b') : Advances b b' := by
  unfold hasWritten at hok
  by_cases hlen : data.length ≤ b.writableBytes
  · rw [if_pos hlen] at hok
    obtain ⟨buffer, hstore, hok⟩ := bind_eq_ok hok
    cases hok
    exact store_advances h hstore
  · rw [if_neg hlen] at hok
    cases hok

/-- The new block of `addInFront` is not shorter: it is at least `initCap` and the front
offset long. -/
theorem addInFront_advances (h : b.Regular) {buf : List Byte}
    (hbuf : buf.length ≤ vectorMaxSize) (hok : b.addInFront buf = .ok b') : Advances b b' := by
  obtain ⟨hbec, hsize⟩ := addInFront_of_ok h.wf hbuf hok
  refine hbec.advances h.locked ?_
  have hcap := h.locked.length_eq
  have hfront : b.initCap ≤ b.frontLen buf.length := by
    unfold frontLen
    split <;> omega
  omega

/-- The test of `retrieveAll` compares the length of the block with twice `initCap`. -/
theorem Regular.not_resize (h : b.Regular) : ¬ b.buffer.length > mulSize b.initCap 2 := by
  have hlen := h.locked.length_eq
  have hcap := h.locked.cap_ge
  rw [h.wf.mulSize_initCap]
  omega

theorem retrieve_advances (h : b.Regular) (n : Nat) : Advances b (b.retrieve n) := by
  have hbec := retrieve_spec h.wf (n := n) fun _ => h.locked.noShrink
  have hsame : (b.retrieve n).buffer = b.buffer := by
    unfold retrieve
    by_cases hall : n ≥ b.readableBytes
    · rw [if_pos hall]
      exact if_neg h.not_resize
    · rw [if_neg hall]
  exact hbec.advances h.locked (by rw [hsame])

theorem retrieveAll_advances (h : b.Regular) : Advances b b.retrieveAll := by
  have hbec := retrieveAll_spec h.wf h.locked.noShrink
  have hsame : b.retrieveAll.buffer = b.buffer := if_neg h.not_resize
  exact hbec.advances h.locked (by rw [hsame])

theorem retrieveUntil_advances (h : b.Regular) {pos : Nat}
    (hok : b.retrieveUntil pos = .ok b') : Advances b b' := by
  unfold retrieveUntil at hok
  by_cases hpos : b.head ≤ pos ∧ pos ≤ b.tail
  · rw [if_pos hpos] at hok
    cases hok
    exact retrieve_advances h _
  · rw [if_neg hpos] at hok
    cases hok

theorem unwrite_advances (h : b.Regular) {offset : Nat} (hok : b.unwrite offset = .ok b') :
    Advances b b' := by
  by_cases hle : offset ≤ b.readableBytes
  · obtain ⟨b₁, hb₁, hbec⟩ := unwrite_spec h.wf hle
    cases hb₁.symm.trans hok
    rw [unwrite, if_pos hle] at hok
    cases hok
    exact hbec.advances h.locked (Nat.le_refl _)
  · rw [unwrite, if_neg hle] at hok
    cases hok

/-- `readv` delivers no more than its vectors hold: the room behind the readable bytes, and
`extBuffer` when that is small. -/
theorem readFd_advances (h : b.Regular) {data : Option (List Byte)} {n : Int}
    (hcap : ∀ bytes, data = some bytes → bytes.length ≤ b.readvCapacity)
    (hok : b.readFd data = .ok (b', n)) : Advances b b' := by
  cases data with
  | none =>
    cases hok
    exact Advances.refl h
  | some data =>
    have hcap := hcap data rfl
    obtain ⟨buffer, hstore, hok⟩ := bind_eq_ok hok
    obtain ⟨extBuffer, -, hok⟩ := bind_eq_ok hok
    have hfill := store_advances h hstore
    have htl := h.wf.tail_le
    have hll := h.wf.length_le
    have hlt := vectorMaxSize_lt
    have hw := h.wf.writableBytes_eq
    have hin := le_of_store hstore
    rw [List.length_take] at hin
    have hsmall : b.writableBytes < extBufferSize → b.iovLen = b.writableBytes := by
      intro hlt'
      exact iovLen_eq (Nat.lt_trans hlt' (by decide))
    unfold readvCapacity at hcap
    -- all of it fits, or the rest came into the buffer on the stack
    by_cases hlen : data.length ≤ b.writableBytes
    · have hall : data.length ≤ b.iovLen := by
        split at hcap <;> omega
      rw [List.take_of_length_le hall] at hfill
      simp only [if_pos hlen] at hok
      cases hok
      exact hfill
    · -- the buffer is filled to its end
      have hfull : b.tail + (data.take b.iovLen).length = buffer.length := by
        rw [length_of_store hstore, List.length_take]
        split at hcap <;> omega
      rw [addSize_eq (by have := length_of_store hstore; omega), hfull] at hfill
      simp only [if_neg hlen] at hok
      obtain ⟨rest, -, hok⟩ := bind_eq_ok hok
      obtain ⟨b₁, happ, hok⟩ := bind_eq_ok hok
      cases hok
      exact hfill.trans (append_advances hfill.regular happ)

/-! ## Operations on a pool -/

namespace Pool

variable {ι : Type} [DecidableEq ι]

/-- What the types and the kernel see to: a byte string is no longer than an object can be, a
length is a `size_t`, and `readv` delivers no more than its vectors hold. -/
def InRange (p : Pool ι) : Op ι → Prop
  | .append _ buf | .addInFront _ buf | .hasWritten _ buf => buf.length ≤ vectorMaxSize
  | .ensureWritableBytes _ len => len < sizeMod
  | .readFd i (some data) => data.length ≤ (p.bufs i).readvCapacity
  | _ => True

theorem update_advances {p : Pool ι} (hreg : ∀ k, (p.bufs k).Regular) {i : ι} {b : MsgBuffer}
    (hb : Advances (p.bufs i) b) (k : ι) :
    Advances (p.bufs k) (Function.update p.bufs i b k) := by
  by_cases hk : k = i
  · subst hk
    rw [Function.update_self]
    exact hb
  · rw [Function.update_of_ne hk]
    exact Advances.refl (hreg k)

theorem modify_advances {p p' : Pool ι} (hreg : ∀ k, (p.bufs k).Regular) {i : ι}
    {f : MsgBuffer → Except Fault MsgBuffer} (hok : p.modify i f = .ok p')
    (hf : ∀ b, f (p.bufs i) = .ok b → Advances (p.bufs i) b) (k : ι) :
    Advances (p.bufs k) (p'.bufs k) := by
  obtain ⟨b, hb, hok⟩ := bind_eq_ok hok
  cases hok
  exact update_advances hreg (hf b hb) k

/-- **One operation**, whatever the sizes: when it returns it has exchanged two buffers, or
every buffer has kept its lock and at least its capacity. -/
theorem step_of_ok (order : ByteOrder) {p p' : Pool ι} (hreg : ∀ k, (p.bufs k).Regular)
    {op : Op ι} (hrange : p.InRange op) (hok : p.step order op = .ok p') :
    (∃ i j, op = .swap i j ∧ p'.bufs = fun k => p.bufs (Equiv.swap i j k)) ∨
      ∀ k, Advances (p.bufs k) (p'.bufs k) := by
  -- one lemma for each operation; only `swap` touches two buffers
  cases op with
  | swap i j =>
    cases hok
    exact .inl ⟨i, j, rfl, rfl⟩
  | append i _ | appendInt8 i _ | appendInt16 i _ | appendInt32 i _ | appendInt64 i _ =>
    right
    rw [step] at hok
    exact modify_advances hreg hok fun _ hb => append_advances (hreg i) hb
  | appendBuffer i j =>
    right
    rw [step] at hok
    by_cases hij : i = j
    · rw [if_pos hij] at hok
      exact modify_advances hreg hok fun _ hb => appendSelf_advances (hreg i) hb
    · rw [if_neg hij] at hok
      exact modify_advances hreg hok fun _ hb => appendBuffer_advances (hreg i) (hreg j).wf hb
  | addInFront i _ =>
    right
    rw [step] at hok
    exact modify_advances hreg hok fun _ hb => addInFront_advances (hreg i) hrange hb
  | addInFrontInt8 i _ | addInFrontInt16 i _ | addInFrontInt32 i _ | addInFrontInt64 i _ =>
    right
    rw [step] at hok
    refine modify_advances hreg hok fun _ hb => addInFront_advances (hreg i) ?_ hb
    have hfew : 8 ≤ vectorMaxSize := by decide
    exact Nat.le_trans (Nat.le_of_ble_eq_true rfl) hfew
  | retrieve i len =>
    right
    rw [step] at hok
    refine modify_advances hreg hok fun b hb => ?_
    cases hb
    exact retrieve_advances (hreg i) len
  | retrieveAll i =>
    right
    rw [step] at hok
    refine modify_advances hreg hok fun b hb => ?_
    cases hb
    exact retrieveAll_advances (hreg i)
  | retrieveUntil i _ =>
    right
    rw [step] at hok
    exact modify_advances hreg hok fun _ hb => retrieveUntil_advances (hreg i) hb
  | read i len =>
    right
    rw [step, read_eq (hreg i).wf, ok_bind] at hok
    cases hok
    exact update_advances hreg (retrieve_advances (hreg i) _)
  | hasWritten i _ =>
    right
    rw [step] at hok
    exact modify_advances hreg hok fun _ hb => hasWritten_advances (hreg i) hb
  | unwrite i _ =>
    right
    rw [step] at hok
    exact modify_advances hreg hok fun _ hb => unwrite_advances (hreg i) hb
  | ensureWritableBytes i _ =>
    right
    rw [step] at hok
    exact modify_advances hreg hok fun _ hb => ensureWritableBytes_advances (hreg i) hb
  | readFd i data =>
    right
    rw [step] at hok
    obtain ⟨⟨b, n⟩, hb, hok⟩ := bind_eq_ok hok
    cases hok
    refine update_advances hreg (readFd_advances (hreg i) ?_ hb)
    rintro bytes rfl
    exact hrange

/-- Every buffer of the pool is regular, unless a fault has ended the run. -/
def AllRegular (s : Except Fault (Pool ι)) : Prop :=
  ∀ p, s = .ok p → ∀ i, (p.bufs i).Regular

/-- The step is within its range. -/
def StepInRange (s : Except Fault (Pool ι)) (op : Op ι) : Prop := ∀ p, s = .ok p → p.InRange op

theorem stepRun_regular (order : ByteOrder) (s : Except Fault (Pool ι)) (op : Op ι)
    (h : AllRegular s) (hrange : StepInRange s op) : AllRegular (stepRun order s op) := by
  intro p' hok i
  obtain ⟨p, rfl, hstep⟩ := bind_eq_ok hok
  have hreg := h p rfl
  obtain ⟨j, k, -, hbufs⟩ | hadv := step_of_ok order hreg (hrange p rfl) hstep
  · rw [hbufs]
    exact hreg _
  · exact (hadv i).regular

omit [DecidableEq ι] in
theorem Constructed.allRegular {lens : ι → Nat} {p : Pool ι} (h : p.Constructed lens)
    (hlens : ∀ i, kBufferOffset ≤ lens i) : AllRegular (.ok p) := by
  intro q hq i
  cases hq
  refine ⟨h.wf i, ?_⟩
  rw [h.fresh i]
  exact fresh_locked (hlens i)

/-- The lock, as the source would write it, and the test of `retrieveAll`. -/
def CapacityLocked (s : Except Fault (Pool ι)) : Prop :=
  ∃ p, s = .ok p ∧ ∀ i, (p.bufs i).buffer.length = (p.bufs i).initCap + 8 ∧
    8 ≤ (p.bufs i).initCap ∧ ¬ (p.bufs i).buffer.length > mulSize (p.bufs i).initCap 2

/-- A step that makes a block shorter is a `swap` with a buffer whose block is shorter. -/
def CapacityKept (order : ByteOrder) (s : Except Fault (Pool ι)) (op : Op ι) : Prop :=
  ∀ p p', s = .ok p → p.step order op = .ok p' → ∀ i,
    (p'.bufs i).buffer.length < (p.bufs i).buffer.length →
      ∃ j, (op = .swap i j ∨ op = .swap j i) ∧
        (p.bufs j).buffer.length < (p.bufs i).buffer.length

theorem capacityKept_of_regular (order : ByteOrder) (s : Except Fault (Pool ι)) (op : Op ι)
    (h : AllRegular s) (hrange : StepInRange s op) : CapacityKept order s op := by
  rintro p p' rfl hok i hlt
  obtain ⟨j, k, rfl, hbufs⟩ | hadv := step_of_ok order (h p rfl) (hrange p rfl) hok
  · rw [hbufs] at hlt
    change (p.bufs (Equiv.swap j k i)).buffer.length < _ at hlt
    by_cases hj : i = j
    · subst hj
      rw [Equiv.swap_apply_left] at hlt
      exact ⟨k, .inl rfl, hlt⟩
    by_cases hk : i = k
    · subst hk
      rw [Equiv.swap_apply_right] at hlt
      exact ⟨j, .inr rfl, hlt⟩
    · rw [Equiv.swap_apply_of_ne_of_ne hj hk] at hlt
      exact absurd hlt (Nat.lt_irrefl _)
  · exact absurd (hadv i).length_le (Nat.not_le.mpr hlt)

/-! ## Runs within the preconditions -/

omit [DecidableEq ι] in
/-- The preconditions keep the sizes in range. -/
theorem inRange_of_pre {p : Pool ι} (hreg : ∀ i, (p.bufs i).Regular) {op : Op ι}
    (hpre : p.Pre op) : p.InRange op := by
  cases op with
  | append i buf | addInFront i buf =>
    have hfit : 2 * (p.bufs i).buffer.length + buf.length + 16 ≤ vectorMaxSize := hpre
    show buf.length ≤ vectorMaxSize
    omega
  | ensureWritableBytes i len =>
    have hfit : 2 * (p.bufs i).buffer.length + len + 16 ≤ vectorMaxSize := hpre
    have hlt := vectorMaxSize_lt
    show len < sizeMod
    omega
  | hasWritten i data =>
    have hle : data.length ≤ (p.bufs i).writableBytes := hpre
    have hll := (hreg i).wf.length_le
    rw [(hreg i).wf.writableBytes_eq] at hle
    show data.length ≤ vectorMaxSize
    omega
  | readFd i data =>
    cases data with
    | none => trivial
    | some data => exact hpre.2.1
  | _ => trivial

/-- The run has not faulted and every buffer is regular. -/
def Running (s : Except Fault (Pool ι)) : Prop :=
  ∃ p, s = .ok p ∧ ∀ i, (p.bufs i).Regular

omit [DecidableEq ι] in
theorem Running.allRegular {s : Except Fault (Pool ι)} (h : Running s) : AllRegular s := by
  rintro q hq
  obtain ⟨p, rfl, hreg⟩ := h
  cases hq
  exact hreg

omit [DecidableEq ι] in
theorem Running.inRange {s : Except Fault (Pool ι)} (h : Running s) {op : Op ι}
    (hpre : Allowed s op) : StepInRange s op :=
  fun p hp => inRange_of_pre (h.allRegular p hp) (hpre p hp)

omit [DecidableEq ι] in
theorem Running.capacityLocked {s : Except Fault (Pool ι)} (h : Running s) :
    CapacityLocked s := by
  obtain ⟨p, hs, hreg⟩ := h
  exact ⟨p, hs, fun i =>
    ⟨(hreg i).locked.length_eq, (hreg i).locked.cap_ge, (hreg i).not_resize⟩⟩

theorem stepRun_running (order : ByteOrder) (s : Except Fault (Pool ι)) (op : Op ι)
    (h : Running s) (hpre : Allowed s op) : Running (stepRun order s op) := by
  obtain ⟨p, rfl, hreg⟩ := h
  have hlocked : ∀ i, (p.bufs i).Locked := fun i => (hreg i).locked
  obtain ⟨p', hp', hfol⟩ :=
    step_spec order (fun i => (hreg i).wf) (hpre p rfl) (keepsFront_of_locked hlocked op)
  exact ⟨p', hp', fun i => ⟨hfol.wf i, hfol.locked hlocked i⟩⟩

/-- **Capacity**: for buffers constructed with length at least 8, along every run within the
preconditions, the block of each buffer is `initCap + 8` long and `initCap` is at least 8
after each operation, so that the test of `retrieveAll` fails; and no operation but a `swap`
with a shorter block makes a block shorter. -/
theorem capacity_locked (order : ByteOrder) {lens : ι → Nat} {p : Pool ι}
    (hp : p.Constructed lens) (hlens : ∀ i, kBufferOffset ≤ lens i) {ops : List (Op ι)}
    (hpre : Runs.Along (stepRun order) Allowed (.ok p) ops) :
    Runs.Always (stepRun order) CapacityLocked (.ok p) ops ∧
      Runs.Along (stepRun order) (CapacityKept order) (.ok p) ops := by
  have hrun : Running (.ok p) := ⟨p, rfl, hp.allRegular hlens p rfl⟩
  constructor
  · exact (Runs.always_of_along (stepRun_running order) hrun hpre).mono
      fun _ h => h.capacityLocked
  · refine Runs.along_of_invariant (stepRun_running order) (fun s op h hop => ?_) hrun hpre
    exact capacityKept_of_regular order s op h.allRegular (h.inRange hop)

/-- Two buffers of length 8 and 40: the first grows twice, is swapped and emptied. -/
theorem capacity_locked_swap :
    Runs.Always (stepRun ⟨id⟩) CapacityLocked
      (.ok ⟨fun i => fresh (if i then 40 else 8), []⟩ : Except Fault (Pool Bool))
      [.append false [1, 2, 3, 4, 5, 6, 7, 8, 9], .addInFront false (List.replicate 30 0),
        .swap false true, .retrieveAll true] := by
  have hp : Constructed (fun i : Bool => if i then 40 else 8)
      ⟨fun i => fresh (if i then 40 else 8), []⟩ := by
    intro i
    cases i with
    | false => exact ⟨by decide, new_eq (by decide)⟩
    | true => exact ⟨by decide, new_eq (by decide)⟩
  exact (capacity_locked ⟨id⟩ hp (by decide) (by decide)).1

end Pool

end MsgBuffer

end XiaoNet
