import Mathlib.Logic.Function.Basic
import Mathlib.Logic.Equiv.Basic
import Mathlib.Data.Fintype.Basic
import XiaoNet.Lib.Runs
import XiaoNet.Utils.MsgBufferSpec

/-!
# Runs of operations on a pool of buffers

`swap` and `append(const MsgBuffer &)` involve two buffers, so a run acts on a
pool, one buffer for each index. `Op` lists the public operations, `step` is the
code, `Pre` its asserted preconditions together with the bound that keeps the
sizes from wrapping.

- `step_spec`: one operation on well-formed buffers, as long as it does not
  empty a buffer that shrinks below its front offset.
- `bounds_iff_noShrink`: the indices stay in order along a run exactly when no
  step does that.
- `refines_deques`: for buffers constructed with length at least 8, the pool
  refines a family of byte lists.
-/

namespace XiaoNet

namespace MsgBuffer

/-- A public operation; `i` is the buffer it is called on. -/
inductive Op (ι : Type) where
  | append (i : ι) (buf : List Byte)
  | appendBuffer (i j : ι)
  | appendInt8 (i : ι) (v : UInt8)
  | appendInt16 (i : ι) (v : UInt16)
  | appendInt32 (i : ι) (v : UInt32)
  | appendInt64 (i : ι) (v : UInt64)
  | addInFront (i : ι) (buf : List Byte)
  | addInFrontInt8 (i : ι) (v : UInt8)
  | addInFrontInt16 (i : ι) (v : UInt16)
  | addInFrontInt32 (i : ι) (v : UInt32)
  | addInFrontInt64 (i : ι) (v : UInt64)
  | retrieve (i : ι) (len : Nat)
  | retrieveAll (i : ι)
  /-- `end` is `peek() + offset`. -/
  | retrieveUntil (i : ι) (offset : Nat)
  | read (i : ι) (len : Nat)
  | hasWritten (i : ι) (data : List Byte)
  | unwrite (i : ι) (offset : Nat)
  | ensureWritableBytes (i : ι) (len : Nat)
  | readFd (i : ι) (data : Option (List Byte))
  | swap (i j : ι)

/-- The buffers and the strings `read` has returned so far. -/
structure Pool (ι : Type) where
  bufs : ι → MsgBuffer
  returned : List (List Byte)

/-- What the pool is for: a byte list for each buffer. -/
structure Deques (ι : Type) where
  bytes : ι → List Byte
  returned : List (List Byte)

variable {ι : Type} [DecidableEq ι]

namespace Pool

/-- Run an operation on buffer `i`. -/
def modify (p : Pool ι) (i : ι) (f : MsgBuffer → Except Fault MsgBuffer) :
    Except Fault (Pool ι) := do
  let b ← f (p.bufs i)
  .ok { p with bufs := Function.update p.bufs i b }

/-- One operation on the pool. -/
def step (order : ByteOrder) (p : Pool ι) : Op ι → Except Fault (Pool ι)
  | .append i buf => p.modify i (·.append buf)
  | .appendBuffer i j =>
    if i = j then p.modify i (·.appendSelf)
    else p.modify i (·.appendBuffer (p.bufs j))
  | .appendInt8 i v => p.modify i (·.appendInt8 v)
  | .appendInt16 i v => p.modify i (·.appendInt16 v)
  | .appendInt32 i v => p.modify i (·.appendInt32 v)
  | .appendInt64 i v => p.modify i (·.appendInt64 order v)
  | .addInFront i buf => p.modify i (·.addInFront buf)
  | .addInFrontInt8 i v => p.modify i (·.addInFrontInt8 v)
  | .addInFrontInt16 i v => p.modify i (·.addInFrontInt16 v)
  | .addInFrontInt32 i v => p.modify i (·.addInFrontInt32 v)
  | .addInFrontInt64 i v => p.modify i (·.addInFrontInt64 order v)
  | .retrieve i len => p.modify i (fun b => .ok (b.retrieve len))
  | .retrieveAll i => p.modify i (fun b => .ok b.retrieveAll)
  | .retrieveUntil i offset => p.modify i (fun b => b.retrieveUntil (b.head + offset))
  | .read i len => do
    let (ret, b) ← (p.bufs i).read len
    .ok ⟨Function.update p.bufs i b, p.returned ++ [ret]⟩
  | .hasWritten i data => p.modify i (·.hasWritten data)
  | .unwrite i offset => p.modify i (·.unwrite offset)
  | .ensureWritableBytes i len => p.modify i (·.ensureWritableBytes len)
  | .readFd i data => do
    let (b, _) ← (p.bufs i).readFd data
    .ok { p with bufs := Function.update p.bufs i b }
  | .swap i j => .ok { p with bufs := fun k => p.bufs (Equiv.swap i j k) }

/-- A run stops at the first fault. -/
def stepRun (order : ByteOrder) (s : Except Fault (Pool ι)) (op : Op ι) :
    Except Fault (Pool ι) :=
  s >>= fun p => p.step order op

/-- The asserted preconditions, and sizes for which no `size_t` sum and no `int`
conversion wraps. -/
def Pre (p : Pool ι) : Op ι → Prop
  | .append i buf | .addInFront i buf => (p.bufs i).Fits buf.length
  | .appendBuffer i j => (p.bufs i).Fits (p.bufs j).readableBytes
  | .appendInt8 i _ | .addInFrontInt8 i _ => (p.bufs i).Fits 1
  | .appendInt16 i _ | .addInFrontInt16 i _ => (p.bufs i).Fits 2
  | .appendInt32 i _ | .addInFrontInt32 i _ => (p.bufs i).Fits 4
  | .appendInt64 i _ | .addInFrontInt64 i _ => (p.bufs i).Fits 8
  | .retrieve _ _ | .retrieveAll _ | .read _ _ | .swap _ _ => True
  | .retrieveUntil i offset => offset ≤ (p.bufs i).readableBytes
  | .hasWritten i data => data.length ≤ (p.bufs i).writableBytes
  | .unwrite i offset => offset ≤ (p.bufs i).readableBytes
  | .ensureWritableBytes i len => (p.bufs i).Fits len
  | .readFd _ none => True
  | .readFd i (some data) => (p.bufs i).writableBytes < 2 ^ 31 ∧
      data.length ≤ (p.bufs i).readvCapacity ∧ (p.bufs i).Fits data.length

/-- The operation does not empty a buffer whose block would shrink below the
`kBufferOffset` bytes the indices are reset to. -/
def KeepsFront (p : Pool ι) : Op ι → Prop
  | .retrieve i len | .retrieveUntil i len | .read i len =>
    (p.bufs i).readableBytes ≤ len → (p.bufs i).NoShrink
  | .retrieveAll i => (p.bufs i).NoShrink
  | _ => True

instance (p : Pool ι) : (op : Op ι) → Decidable (p.Pre op)
  | .append _ _ | .addInFront _ _ | .appendBuffer _ _ | .appendInt8 _ _
  | .addInFrontInt8 _ _ | .appendInt16 _ _ | .addInFrontInt16 _ _ | .appendInt32 _ _
  | .addInFrontInt32 _ _ | .appendInt64 _ _ | .addInFrontInt64 _ _
  | .ensureWritableBytes _ _ => inferInstanceAs (Decidable (Fits _ _))
  | .retrieve _ _ | .retrieveAll _ | .read _ _ | .swap _ _ | .readFd _ none =>
    inferInstanceAs (Decidable True)
  | .retrieveUntil _ _ | .hasWritten _ _ | .unwrite _ _ => inferInstanceAs (Decidable (_ ≤ _))
  | .readFd _ (some _) => inferInstanceAs (Decidable (_ ∧ _ ∧ Fits _ _))

instance (p : Pool ι) : (op : Op ι) → Decidable (p.KeepsFront op)
  | .retrieve _ _ | .retrieveUntil _ _ | .read _ _ =>
    inferInstanceAs (Decidable (_ → NoShrink _))
  | .retrieveAll _ => inferInstanceAs (Decidable (NoShrink _))
  | .append _ _ | .addInFront _ _ | .appendBuffer _ _ | .appendInt8 _ _
  | .addInFrontInt8 _ _ | .appendInt16 _ _ | .addInFrontInt16 _ _ | .appendInt32 _ _
  | .addInFrontInt32 _ _ | .appendInt64 _ _ | .addInFrontInt64 _ _
  | .ensureWritableBytes _ _ | .readFd _ _ | .hasWritten _ _ | .unwrite _ _
  | .swap _ _ => inferInstanceAs (Decidable True)

/-- The pool as byte lists. -/
def view (p : Pool ι) : Deques ι := ⟨fun i => (p.bufs i).contents, p.returned⟩

end Pool

namespace Deques

def set (d : Deques ι) (i : ι) (cs : List Byte) : Deques ι :=
  { d with bytes := Function.update d.bytes i cs }

/-- What each operation is for. -/
def step (order : ByteOrder) (d : Deques ι) : Op ι → Deques ι
  | .append i buf => d.set i (d.bytes i ++ buf)
  | .appendBuffer i j => d.set i (d.bytes i ++ d.bytes j)
  | .appendInt8 i v => d.set i (d.bytes i ++ [v])
  | .appendInt16 i v => d.set i (d.bytes i ++ memory16 (htons v))
  | .appendInt32 i v => d.set i (d.bytes i ++ memory32 (htonl v))
  | .appendInt64 i v => d.set i (d.bytes i ++ memory64 (order.hton64 v))
  | .addInFront i buf => d.set i (buf ++ d.bytes i)
  | .addInFrontInt8 i v => d.set i ([v] ++ d.bytes i)
  | .addInFrontInt16 i v => d.set i (memory16 (htons v) ++ d.bytes i)
  | .addInFrontInt32 i v => d.set i (memory32 (htonl v) ++ d.bytes i)
  | .addInFrontInt64 i v => d.set i (memory64 (order.hton64 v) ++ d.bytes i)
  | .retrieve i len | .retrieveUntil i len => d.set i ((d.bytes i).drop len)
  | .retrieveAll i => d.set i []
  | .read i len =>
    { d.set i ((d.bytes i).drop len) with
      returned := d.returned ++ [(d.bytes i).take len] }
  | .hasWritten i data => d.set i (d.bytes i ++ data)
  | .unwrite i offset => d.set i ((d.bytes i).take ((d.bytes i).length - offset))
  | .ensureWritableBytes _ _ => d
  | .readFd i data => d.set i (d.bytes i ++ data.getD [])
  | .swap i j => { d with bytes := fun k => d.bytes (Equiv.swap i j k) }

end Deques

namespace Pool

/-! ## One step -/

/-- `p'` is a well-formed successor of `p` whose byte lists are `d`. -/
structure Follows (p p' : Pool ι) (d : Deques ι) : Prop where
  wf : ∀ i, (p'.bufs i).WellFormed
  view : p'.view = d
  locked : (∀ i, (p.bufs i).Locked) → ∀ i, (p'.bufs i).Locked

/-- Replacing one buffer by a successor of it. -/
theorem follows_update {p : Pool ι} (hwf : ∀ i, (p.bufs i).WellFormed) {i : ι}
    {b : MsgBuffer} {cs : List Byte} (hb : Becomes (p.bufs i) b cs) (ret : List (List Byte)) :
    Follows p ⟨Function.update p.bufs i b, ret⟩
      ⟨Function.update p.view.bytes i cs, ret⟩ := by
  refine ⟨fun k => ?_, ?_, fun hl k => ?_⟩
  · show (Function.update p.bufs i b k).WellFormed
    by_cases hk : k = i
    · subst hk
      rw [Function.update_self]
      exact hb.wf
    · rw [Function.update_of_ne hk]
      exact hwf k
  · -- only buffer `i` reads differently
    have hbytes : (fun k => (Function.update p.bufs i b k).contents)
        = Function.update p.view.bytes i cs := by
      funext k
      by_cases hk : k = i
      · subst hk
        rw [Function.update_self, Function.update_self, hb.contents]
      · rw [Function.update_of_ne hk, Function.update_of_ne hk]
        rfl
    rw [Pool.view, hbytes]
  · show (Function.update p.bufs i b k).Locked
    by_cases hk : k = i
    · subst hk
      rw [Function.update_self]
      exact hb.locked (hl k)
    · rw [Function.update_of_ne hk]
      exact hl k

theorem modify_spec {p : Pool ι} (hwf : ∀ i, (p.bufs i).WellFormed) {i : ι}
    {f : MsgBuffer → Except Fault MsgBuffer} {cs : List Byte}
    (hf : ∃ b, f (p.bufs i) = .ok b ∧ Becomes (p.bufs i) b cs) :
    ∃ p', p.modify i f = .ok p' ∧ Follows p p' (p.view.set i cs) := by
  obtain ⟨b, hfb, hb⟩ := hf
  rw [modify, hfb, ok_bind]
  exact ⟨_, rfl, follows_update hwf hb p.returned⟩

/-- **One operation**: on well-formed buffers, within its preconditions and
without the harmful shrink, it succeeds and acts on the byte lists as intended. -/
theorem step_spec (order : ByteOrder) {p : Pool ι} (hwf : ∀ i, (p.bufs i).WellFormed)
    {op : Op ι} (hpre : p.Pre op) (hfront : p.KeepsFront op) :
    ∃ p', p.step order op = .ok p' ∧ Follows p p' (p.view.step order op) := by
  -- each operation does to its buffer what it does to the byte queue
  cases op with
  | append i _ | appendInt8 i _ | appendInt16 i _ | appendInt32 i _ | appendInt64 i _ =>
    simp only [step, Deques.step]
    refine modify_spec hwf ?_
    exact append_spec (hwf i) _ hpre
  | addInFront i _ | addInFrontInt8 i _ | addInFrontInt16 i _ | addInFrontInt32 i _
  | addInFrontInt64 i _ =>
    simp only [step, Deques.step]
    refine modify_spec hwf ?_
    exact addInFront_spec (hwf i) _ hpre
  | appendBuffer i j =>
    by_cases hij : i = j
    · subst hij
      rw [step, if_pos rfl]
      rw [Deques.step]
      refine modify_spec hwf ?_
      exact appendSelf_spec (hwf i) hpre
    · rw [step, if_neg hij]
      rw [Deques.step]
      refine modify_spec hwf ?_
      exact appendBuffer_spec (hwf i) (hwf j) hpre
  | retrieve i len =>
    rw [step, Deques.step]
    refine modify_spec hwf ?_
    exact ⟨_, rfl, retrieve_spec (hwf i) hfront⟩
  | retrieveAll i =>
    rw [step, Deques.step]
    refine modify_spec hwf ?_
    exact ⟨_, rfl, retrieveAll_spec (hwf i) hfront⟩
  | retrieveUntil i offset =>
    have hle : offset ≤ (p.bufs i).readableBytes := hpre
    rw [(hwf i).readableBytes_eq] at hle
    have hht := (hwf i).head_le
    have heq := retrieveUntil_eq (hwf i) ((p.bufs i).head + offset) (by omega)
    rw [Nat.add_sub_cancel_left] at heq
    rw [step, Deques.step]
    refine modify_spec hwf ?_
    exact ⟨_, heq, retrieve_spec (hwf i) hfront⟩
  | read i len =>
    -- it gives up no more than is readable
    have hdrop : (p.bufs i).contents.drop (min len (p.bufs i).readableBytes)
        = (p.bufs i).contents.drop len := by
      rcases Nat.le_total len (p.bufs i).readableBytes with hle | hge
      · rw [Nat.min_eq_left hle]
      · have hlen := (hwf i).length_contents_eq
        rw [List.drop_eq_nil_of_le (by omega), List.drop_eq_nil_of_le (by omega)]
    have hb := retrieve_spec (hwf i) (n := min len (p.bufs i).readableBytes)
      (fun hle => hfront (by omega))
    rw [hdrop] at hb
    rw [step, read_eq (hwf i), ok_bind]
    exact ⟨_, rfl, follows_update hwf hb _⟩
  | hasWritten i data =>
    rw [step, Deques.step]
    refine modify_spec hwf ?_
    exact hasWritten_spec (hwf i) hpre
  | unwrite i offset =>
    rw [step, Deques.step]
    refine modify_spec hwf ?_
    exact unwrite_spec (hwf i) hpre
  | ensureWritableBytes i len =>
    obtain ⟨b, hb, hbec, -⟩ := ensureWritableBytes_spec (hwf i) hpre
    have hmod : ∃ p', p.modify i (·.ensureWritableBytes len) = .ok p' ∧
        Follows p p' (p.view.set i (p.bufs i).contents) := by
      refine modify_spec hwf ?_
      exact ⟨b, hb, hbec⟩
    have hsame : p.view.set i (p.bufs i).contents = p.view := by
      rw [Deques.set, show (p.bufs i).contents = p.view.bytes i from rfl,
        Function.update_eq_self]
    rw [hsame] at hmod
    exact hmod
  | readFd i data =>
    cases data with
    | none =>
      have hb := Becomes.refl (hwf i)
      have hfol := follows_update hwf hb p.returned
      rw [step, readFd, ok_bind]
      refine ⟨_, rfl, ?_⟩
      rw [Deques.step, Option.getD_none, List.append_nil]
      exact hfol
    | some data =>
      obtain ⟨hw, hcap, hfit⟩ := hpre
      obtain ⟨b, hb, hbec⟩ := readFd_spec (hwf i) hw hcap hfit
      rw [step, hb, ok_bind]
      exact ⟨_, rfl, follows_update hwf hbec p.returned⟩
  | swap i j =>
    exact ⟨_, rfl, fun k => hwf _, rfl, fun hl k => hl _⟩

/-- The indices of every buffer are in order. -/
def Bounded (p : Pool ι) : Prop :=
  ∀ i, (p.bufs i).head ≤ (p.bufs i).tail ∧ (p.bufs i).tail ≤ (p.bufs i).buffer.length

/-- The run has not faulted and the indices are in order. -/
def Safe (s : Except Fault (Pool ι)) : Prop := ∃ p, s = .ok p ∧ p.Bounded

omit [DecidableEq ι] in
theorem safe_ok {p : Pool ι} : Safe (.ok p) ↔ p.Bounded := by
  constructor
  · rintro ⟨_, hq, h⟩
    cases hq
    exact h
  · intro h
    exact ⟨p, rfl, h⟩

instance [Fintype ι] : DecidablePred (Safe (ι := ι))
  | .error _ => .isFalse fun ⟨_, hq, _⟩ => nomatch hq
  | .ok p => decidable_of_iff (∀ i, (p.bufs i).head ≤ (p.bufs i).tail ∧ _) safe_ok.symm

/-- A fault-free run with well-formed buffers. -/
def Sound (s : Except Fault (Pool ι)) : Prop :=
  ∃ p, s = .ok p ∧ ∀ i, (p.bufs i).WellFormed

omit [DecidableEq ι] in
theorem Sound.safe {s : Except Fault (Pool ι)} (h : Sound s) : Safe s := by
  obtain ⟨p, hs, hwf⟩ := h
  exact ⟨p, hs, fun i => ⟨(hwf i).head_le, (hwf i).tail_le⟩⟩

/-- The step is within its preconditions. -/
def Allowed (s : Except Fault (Pool ι)) (op : Op ι) : Prop := ∀ p, s = .ok p → p.Pre op

/-- The step does not make a block shrink below its front offset. -/
def NoHarmfulShrink (s : Except Fault (Pool ι)) (op : Op ι) : Prop :=
  ∀ p, s = .ok p → p.KeepsFront op

omit [DecidableEq ι] in
theorem forall_ok {p : Pool ι} {Q : Pool ι → Prop} :
    (∀ q, (Except.ok p : Except Fault (Pool ι)) = .ok q → Q q) ↔ Q p := by
  constructor
  · intro h
    exact h p rfl
  · intro h q hq
    cases hq
    exact h

instance (s : Except Fault (Pool ι)) (op : Op ι) : Decidable (Allowed s op) :=
  match s with
  | .error _ => .isTrue fun _ hq => nomatch hq
  | .ok p => decidable_of_iff (p.Pre op) (forall_ok (Q := fun q => q.Pre op)).symm

instance (s : Except Fault (Pool ι)) (op : Op ι) : Decidable (NoHarmfulShrink s op) :=
  match s with
  | .error _ => .isTrue fun _ hq => nomatch hq
  | .ok p => decidable_of_iff (p.KeepsFront op) (forall_ok (Q := fun q => q.KeepsFront op)).symm

theorem stepRun_sound (order : ByteOrder) (s : Except Fault (Pool ι)) (op : Op ι)
    (h : Sound s) (hpre : Allowed s op) (hfront : NoHarmfulShrink s op) :
    Sound (stepRun order s op) := by
  obtain ⟨p, rfl, hwf⟩ := h
  obtain ⟨p', hp', hfol⟩ := step_spec order hwf (hpre p rfl) (hfront p rfl)
  exact ⟨p', hp', hfol.wf⟩

/-- A buffer whose block ends before its `tail` is not within its bounds. -/
theorem not_safe_update {p : Pool ι} {i : ι} {b : MsgBuffer}
    (hb : b.buffer.length < b.tail) (ret : List (List Byte)) :
    ¬ Safe (.ok ⟨Function.update p.bufs i b, ret⟩ : Except Fault (Pool ι)) := by
  rintro ⟨q, hq, hbound⟩
  cases hq
  have htail : (Function.update p.bufs i b i).tail ≤ (Function.update p.bufs i b i).buffer.length :=
    (hbound i).2
  rw [Function.update_self] at htail
  omega

/-- A step that empties a buffer and shrinks its block below the front offset
leaves the indices behind the block. -/
theorem stepRun_broken (order : ByteOrder) (s : Except Fault (Pool ι)) (op : Op ι)
    (h : Sound s) (hpre : Allowed s op) (hfront : ¬ NoHarmfulShrink s op) :
    ¬ Safe (stepRun order s op) := by
  obtain ⟨p, rfl, hwf⟩ := h
  have hpre := hpre p rfl
  have hbad : ¬ p.KeepsFront op := fun hk => hfront fun q hq => by
    cases hq
    exact hk
  -- only the operations that can empty a buffer shrink its block
  cases op with
  | retrieve i len =>
    rw [KeepsFront, Classical.not_imp] at hbad
    exact not_safe_update (retrieve_broken (hwf i) hbad.1 hbad.2) _
  | retrieveAll i => exact not_safe_update (retrieveAll_broken (hwf i) hbad) _
  | retrieveUntil i offset =>
    rw [KeepsFront, Classical.not_imp] at hbad
    have hle : offset ≤ (p.bufs i).readableBytes := hpre
    rw [(hwf i).readableBytes_eq] at hle
    have hht := (hwf i).head_le
    have hstep : stepRun order (.ok p) (.retrieveUntil i offset)
        = .ok { p with bufs := Function.update p.bufs i ((p.bufs i).retrieve offset) } := by
      rw [stepRun, ok_bind, step, modify, retrieveUntil_eq (hwf i) _ (by omega),
        Nat.add_sub_cancel_left, ok_bind]
    rw [hstep]
    exact not_safe_update (retrieve_broken (hwf i) hbad.1 hbad.2) _
  | read i len =>
    rw [KeepsFront, Classical.not_imp] at hbad
    rw [stepRun, ok_bind, step, read_eq (hwf i), ok_bind]
    exact not_safe_update (retrieve_broken (hwf i) (by omega) hbad.2) _
  | _ => exact absurd trivial hbad

/-! ## Runs -/

/-- A pool of newly constructed buffers, the `i`-th with length `lens i`. -/
def Constructed (lens : ι → Nat) (p : Pool ι) : Prop :=
  ∀ i, lens i + kBufferOffset ≤ vectorMaxSize ∧ MsgBuffer.new (lens i) = .ok (p.bufs i)

omit [DecidableEq ι] in
theorem Constructed.fresh {lens : ι → Nat} {p : Pool ι} (h : p.Constructed lens) (i : ι) :
    p.bufs i = MsgBuffer.fresh (lens i) := by
  have hnew := (h i).2
  rw [new_eq (h i).1] at hnew
  exact (Except.ok.inj hnew).symm

omit [DecidableEq ι] in
theorem Constructed.wf {lens : ι → Nat} {p : Pool ι} (h : p.Constructed lens) (i : ι) :
    (p.bufs i).WellFormed := by
  rw [h.fresh i]
  exact fresh_wellFormed (h i).1

/-- New buffers, all of length `len`. -/
def freshPool (ι : Type) (len : Nat) : Pool ι := ⟨fun _ => fresh len, []⟩

omit [DecidableEq ι] in
theorem freshPool_constructed {len : Nat} (h : len + kBufferOffset ≤ vectorMaxSize) :
    (freshPool ι len).Constructed (fun _ => len) :=
  fun _ => ⟨h, new_eq h⟩

/-- The pool stands for the byte lists `d` and no block of it will ever shrink. -/
def Represents (s : Except Fault (Pool ι)) (d : Deques ι) : Prop :=
  ∃ p, s = .ok p ∧ (∀ i, (p.bufs i).WellFormed ∧ (p.bufs i).Locked) ∧ p.view = d

omit [DecidableEq ι] in
/-- While capacity and `initCap` are locked together, no operation can shrink a block. -/
theorem keepsFront_of_locked {p : Pool ι} (h : ∀ i, (p.bufs i).Locked) (op : Op ι) :
    p.KeepsFront op := by
  cases op with
  | retrieve i _ | retrieveUntil i _ | read i _ => exact fun _ => (h i).noShrink
  | retrieveAll i => exact (h i).noShrink
  | _ => trivial

theorem represents_step (order : ByteOrder) (s : Except Fault (Pool ι)) (d : Deques ι)
    (op : Op ι) (h : Represents s d) (hpre : Allowed s op) :
    Represents (stepRun order s op) (d.step order op) := by
  obtain ⟨p, rfl, hok, rfl⟩ := h
  have hlocked : ∀ i, (p.bufs i).Locked := fun i => (hok i).2
  obtain ⟨p', hp', hfol⟩ :=
    step_spec order (fun i => (hok i).1) (hpre p rfl) (keepsFront_of_locked hlocked op)
  exact ⟨p', hp', fun i => ⟨hfol.wf i, hfol.locked hlocked i⟩, hfol.view⟩

/-- `ensureWritableBytes(n)` gives room for `n` bytes. -/
theorem ensureWritableBytes_room (order : ByteOrder) {p q : Pool ι} {i : ι} {n : Nat}
    (hwf : (p.bufs i).WellFormed) (hfit : (p.bufs i).Fits n)
    (hq : p.step order (.ensureWritableBytes i n) = .ok q) :
    n ≤ (q.bufs i).writableBytes := by
  obtain ⟨b, hb, hbec, hroom⟩ := ensureWritableBytes_spec hwf hfit
  rw [step, modify, hb, ok_bind] at hq
  cases hq
  show n ≤ (Function.update p.bufs i b i).writableBytes
  rw [Function.update_self, hbec.wf.writableBytes_eq]
  exact hroom

omit [DecidableEq ι] in
theorem Constructed.represents {lens : ι → Nat} {p : Pool ι} (h : p.Constructed lens)
    (hlens : ∀ i, kBufferOffset ≤ lens i) :
    Represents (.ok p) ⟨fun _ => [], p.returned⟩ := by
  refine ⟨p, rfl, fun i => ⟨h.wf i, ?_⟩, ?_⟩
  · rw [h.fresh i]
    exact fresh_locked (hlens i)
  · rw [view, Deques.mk.injEq]
    refine ⟨funext fun i => ?_, rfl⟩
    rw [h.fresh i, contents_fresh]

/-- **Refinement**: buffers constructed with length at least 8 act as byte
lists along every run within the preconditions, `read` returns the bytes taken
off the front, and after `ensureWritableBytes(n)` there is room for `n` bytes. -/
theorem refines_deques (order : ByteOrder) {lens : ι → Nat} {p : Pool ι}
    (hp : p.Constructed lens) (hlens : ∀ i, kBufferOffset ≤ lens i) {ops : List (Op ι)}
    (hpre : Runs.Along (stepRun order) Allowed (.ok p) ops) :
    ∃ q, Runs.run (stepRun order) (.ok p) ops = .ok q ∧
      q.view = Runs.run (Deques.step order) ⟨fun _ => [], p.returned⟩ ops ∧
      ∀ ops' i n, ops = ops' ++ [.ensureWritableBytes i n] →
        n ≤ (q.bufs i).writableBytes := by
  obtain ⟨q, hq, -, hview⟩ :=
    Runs.simulation_of_along (represents_step order) (hp.represents hlens) hpre
  refine ⟨q, hq, hview, ?_⟩
  rintro ops' i n rfl
  rw [Runs.along_append] at hpre
  obtain ⟨r, hr, hok, -⟩ :=
    Runs.simulation_of_along (represents_step order) (hp.represents hlens) hpre.1
  have hlast := hpre.2.1
  rw [hr] at hlast
  rw [Runs.run_append, hr, Runs.run_cons, Runs.run_nil, stepRun, ok_bind] at hq
  exact ensureWritableBytes_room order (hok i).1 (hlast r rfl) hq

/-- Two buffers of length 8: nine bytes, five in front, three read, swapped. -/
theorem refines_deques_swap :
    ∃ q, Runs.run (stepRun ⟨id⟩) (.ok (freshPool Bool 8))
        [.append false [1, 2, 3, 4, 5, 6, 7, 8, 9], .addInFront false [9, 9, 9, 9, 9],
          .read false 3, .swap false true] = .ok q ∧
      (q.bufs true).contents = [9, 9, 1, 2, 3, 4, 5, 6, 7, 8, 9] ∧
      q.returned = [[9, 9, 9]] := by
  have hpre : Runs.Along (stepRun ⟨id⟩) Allowed (.ok (freshPool Bool 8))
      [.append false [1, 2, 3, 4, 5, 6, 7, 8, 9], .addInFront false [9, 9, 9, 9, 9],
        .read false 3, .swap false true] := by
    decide
  obtain ⟨q, hq, hview, -⟩ :=
    refines_deques ⟨id⟩ (freshPool_constructed (by decide)) (fun _ => by decide) hpre
  exact ⟨q, hq, congrFun (congrArg Deques.bytes hview) true, congrArg Deques.returned hview⟩

end Pool

end MsgBuffer

end XiaoNet
