import Mathlib.Tactic.IntervalCases
import XiaoNet.Utils.MsgBufferSpec

/-!
# Integers through a `MsgBuffer`

`appendInt8` … `appendInt64` and `addInFrontInt8` … `addInFrontInt64` put an integer into the
buffer in network order; `peekInt8` … `peekInt64` look at the one in front and `readInt8` …
`readInt64` take it off. `peekInt16` has no `return`: it loads the two bytes into a local
variable and falls off its end, so the value its caller gets is not determined by the code. It is
a parameter here.

- `Holds`: a buffer with its bytes, in a block not much longer than they are. Appending and
  prepending keep it (`Adder`), item by item and for a whole list (`Adder.run`).
- `readItems_eq`: a list without 16-bit items is read back.
- `ints_roundTrip_iff`: a list is read back if and only if it has no 16-bit item.
-/

namespace XiaoNet

/-! ## Objects in memory -/

/-- The number the bytes of an object stand for on a little-endian host. -/
def ofMemory : List Byte → Nat
  | [] => 0
  | byte :: bytes => byte.toNat + 256 * ofMemory bytes

def object8 (bytes : List Byte) : UInt8 := .ofNat (ofMemory bytes)

def object32 (bytes : List Byte) : UInt32 := .ofNat (ofMemory bytes)

def object64 (bytes : List Byte) : UInt64 := .ofNat (ofMemory bytes)

theorem object8_singleton (v : UInt8) : object8 [v] = v := UInt8.ofNat_toNat

theorem object32_memory32 (v : UInt32) : object32 (memory32 v) = v := by
  have hlt := v.toNat_lt
  have hsum : ofMemory (memory32 v) = v.toNat := by
    simp only [memory32, ofMemory, UInt32.toNat_toUInt8, UInt32.toNat_shiftRight,
      Nat.shiftRight_eq_div_pow, UInt32.toNat_ofNat, Nat.reducePow, Nat.reduceMod]
    omega
  rw [object32, hsum, UInt32.ofNat_toNat]

theorem object64_memory64 (v : UInt64) : object64 (memory64 v) = v := by
  have hlt := v.toNat_lt
  have hsum : ofMemory (memory64 v) = v.toNat := by
    simp only [memory64, ofMemory, UInt64.toNat_toUInt8, UInt64.toNat_shiftRight,
      Nat.shiftRight_eq_div_pow, UInt64.toNat_ofNat, Nat.reducePow, Nat.reduceMod]
    omega
  rw [object64, hsum, UInt64.ofNat_toNat]

/-- `ntohl`: the same exchange of bytes as `htonl`. -/
def ntohl (v : UInt32) : UInt32 := htonl v

theorem ntohl_htonl (v : UInt32) : ntohl (htonl v) = v := by
  apply UInt32.toBitVec_inj.mp
  unfold ntohl htonl
  -- bit by bit
  ext i hi
  interval_cases i <;> simp

namespace MsgBuffer

/-- `hton64` and `ntoh64` come from the logging library the project links. -/
structure NetworkOrder extends ByteOrder where
  ntoh64 : UInt64 → UInt64

/-! ## Reading -/

/-- `MsgBuffer::peekInt8()`. -/
def peekInt8 (b : MsgBuffer) : Except Fault UInt8 :=
  if b.readableBytes ≥ 1 then do
    let bytes ← load b.buffer b.head 1
    .ok (object8 bytes)
  else .error .assertion

/-- `MsgBuffer::peekInt16()`: `unset` is what the caller finds where the value returned should
be. -/
def peekInt16 (unset : MsgBuffer → UInt16) (b : MsgBuffer) : Except Fault UInt16 :=
  if b.readableBytes ≥ 2 then do
    let _rs ← load b.buffer b.head 2
    .ok (unset b)
  else .error .assertion

/-- `MsgBuffer::peekInt32()`. -/
def peekInt32 (b : MsgBuffer) : Except Fault UInt32 :=
  if b.readableBytes ≥ 4 then do
    let bytes ← load b.buffer b.head 4
    .ok (ntohl (object32 bytes))
  else .error .assertion

/-- `MsgBuffer::peekInt64()`. -/
def peekInt64 (order : NetworkOrder) (b : MsgBuffer) : Except Fault UInt64 :=
  if b.readableBytes ≥ 8 then do
    let bytes ← load b.buffer b.head 8
    .ok (order.ntoh64 (object64 bytes))
  else .error .assertion

def readInt8 (b : MsgBuffer) : Except Fault (UInt8 × MsgBuffer) := do
  let ret ← b.peekInt8
  .ok (ret, b.retrieve 1)

def readInt16 (unset : MsgBuffer → UInt16) (b : MsgBuffer) :
    Except Fault (UInt16 × MsgBuffer) := do
  let ret ← b.peekInt16 unset
  .ok (ret, b.retrieve 2)

def readInt32 (b : MsgBuffer) : Except Fault (UInt32 × MsgBuffer) := do
  let ret ← b.peekInt32
  .ok (ret, b.retrieve 4)

def readInt64 (order : NetworkOrder) (b : MsgBuffer) : Except Fault (UInt64 × MsgBuffer) := do
  let ret ← b.peekInt64 order
  .ok (ret, b.retrieve 8)

/-! ## Lists of integers -/

inductive Width where
  | int8
  | int16
  | int32
  | int64
  deriving DecidableEq, Repr

/-- An integer of one of the four widths. -/
inductive Item where
  | int8 (v : UInt8)
  | int16 (v : UInt16)
  | int32 (v : UInt32)
  | int64 (v : UInt64)
  deriving DecidableEq, Repr

namespace Item

def width : Item → Width
  | .int8 _ => .int8
  | .int16 _ => .int16
  | .int32 _ => .int32
  | .int64 _ => .int64

/-- The number of bytes of an item. -/
def size : Item → Nat
  | .int8 _ => 1
  | .int16 _ => 2
  | .int32 _ => 4
  | .int64 _ => 8

/-- The bytes of an item in the buffer. -/
def bytes (order : NetworkOrder) : Item → List Byte
  | .int8 v => [v]
  | .int16 v => memory16 (htons v)
  | .int32 v => memory32 (htonl v)
  | .int64 v => memory64 (order.hton64 v)

theorem length_bytes (order : NetworkOrder) (item : Item) :
    (item.bytes order).length = item.size := by
  cases item <;> rfl

theorem size_le (item : Item) : item.size ≤ 8 := by
  cases item <;> simp only [size, Nat.reduceLeDiff]

theorem size_pos (item : Item) : 0 < item.size := by
  cases item <;> exact Nat.succ_pos _

end Item

def appendItem (order : NetworkOrder) (b : MsgBuffer) : Item → Except Fault MsgBuffer
  | .int8 v => b.appendInt8 v
  | .int16 s => b.appendInt16 s
  | .int32 i => b.appendInt32 i
  | .int64 l => b.appendInt64 order.toByteOrder l

def addInFrontItem (order : NetworkOrder) (b : MsgBuffer) : Item → Except Fault MsgBuffer
  | .int8 v => b.addInFrontInt8 v
  | .int16 s => b.addInFrontInt16 s
  | .int32 i => b.addInFrontInt32 i
  | .int64 l => b.addInFrontInt64 order.toByteOrder l

def readItem (order : NetworkOrder) (unset : MsgBuffer → UInt16) (b : MsgBuffer) :
    Width → Except Fault (Item × MsgBuffer)
  | .int8 => do
    let (v, b) ← b.readInt8
    .ok (.int8 v, b)
  | .int16 => do
    let (s, b) ← b.readInt16 unset
    .ok (.int16 s, b)
  | .int32 => do
    let (i, b) ← b.readInt32
    .ok (.int32 i, b)
  | .int64 => do
    let (l, b) ← b.readInt64 order
    .ok (.int64 l, b)

/-- The items appended one after the other. -/
def appendItems (order : NetworkOrder) (b : MsgBuffer) (items : List Item) :
    Except Fault MsgBuffer :=
  items.foldlM (appendItem order) b

/-- The items put in front one after the other. -/
def addInFrontItems (order : NetworkOrder) (b : MsgBuffer) (items : List Item) :
    Except Fault MsgBuffer :=
  items.foldlM (addInFrontItem order) b

/-- Integers of the given widths, read one after the other. -/
def readItems (order : NetworkOrder) (unset : MsgBuffer → UInt16) :
    MsgBuffer → List Width → Except Fault (List Item × MsgBuffer)
  | b, [] => .ok ([], b)
  | b, width :: widths => do
    let (item, b) ← readItem order unset b width
    let (items, b) ← readItems order unset b widths
    .ok (item :: items, b)

/-- Reading the widths of `items` gives `items` and leaves the buffer empty, whatever a value
that is not returned turns out to be. -/
def ReadsBack (order : NetworkOrder) (b : MsgBuffer) (items : List Item) : Prop :=
  ∀ unset, ∃ b', readItems order unset b (items.map Item.width) = .ok (items, b') ∧
    b'.readableBytes = 0

/-- The sizes computed while the items are added stay within what a vector can have. -/
def Storable (len : Nat) (items : List Item) : Prop :=
  2 * len + 4 * (items.map Item.size).sum + 72 ≤ vectorMaxSize

instance (len : Nat) (items : List Item) : Decidable (Storable len items) :=
  inferInstanceAs (Decidable (_ ≤ _))

variable {order : NetworkOrder} {b b' : MsgBuffer} {bytes : List Byte} {len : Nat}

/-! ## Adding items -/

/-- A buffer with its bytes, in a block not much longer than they are. -/
structure Holds (len : Nat) (b : MsgBuffer) (bytes : List Byte) : Prop where
  wf : b.WellFormed
  locked : b.Locked
  contents : b.contents = bytes
  length_le : b.buffer.length ≤ len + 2 * bytes.length + 24

theorem holds_fresh (hlen : 8 ≤ len) (hmax : len + kBufferOffset ≤ vectorMaxSize) :
    Holds len (fresh len) [] where
  wf := fresh_wellFormed hmax
  locked := fresh_locked hlen
  contents := contents_fresh len
  length_le := by
    rw [length_fresh]
    exact Nat.add_le_add_left (by decide) len

/-- `add` puts the bytes of an item where `place` says. -/
structure Adder (order : NetworkOrder) (add : MsgBuffer → Item → Except Fault MsgBuffer)
    (place : List Byte → List Byte → List Byte) : Prop where
  length_place : ∀ bytes new, (place bytes new).length = bytes.length + new.length
  holds : ∀ {len b bytes item b'}, Holds len b bytes → add b item = .ok b' →
    Holds len b' (place bytes (item.bytes order))
  returns : ∀ {len b bytes item}, Holds len b bytes →
    2 * len + 4 * (bytes.length + item.size) + 72 ≤ vectorMaxSize → ∃ b', add b item = .ok b'

theorem appendItem_eq (b : MsgBuffer) (item : Item) :
    appendItem order b item = b.append (item.bytes order) := by
  cases item <;> rfl

theorem addInFrontItem_eq (b : MsgBuffer) (item : Item) :
    addInFrontItem order b item = b.addInFront (item.bytes order) := by
  cases item <;> rfl

theorem Item.length_bytes_le (order : NetworkOrder) (item : Item) :
    (item.bytes order).length + kBufferOffset ≤ vectorMaxSize := by
  have hle := item.size_le
  have hmax : 8 + kBufferOffset ≤ vectorMaxSize := by decide
  rw [item.length_bytes]
  omega

theorem Holds.fits (h : Holds len b bytes) {item : Item}
    (hmax : 2 * len + 4 * (bytes.length + item.size) + 72 ≤ vectorMaxSize) :
    b.Fits (item.bytes order).length := by
  have hle := h.length_le
  rw [Fits, item.length_bytes]
  omega

theorem appendItem_adder : Adder order (appendItem order) (fun bytes new => bytes ++ new) where
  length_place bytes new := List.length_append
  holds := by
    intro len b bytes item b' h hok
    rw [appendItem_eq] at hok
    obtain ⟨hbec, hsize⟩ := append_of_ok h.wf (item.length_bytes_le order) hok
    rw [h.contents] at hbec hsize
    refine ⟨hbec.wf, hbec.locked h.locked, hbec.contents, ?_⟩
    have hle := h.length_le
    rw [List.length_append] at hsize ⊢
    omega
  returns := by
    intro len b bytes item h hmax
    obtain ⟨b', hb', -⟩ := append_spec h.wf (item.bytes order) (h.fits hmax)
    exact ⟨b', (appendItem_eq b item).trans hb'⟩

theorem addInFrontItem_adder :
    Adder order (addInFrontItem order) (fun bytes new => new ++ bytes) where
  length_place bytes new := by rw [List.length_append, Nat.add_comm]
  holds := by
    intro len b bytes item b' h hok
    rw [addInFrontItem_eq] at hok
    have hitem := item.length_bytes_le order
    obtain ⟨hbec, hsize⟩ := addInFront_of_ok h.wf (Nat.le_of_add_right_le hitem) hok
    have hfront := h.wf.frontLen_le (item.bytes order)
    rw [h.contents] at hbec hfront
    refine ⟨hbec.wf, hbec.locked h.locked, hbec.contents, ?_⟩
    have hle := h.length_le
    have hcap := h.locked.length_eq
    have hoff : kBufferOffset = 8 := rfl
    rw [List.length_append] at hfront ⊢
    omega
  returns := by
    intro len b bytes item h hmax
    obtain ⟨b', hb', -⟩ := addInFront_spec h.wf (item.bytes order) (h.fits hmax)
    exact ⟨b', (addInFrontItem_eq b item).trans hb'⟩

section
variable {add : MsgBuffer → Item → Except Fault MsgBuffer}
  {place : List Byte → List Byte → List Byte}

/-- What a list of items makes of the bytes. -/
theorem Adder.run (hadd : Adder order add place) (items : List Item) :
    ∀ {b bytes}, Holds len b bytes → items.foldlM add b = .ok b' →
      Holds len b' (items.foldl (fun bytes item => place bytes (item.bytes order)) bytes) := by
  induction items with
  | nil =>
    intro b bytes h hok
    cases hok
    exact h
  | cons item items ih =>
    intro b bytes h hok
    rw [List.foldlM_cons] at hok
    obtain ⟨b₁, hstep, hrest⟩ := bind_eq_ok hok
    exact ih (hadd.holds h hstep) hrest

theorem Adder.run_returns (hadd : Adder order add place) (items : List Item) :
    ∀ {b bytes}, Holds len b bytes →
      2 * len + 4 * (bytes.length + (items.map Item.size).sum) + 72 ≤ vectorMaxSize →
      ∃ b', items.foldlM add b = .ok b' := by
  induction items with
  | nil => exact fun {b _} _ _ => ⟨b, rfl⟩
  | cons item items ih =>
    intro b bytes h hmax
    rw [List.map_cons, List.sum_cons] at hmax
    obtain ⟨b₁, hstep⟩ : ∃ b₁, add b item = .ok b₁ := hadd.returns h (by omega)
    obtain ⟨b', hb'⟩ := ih (hadd.holds h hstep) (by
      rw [hadd.length_place, item.length_bytes]
      omega)
    rw [List.foldlM_cons, hstep]
    exact ⟨b', hb'⟩

end

theorem foldl_append (items : List Item) (bytes : List Byte) :
    items.foldl (fun bytes item => bytes ++ item.bytes order) bytes
      = bytes ++ items.flatMap (Item.bytes order) := by
  induction items generalizing bytes with
  | nil => rw [List.foldl_nil, List.flatMap_nil, List.append_nil]
  | cons item items ih => rw [List.foldl_cons, ih, List.flatMap_cons, List.append_assoc]

theorem foldl_addInFront (items : List Item) (bytes : List Byte) :
    items.foldl (fun bytes item => item.bytes order ++ bytes) bytes
      = items.reverse.flatMap (Item.bytes order) ++ bytes := by
  induction items generalizing bytes with
  | nil => rfl
  | cons item items ih =>
    rw [List.foldl_cons, ih, List.reverse_cons, List.flatMap_append, List.flatMap_cons,
      List.flatMap_nil, List.append_nil, List.append_assoc]

/-! ## Reading them back -/

/-- The first bytes, when there are as many. -/
theorem WellFormed.load_front (h : b.WellFormed) {front rest : List Byte}
    (hcontents : b.contents = front ++ rest) :
    b.readableBytes ≥ front.length ∧ load b.buffer b.head front.length = .ok front := by
  have hlen := h.length_contents
  have htl := h.tail_le
  rw [hcontents, List.length_append] at hlen
  have hfront : Block.slice b.buffer b.head front.length = front := by
    have htake : Block.slice b.buffer b.head front.length = b.contents.take front.length := by
      rw [contents, Block.take_slice, Nat.min_eq_left (by omega)]
    rw [htake, hcontents, List.take_left]
  refine ⟨?_, ?_⟩
  · rw [h.readableBytes_eq]
    omega
  · by_cases hnil : front.length = 0
    · rw [hnil] at hfront ⊢
      rw [load, if_pos (by have := h.head_le; omega), hfront]
    · rw [load_eq (by omega), hfront]

/-- An item that is not 16 bits wide is read as it was put in. -/
theorem readItem_eq (hntoh : ∀ v, order.ntoh64 (order.hton64 v) = v)
    (unset : MsgBuffer → UInt16) (h : b.WellFormed) {item : Item} {rest : List Byte}
    (hwidth : item.width ≠ .int16) (hcontents : b.contents = item.bytes order ++ rest) :
    readItem order unset b item.width = .ok (item, b.retrieve item.size) := by
  obtain ⟨hroom, hload⟩ := h.load_front hcontents
  rw [item.length_bytes] at hroom hload
  cases item with
  | int8 v =>
    rw [Item.size] at hroom hload
    have hpeek : b.peekInt8 = .ok v := by
      rw [peekInt8, if_pos hroom, hload, ok_bind]
      exact congrArg Except.ok (object8_singleton v)
    simp only [Item.width, readItem, readInt8, hpeek, ok_bind, Item.size]
  | int16 s =>
    -- the one that `peekInt16` does not return
    exact absurd rfl hwidth
  | int32 i =>
    rw [Item.size] at hroom hload
    have hpeek : b.peekInt32 = .ok i := by
      rw [peekInt32, if_pos hroom, hload, ok_bind]
      show Except.ok (ntohl (object32 (memory32 (htonl i)))) = Except.ok i
      rw [object32_memory32, ntohl_htonl]
    simp only [Item.width, readItem, readInt32, hpeek, ok_bind, Item.size]
  | int64 l =>
    rw [Item.size] at hroom hload
    have hpeek : b.peekInt64 order = .ok l := by
      rw [peekInt64, if_pos hroom, hload, ok_bind]
      show Except.ok (order.ntoh64 (object64 (memory64 (order.hton64 l)))) = Except.ok l
      rw [object64_memory64, hntoh]
    simp only [Item.width, readItem, readInt64, hpeek, ok_bind, Item.size]

/-- A list without 16-bit items is read back. -/
theorem readItems_eq (hntoh : ∀ v, order.ntoh64 (order.hton64 v) = v)
    (unset : MsgBuffer → UInt16) (items : List Item) :
    ∀ {b}, b.WellFormed → b.Locked → b.contents = items.flatMap (Item.bytes order) →
      (∀ item ∈ items, item.width ≠ .int16) →
      ∃ b', readItems order unset b (items.map Item.width) = .ok (items, b') ∧
        b'.readableBytes = 0 := by
  induction items with
  | nil =>
    intro b hwf _ hcontents _
    refine ⟨b, rfl, ?_⟩
    rw [← hwf.length_contents_eq, hcontents]
    rfl
  | cons item items ih =>
    intro b hwf hlocked hcontents hwidth
    rw [List.flatMap_cons] at hcontents
    have hread := readItem_eq hntoh unset hwf (hwidth item (.head _)) hcontents
    have hbec := retrieve_spec hwf (n := item.size) fun _ => hlocked.noShrink
    rw [hcontents, ← item.length_bytes order, List.drop_left, item.length_bytes] at hbec
    obtain ⟨b', hrest, hempty⟩ := ih hbec.wf (hbec.locked hlocked) hbec.contents
      fun later hlater => hwidth later (.tail _ hlater)
    refine ⟨b', ?_, hempty⟩
    rw [List.map_cons, readItems, hread, ok_bind]
    dsimp only
    rw [hrest, ok_bind]

/-- A 16-bit item that was read is what `peekInt16` happened to leave. -/
theorem readItem_int16 {unset : MsgBuffer → UInt16} {width : Width} {w : UInt16}
    (hok : readItem order unset b width = .ok (.int16 w, b')) : w = unset b := by
  cases width with
  | int8 =>
    obtain ⟨r, -, hr⟩ := bind_eq_ok hok
    cases hr
  | int16 =>
    obtain ⟨r, hread, hr⟩ := bind_eq_ok hok
    obtain ⟨s, hpeek, hs⟩ := bind_eq_ok hread
    cases hs
    cases hr
    rw [peekInt16] at hpeek
    by_cases hroom : b.readableBytes ≥ 2
    · rw [if_pos hroom] at hpeek
      obtain ⟨bytes, -, hb⟩ := bind_eq_ok hpeek
      cases hb
      rfl
    · rw [if_neg hroom] at hpeek
      cases hpeek
  | int32 =>
    obtain ⟨r, -, hr⟩ := bind_eq_ok hok
    cases hr
  | int64 =>
    obtain ⟨r, -, hr⟩ := bind_eq_ok hok
    cases hr

theorem readItems_int16 {v w : UInt16} {widths : List Width} {items : List Item} :
    ∀ {b}, readItems order (fun _ => v) b widths = .ok (items, b') → .int16 w ∈ items →
      w = v := by
  induction widths generalizing items with
  | nil =>
    intro b hok hmem
    cases hok
    cases hmem
  | cons width widths ih =>
    intro b hok hmem
    obtain ⟨⟨item, b₁⟩, hfirst, hok⟩ := bind_eq_ok hok
    obtain ⟨⟨later, b₂⟩, hlater, hok⟩ := bind_eq_ok hok
    cases hok
    cases hmem with
    | head => exact readItem_int16 hfirst
    | tail _ hmem => exact ih hlater hmem

/-- A list with a 16-bit item is not read back: two values left by `peekInt16` would have to be
the same. -/
theorem ReadsBack.not_int16 {items : List Item} (h : ReadsBack order b items) {item : Item}
    (hmem : item ∈ items) : item.width ≠ .int16 := by
  intro hwidth
  cases item with
  | int16 w =>
    obtain ⟨b₀, hzero, -⟩ := h fun _ => 0
    obtain ⟨b₁, hone, -⟩ := h fun _ => 1
    have hw₀ := readItems_int16 hzero hmem
    have hw₁ := readItems_int16 hone hmem
    exact absurd (hw₀.symm.trans hw₁) (by decide)
  | int8 v => cases hwidth
  | int32 i => cases hwidth
  | int64 l => cases hwidth

/-! ## The round trip -/

/-- A block shorter than its front offset. -/
structure Wrapped (b : MsgBuffer) : Prop where
  head_eq : b.head = kBufferOffset
  tail_eq : b.tail = kBufferOffset
  length_lt : b.buffer.length < kBufferOffset

/-- The sum in the constructor wraps for the largest lengths. -/
theorem new_cases (hlen : len < sizeMod) (hnew : new len = .ok b) :
    len + kBufferOffset ≤ vectorMaxSize ∧ b = fresh len ∨ vectorMaxSize < len ∧ b.Wrapped := by
  have hmod : sizeMod = 2 * vectorMaxSize + 2 := by decide
  have hlarge : kBufferOffset < vectorMaxSize := by decide
  by_cases hwrap : len + kBufferOffset < sizeMod
  · left
    by_cases hmax : len + kBufferOffset ≤ vectorMaxSize
    · rw [new_eq hmax] at hnew
      cases hnew
      exact ⟨hmax, rfl⟩
    · rw [new, addSize_eq hwrap, if_neg hmax] at hnew
      cases hnew
  · right
    have hsize : addSize len kBufferOffset = len + kBufferOffset - sizeMod := by
      rw [addSize, Nat.mod_eq_sub_mod (by omega), Nat.mod_eq_of_lt (by omega)]
    rw [new, hsize, if_pos (by omega)] at hnew
    cases hnew
    refine ⟨by omega, rfl, rfl, ?_⟩
    rw [List.length_replicate]
    omega

/-- Nothing can be put into such a block. -/
theorem Wrapped.appendItem_ne (h : b.Wrapped) (item : Item) : appendItem order b item ≠ .ok b' := by
  have hlt := h.length_lt
  have hsize := item.size_le
  have hpos := item.size_pos
  have hlen := item.length_bytes order
  have hoff : kBufferOffset = 8 := rfl
  have hlarge : 2 * kBufferOffset < sizeMod := by decide
  have hwritable : b.writableBytes = b.buffer.length + (sizeMod - kBufferOffset) := by
    rw [writableBytes, h.tail_eq, subSize, Nat.mod_eq_of_lt (a := kBufferOffset) (by omega),
      Nat.mod_eq_of_lt (by omega)]
  -- `writableBytes` has wrapped around, so the buffer is never found too small
  have hens : b.ensureWritableBytes (item.bytes order).length = .ok b := by
    rw [ensureWritableBytes, ensureWritableBytesAux, if_pos (by omega)]
  have hstore : store b.buffer b.tail (item.bytes order) = .error .outOfBounds := by
    refine if_neg ?_
    rw [h.tail_eq]
    omega
  rw [appendItem_eq, append, hens, ok_bind, hstore]
  exact error_bind_ne _ _ _

/-- **Integers through a buffer**: while the sizes stay within what a vector can have, every
list of items can be appended and put in front. Where that returns, the list comes back, in its
order or in the reverse one, if and only if it has no 16-bit item. -/
theorem ints_roundTrip_iff (order : NetworkOrder)
    (hntoh : ∀ v, order.ntoh64 (order.hton64 v) = v) {len : Nat} {b₀ : MsgBuffer}
    (hsize : len < sizeMod) (hlen : 8 ≤ len) (hnew : new len = .ok b₀) (items : List Item) :
    (Storable len items → (∃ b, appendItems order b₀ items = .ok b) ∧
      ∃ c, addInFrontItems order b₀ items = .ok c) ∧
    ∀ b c, appendItems order b₀ items = .ok b → addInFrontItems order b₀ items = .ok c →
      (ReadsBack order b items ∧ ReadsBack order c items.reverse ↔
        ∀ item ∈ items, item.width ≠ .int16) := by
  -- a buffer as it should be, or one whose size has wrapped around
  rcases new_cases hsize hnew with ⟨hmax, rfl⟩ | ⟨hbig, hwrapped⟩
  · have hfresh := holds_fresh hlen hmax
    refine ⟨fun hstore => ?_, fun b c hb hc => ?_⟩
    · have hbound : 2 * len + 4 * (([] : List Byte).length + (items.map Item.size).sum) + 72
          ≤ vectorMaxSize := by
        rw [List.length_nil, Nat.zero_add]
        exact hstore
      exact ⟨appendItem_adder.run_returns items hfresh hbound,
        addInFrontItem_adder.run_returns items hfresh hbound⟩
    · have hback := appendItem_adder.run items hfresh hb
      have hfront := addInFrontItem_adder.run items hfresh hc
      rw [foldl_append, List.nil_append] at hback
      rw [foldl_addInFront, List.append_nil] at hfront
      constructor
      · exact fun hread item hmem => hread.1.not_int16 hmem
      · intro hwidth
        refine ⟨fun unset => ?_, fun unset => ?_⟩
        · exact readItems_eq hntoh unset items hback.wf hback.locked hback.contents hwidth
        · exact readItems_eq hntoh unset items.reverse hfront.wf hfront.locked hfront.contents
            fun item hmem => hwidth item (List.mem_reverse.mp hmem)
  · refine ⟨fun hstore => ?_, fun b c hb hc => ?_⟩
    · rw [Storable] at hstore
      omega
    · cases items with
      | nil =>
        -- nothing is appended, so nothing has to be read
        cases hb
        cases hc
        have hempty : b₀.readableBytes = 0 := by
          rw [readableBytes, hwrapped.head_eq, hwrapped.tail_eq, subSize_eq (le_refl _) (by decide),
            Nat.sub_self]
        have hread : ReadsBack order b₀ [] := fun unset => ⟨b₀, rfl, hempty⟩
        exact ⟨fun _ item hmem => absurd hmem List.not_mem_nil, fun _ => ⟨hread, hread⟩⟩
      | cons item items =>
        obtain ⟨b₁, hstep, -⟩ := bind_eq_ok hb
        exact absurd hstep (hwrapped.appendItem_ne item)

/-- A little-endian host: both conversions exchange the bytes. -/
def byteSwap : NetworkOrder where
  hton64 v := object64 (memory64 v).reverse
  ntoh64 v := object64 (memory64 v).reverse

theorem memory64_object64 (b₀ b₁ b₂ b₃ b₄ b₅ b₆ b₇ : Byte) :
    memory64 (object64 [b₀, b₁, b₂, b₃, b₄, b₅, b₆, b₇]) = [b₀, b₁, b₂, b₃, b₄, b₅, b₆, b₇] := by
  have h₀ := b₀.toNat_lt
  have h₁ := b₁.toNat_lt
  have h₂ := b₂.toNat_lt
  have h₃ := b₃.toNat_lt
  have h₄ := b₄.toNat_lt
  have h₅ := b₅.toNat_lt
  have h₆ := b₆.toNat_lt
  have h₇ := b₇.toNat_lt
  simp only [memory64, object64, ofMemory, List.cons.injEq, and_true, ← UInt8.toNat_inj,
    UInt64.toNat_toUInt8, UInt64.toNat_shiftRight, UInt64.toNat_ofNat', Nat.shiftRight_eq_div_pow,
    UInt64.toNat_ofNat, Nat.reducePow, Nat.reduceMod]
  omega

theorem byteSwap_inverse (v : UInt64) : byteSwap.ntoh64 (byteSwap.hton64 v) = v := by
  show object64 (memory64 (object64 (memory64 v).reverse)).reverse = v
  have hswap : memory64 (object64 (memory64 v).reverse) = (memory64 v).reverse :=
    memory64_object64 _ _ _ _ _ _ _ _
  rw [hswap, List.reverse_reverse, object64_memory64]

/-- Three widths through a buffer of length 8, in both orders. -/
theorem ints_roundTrip_three :
    ∃ b c, appendItems byteSwap (fresh 8) [.int8 7, .int32 8, .int64 9] = .ok b ∧
      addInFrontItems byteSwap (fresh 8) [.int8 7, .int32 8, .int64 9] = .ok c ∧
      ReadsBack byteSwap b [.int8 7, .int32 8, .int64 9] ∧
      ReadsBack byteSwap c [.int64 9, .int32 8, .int8 7] := by
  obtain ⟨hreturns, hiff⟩ := ints_roundTrip_iff byteSwap byteSwap_inverse
    (show 8 < sizeMod by decide) (le_refl 8) (new_eq (by decide)) [.int8 7, .int32 8, .int64 9]
  obtain ⟨⟨b, hb⟩, c, hc⟩ := hreturns (by decide)
  obtain ⟨hback, hfront⟩ := (hiff b c hb hc).mpr (by decide)
  exact ⟨b, c, hb, hc, hback, hfront⟩

/-- One 16-bit item: where `peekInt16` leaves a zero, a zero is read. -/
theorem not_readsBack_int16 :
    (∀ v, byteSwap.ntoh64 (byteSwap.hton64 v) = v) ∧ new 8 = .ok (fresh 8) ∧
      ∃ b, appendItems byteSwap (fresh 8) [.int16 0x1234] = .ok b ∧
        (∃ b', readItems byteSwap (fun _ => 0) b [.int16] = .ok ([.int16 0], b')) ∧
        ¬ ReadsBack byteSwap b [.int16 0x1234] := by
  refine ⟨byteSwap_inverse, rfl, _, rfl, ⟨_, rfl⟩, fun hread => ?_⟩
  exact hread.not_int16 (.head _) rfl

end MsgBuffer

end XiaoNet
