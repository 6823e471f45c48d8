import XiaoNet.Utils.MsgBuffer

/-!
# `toUtf8` and `fromUtf8`

The conversions of `utils/Utilities.cpp` between wide strings and UTF-8, as they are built for
C++20 on Linux: `wchar_t` has 32 bits and holds a code point. The functions they rest on are
called `utf16Toutf8` and `utf8Toutf16`; both know sequences of one, two and three bytes.

- `utf8Toutf16Loop_encode`: what is decoded of the bytes a character is encoded to, its low 16
  bits.
- `roundTrip_iff`: a string of Unicode scalar values comes back if and only if none of them lies
  above U+FFFF.
-/

namespace XiaoNet

namespace Utils

/-- `wchar_t`, a signed type of 32 bits. -/
abbrev WChar := BitVec 32

/-- A `char` where an `int` is called for. -/
def asInt (byte : Byte) : BitVec 32 := byte.toBitVec.signExtend 32

/-- `static_cast<char>`. -/
def asChar (i : BitVec 32) : Byte := .ofBitVec (i.setWidth 8)

/-! ## The encoder -/

/-- The bytes `utf16Toutf8` pushes for one character. -/
def encodeChar (unicode_char : WChar) : List Byte :=
  if unicode_char.toInt ≤ 0x7F then
    [asChar unicode_char]
  else if unicode_char.toInt ≤ 0x7FF then
    [asChar (0xC0#32 ||| (unicode_char.sshiftRight 6 &&& 0x1F#32)),
      asChar (0x80#32 ||| (unicode_char &&& 0x3F#32))]
  else
    [asChar (0xE0#32 ||| (unicode_char.sshiftRight 12 &&& 0x0F#32)),
      asChar (0x80#32 ||| (unicode_char.sshiftRight 6 &&& 0x3F#32)),
      asChar (0x80#32 ||| (unicode_char &&& 0x3F#32))]

def utf16Toutf8 (utf16Str : List WChar) : List Byte := utf16Str.flatMap encodeChar

def toUtf8 (wstr : List WChar) : List Byte :=
  if wstr.isEmpty then [] else utf16Toutf8 wstr

/-! ## The decoder -/

/-- The character of a two-byte sequence. -/
def twoByte (b₀ b₁ : Byte) : WChar :=
  (asInt b₀ &&& 0x1F#32) <<< 6 ||| (asInt b₁ &&& 0x3F#32)

/-- The character of a three-byte sequence. -/
def threeByte (b₀ b₁ b₂ : Byte) : WChar :=
  (asInt b₀ &&& 0x0F#32) <<< 12 ||| (asInt b₁ &&& 0x3F#32) <<< 6 ||| (asInt b₂ &&& 0x3F#32)

/-- The loop of `utf8Toutf16` over the bytes that are left; an invalid sequence makes the
function return the empty string. -/
def utf8Toutf16Loop (utf16Str : List WChar) : List Byte → List WChar
  | [] => utf16Str
  | b₀ :: rest =>
    if asInt b₀ &&& 0x80#32 = 0#32 then utf8Toutf16Loop (utf16Str ++ [asInt b₀]) rest
    else if asInt b₀ &&& 0xE0#32 = 0xC0#32 then
      match rest with
      | b₁ :: rest => utf8Toutf16Loop (utf16Str ++ [twoByte b₀ b₁]) rest
      | _ => []
    else if asInt b₀ &&& 0xF0#32 = 0xE0#32 then
      match rest with
      | b₁ :: b₂ :: rest => utf8Toutf16Loop (utf16Str ++ [threeByte b₀ b₁ b₂]) rest
      | _ => []
    else []

def utf8Toutf16 (utf8Str : List Byte) : List WChar := utf8Toutf16Loop [] utf8Str

def fromUtf8 (str : List Byte) : List WChar :=
  if str.isEmpty then [] else utf8Toutf16 str

/-! ## The bits of a byte and of a character -/

/-- A fact about every byte, checked for all of them. -/
theorem forall_byte {P : Byte → Prop} (h : ∀ n : Fin 256, P (.ofBitVec (.ofFin n))) (b : Byte) :
    P b := h b.toFin

theorem one_iff (b : Byte) : asInt b &&& 0x80#32 = 0#32 ↔ b.toNat < 0x80 :=
  forall_byte (P := fun b => asInt b &&& 0x80#32 = 0#32 ↔ b.toNat < 0x80) (by decide +kernel) b

theorem two_iff (b : Byte) :
    asInt b &&& 0xE0#32 = 0xC0#32 ↔ 0xC0 ≤ b.toNat ∧ b.toNat < 0xE0 :=
  forall_byte (P := fun b => asInt b &&& 0xE0#32 = 0xC0#32 ↔ 0xC0 ≤ b.toNat ∧ b.toNat < 0xE0)
    (by decide +kernel) b

theorem three_iff (b : Byte) :
    asInt b &&& 0xF0#32 = 0xE0#32 ↔ 0xE0 ≤ b.toNat ∧ b.toNat < 0xF0 :=
  forall_byte (P := fun b => asInt b &&& 0xF0#32 = 0xE0#32 ↔ 0xE0 ≤ b.toNat ∧ b.toNat < 0xF0)
    (by decide +kernel) b

theorem toNat_asInt {b : Byte} (h : b.toNat < 0x80) : (asInt b).toNat = b.toNat :=
  forall_byte (P := fun b => b.toNat < 0x80 → (asInt b).toNat = b.toNat) (by decide +kernel) b h

theorem toNat_asInt_mod (b : Byte) : (asInt b).toNat % 256 = b.toNat :=
  forall_byte (P := fun b => (asInt b).toNat % 256 = b.toNat) (by decide +kernel) b

/-- The low bits of a byte. -/
theorem toNat_payload {k : Nat} {m : BitVec 32} (hm : m.toNat = 2 ^ k - 1) (hk : k ≤ 8)
    (b : Byte) : (asInt b &&& m).toNat = b.toNat % 2 ^ k := by
  have hdvd : 2 ^ k ∣ 256 := Nat.pow_dvd_pow 2 hk
  rw [BitVec.toNat_and, hm, Nat.and_two_pow_sub_one_eq_mod, ← Nat.mod_mod_of_dvd _ hdvd,
    toNat_asInt_mod]

/-- Some bits of a character. -/
theorem toNat_field {k : Nat} {m : BitVec 32} (hm : m.toNat = 2 ^ k - 1) {c : WChar}
    (hc : c.toNat < 2 ^ 31) (s : Nat) :
    (c.sshiftRight s &&& m).toNat = c.toNat / 2 ^ s % 2 ^ k := by
  have hmsb : c.msb = false := by
    rw [BitVec.msb_eq_false_iff_two_mul_lt]
    omega
  rw [BitVec.sshiftRight_eq_of_msb_false hmsb, BitVec.toNat_and, BitVec.toNat_ushiftRight, hm,
    Nat.and_two_pow_sub_one_eq_mod, Nat.shiftRight_eq_div_pow]

theorem toNat_low (c : WChar) : (c &&& 0xFFFF#32).toNat = c.toNat % 2 ^ 16 := by
  rw [BitVec.toNat_and]
  exact Nat.and_two_pow_sub_one_eq_mod _ 16

/-- Bits put in front of `k` others. -/
theorem toNat_shiftLeft_or {x y : BitVec 32} {k : Nat} (hx : x.toNat * 2 ^ k < 2 ^ 32)
    (hy : y.toNat < 2 ^ k) : (x <<< k ||| y).toNat = x.toNat * 2 ^ k + y.toNat := by
  rw [BitVec.toNat_or, BitVec.toNat_shiftLeft, Nat.shiftLeft_eq, Nat.mod_eq_of_lt hx,
    Nat.mul_comm, Nat.two_pow_add_eq_or_of_lt hy]

/-- The byte made of a lead and `k` bits of a character. -/
theorem toNat_asChar_field {lead m : BitVec 32} {k n : Nat} (hm : m.toNat = 2 ^ k - 1)
    (hlead : lead.toNat = 2 ^ k * n) (hlt : lead.toNat + 2 ^ k ≤ 256) {c : WChar}
    (hc : c.toNat < 2 ^ 31) (s : Nat) :
    (asChar (lead ||| (c.sshiftRight s &&& m))).toNat
      = lead.toNat + c.toNat / 2 ^ s % 2 ^ k := by
  have hfield := toNat_field hm hc s
  have hmod : c.toNat / 2 ^ s % 2 ^ k < 2 ^ k := Nat.mod_lt _ (Nat.two_pow_pos k)
  have hor : (lead ||| (c.sshiftRight s &&& m)).toNat = lead.toNat + c.toNat / 2 ^ s % 2 ^ k := by
    rw [BitVec.toNat_or, hfield, hlead, Nat.two_pow_add_eq_or_of_lt hmod]
  show ((lead ||| (c.sshiftRight s &&& m)).setWidth 8).toNat = _
  rw [BitVec.toNat_setWidth, hor, Nat.mod_eq_of_lt (by omega)]

theorem toNat_twoByte (b₀ b₁ : Byte) :
    (twoByte b₀ b₁).toNat = b₀.toNat % 2 ^ 5 * 2 ^ 6 + b₁.toNat % 2 ^ 6 := by
  have h₀ : (asInt b₀ &&& 0x1F#32).toNat = b₀.toNat % 2 ^ 5 :=
    toNat_payload rfl (by decide) b₀
  have h₁ : (asInt b₁ &&& 0x3F#32).toNat = b₁.toNat % 2 ^ 6 :=
    toNat_payload rfl (by decide) b₁
  rw [twoByte, toNat_shiftLeft_or (by omega) (by omega), h₀, h₁]

theorem toNat_threeByte (b₀ b₁ b₂ : Byte) :
    (threeByte b₀ b₁ b₂).toNat
      = b₀.toNat % 2 ^ 4 * 2 ^ 12 + (b₁.toNat % 2 ^ 6 * 2 ^ 6 + b₂.toNat % 2 ^ 6) := by
  have h₀ : (asInt b₀ &&& 0x0F#32).toNat = b₀.toNat % 2 ^ 4 :=
    toNat_payload rfl (by decide) b₀
  have h₁ : (asInt b₁ &&& 0x3F#32).toNat = b₁.toNat % 2 ^ 6 :=
    toNat_payload rfl (by decide) b₁
  have h₂ : (asInt b₂ &&& 0x3F#32).toNat = b₂.toNat % 2 ^ 6 :=
    toNat_payload rfl (by decide) b₂
  have hlow : ((asInt b₁ &&& 0x3F#32) <<< 6 ||| (asInt b₂ &&& 0x3F#32)).toNat
      = b₁.toNat % 2 ^ 6 * 2 ^ 6 + b₂.toNat % 2 ^ 6 := by
    rw [toNat_shiftLeft_or (by omega) (by omega), h₁, h₂]
  rw [threeByte, BitVec.or_assoc, toNat_shiftLeft_or (by omega) (by omega), h₀, hlow]

/-! ## One character -/

/-- The bytes of a character, as numbers. -/
theorem encodeChar_toNat {c : WChar} (hc : c.toNat < 2 ^ 31) :
    (encodeChar c).map UInt8.toNat =
      if c.toNat ≤ 0x7F then [c.toNat]
      else if c.toNat ≤ 0x7FF then [0xC0 + c.toNat / 2 ^ 6 % 2 ^ 5, 0x80 + c.toNat % 2 ^ 6]
      else [0xE0 + c.toNat / 2 ^ 12 % 2 ^ 4, 0x80 + c.toNat / 2 ^ 6 % 2 ^ 6,
        0x80 + c.toNat % 2 ^ 6] := by
  -- below 2^31 the signed comparisons of the code are those of the code point
  have hint : c.toInt = c.toNat := BitVec.toInt_eq_toNat_of_lt (by omega)
  have hone : c.toInt ≤ 0x7F ↔ c.toNat ≤ 0x7F := by omega
  have htwo : c.toInt ≤ 0x7FF ↔ c.toNat ≤ 0x7FF := by omega
  -- each byte is a tag and a field of the code point
  have hlast : (asChar (0x80#32 ||| (c &&& 0x3F#32))).toNat = 0x80 + c.toNat % 2 ^ 6 := by
    have hfield : (asChar (0x80#32 ||| (c.sshiftRight 0 &&& 0x3F#32))).toNat
        = 0x80 + c.toNat / 2 ^ 0 % 2 ^ 6 :=
      toNat_asChar_field (k := 6) (n := 2) rfl rfl (by decide) hc 0
    rwa [BitVec.sshiftRight_zero, Nat.pow_zero, Nat.div_one] at hfield
  have hmid : (asChar (0x80#32 ||| (c.sshiftRight 6 &&& 0x3F#32))).toNat
      = 0x80 + c.toNat / 2 ^ 6 % 2 ^ 6 :=
    toNat_asChar_field (k := 6) (n := 2) rfl rfl (by decide) hc 6
  have hlead₂ : (asChar (0xC0#32 ||| (c.sshiftRight 6 &&& 0x1F#32))).toNat
      = 0xC0 + c.toNat / 2 ^ 6 % 2 ^ 5 :=
    toNat_asChar_field (k := 5) (n := 6) rfl rfl (by decide) hc 6
  have hlead₃ : (asChar (0xE0#32 ||| (c.sshiftRight 12 &&& 0x0F#32))).toNat
      = 0xE0 + c.toNat / 2 ^ 12 % 2 ^ 4 :=
    toNat_asChar_field (k := 4) (n := 14) rfl rfl (by decide) hc 12
  simp only [encodeChar, hone, htwo]
  split
  · have hself : (asChar c).toNat = c.toNat := by
      show (c.setWidth 8).toNat = c.toNat
      rw [BitVec.toNat_setWidth, Nat.mod_eq_of_lt (by omega)]
    rw [List.map_cons, List.map_nil, hself]
  · split
    · simp only [List.map_cons, List.map_nil, hlead₂, hlast]
    · simp only [List.map_cons, List.map_nil, hlead₃, hmid, hlast]

/-- A character is encoded in one, two or three bytes. -/
theorem encodeChar_cases {c : WChar} (hc : c.toNat < 2 ^ 31) :
    (∃ b₀, encodeChar c = [b₀] ∧ c.toNat ≤ 0x7F ∧ b₀.toNat = c.toNat) ∨
    (∃ b₀ b₁, encodeChar c = [b₀, b₁] ∧ c.toNat ≤ 0x7FF ∧
      b₀.toNat = 0xC0 + c.toNat / 2 ^ 6 % 2 ^ 5 ∧ b₁.toNat = 0x80 + c.toNat % 2 ^ 6) ∨
    ∃ b₀ b₁ b₂, encodeChar c = [b₀, b₁, b₂] ∧ b₀.toNat = 0xE0 + c.toNat / 2 ^ 12 % 2 ^ 4 ∧
      b₁.toNat = 0x80 + c.toNat / 2 ^ 6 % 2 ^ 6 ∧ b₂.toNat = 0x80 + c.toNat % 2 ^ 6 := by
  have hbytes := encodeChar_toNat hc
  generalize encodeChar c = bytes at hbytes ⊢
  split at hbytes
  · obtain ⟨b₀, bytes, rfl, h₀, hnil⟩ := List.map_eq_cons_iff.mp hbytes
    cases List.map_eq_nil_iff.mp hnil
    exact .inl ⟨b₀, rfl, by assumption, h₀⟩
  split at hbytes
  · obtain ⟨b₀, bytes, rfl, h₀, hbytes⟩ := List.map_eq_cons_iff.mp hbytes
    obtain ⟨b₁, bytes, rfl, h₁, hnil⟩ := List.map_eq_cons_iff.mp hbytes
    cases List.map_eq_nil_iff.mp hnil
    exact .inr (.inl ⟨b₀, b₁, rfl, by assumption, h₀, h₁⟩)
  · obtain ⟨b₀, bytes, rfl, h₀, hbytes⟩ := List.map_eq_cons_iff.mp hbytes
    obtain ⟨b₁, bytes, rfl, h₁, hbytes⟩ := List.map_eq_cons_iff.mp hbytes
    obtain ⟨b₂, bytes, rfl, h₂, hnil⟩ := List.map_eq_cons_iff.mp hbytes
    cases List.map_eq_nil_iff.mp hnil
    exact .inr (.inr ⟨b₀, b₁, b₂, rfl, h₀, h₁, h₂⟩)

variable {acc : List WChar} {rest : List Byte} {b₀ b₁ b₂ : Byte}

theorem utf8Toutf16Loop_one (h : b₀.toNat < 0x80) :
    utf8Toutf16Loop acc (b₀ :: rest) = utf8Toutf16Loop (acc ++ [asInt b₀]) rest := by
  rw [utf8Toutf16Loop.eq_def]
  dsimp only
  rw [if_pos ((one_iff b₀).mpr h)]

theorem utf8Toutf16Loop_two (h : 0xC0 ≤ b₀.toNat ∧ b₀.toNat < 0xE0) :
    utf8Toutf16Loop acc (b₀ :: b₁ :: rest)
      = utf8Toutf16Loop (acc ++ [twoByte b₀ b₁]) rest := by
  rw [utf8Toutf16Loop.eq_def]
  dsimp only
  rw [if_neg (fun hone => by have := (one_iff b₀).mp hone; omega), if_pos ((two_iff b₀).mpr h)]

theorem utf8Toutf16Loop_three (h : 0xE0 ≤ b₀.toNat ∧ b₀.toNat < 0xF0) :
    utf8Toutf16Loop acc (b₀ :: b₁ :: b₂ :: rest)
      = utf8Toutf16Loop (acc ++ [threeByte b₀ b₁ b₂]) rest := by
  rw [utf8Toutf16Loop.eq_def]
  dsimp only
  rw [if_neg (fun hone => by have := (one_iff b₀).mp hone; omega),
    if_neg (fun htwo => by have := (two_iff b₀).mp htwo; omega), if_pos ((three_iff b₀).mpr h)]

/-- What is decoded of an encoded character: its low 16 bits. -/
theorem utf8Toutf16Loop_encode {c : WChar} (hc : c.toNat < 2 ^ 31) :
    utf8Toutf16Loop acc (encodeChar c ++ rest)
      = utf8Toutf16Loop (acc ++ [c &&& 0xFFFF#32]) rest := by
  have hlow := toNat_low c
  -- each length has its own branch of the loop, and all put together the low 16 bits
  obtain ⟨b₀, hbytes, hle, h₀⟩ | ⟨b₀, b₁, hbytes, hle, h₀, h₁⟩ |
    ⟨b₀, b₁, b₂, hbytes, h₀, h₁, h₂⟩ := encodeChar_cases hc
  · have hchar : asInt b₀ = c &&& 0xFFFF#32 := by
      apply BitVec.eq_of_toNat_eq
      rw [toNat_asInt (by omega), hlow]
      omega
    rw [hbytes, List.singleton_append, utf8Toutf16Loop_one (by omega), hchar]
  · have hchar : twoByte b₀ b₁ = c &&& 0xFFFF#32 := by
      apply BitVec.eq_of_toNat_eq
      rw [toNat_twoByte, hlow]
      omega
    rw [hbytes, List.cons_append, List.singleton_append, utf8Toutf16Loop_two (by omega), hchar]
  · have hchar : threeByte b₀ b₁ b₂ = c &&& 0xFFFF#32 := by
      apply BitVec.eq_of_toNat_eq
      rw [toNat_threeByte, hlow]
      omega
    rw [hbytes, List.cons_append, List.cons_append, List.singleton_append,
      utf8Toutf16Loop_three (by omega), hchar]

/-! ## Strings -/

theorem utf8Toutf16Loop_utf16Toutf8 (w : List WChar) (acc : List WChar)
    (hw : ∀ c ∈ w, c.toNat < 2 ^ 31) :
    utf8Toutf16Loop acc (utf16Toutf8 w) = acc ++ w.map (· &&& 0xFFFF#32) := by
  induction w generalizing acc with
  | nil => exact (List.append_nil acc).symm
  | cons c w ih =>
    rw [utf16Toutf8, List.flatMap_cons, utf8Toutf16Loop_encode (hw c (.head _))]
    have hrest := ih (acc ++ [c &&& 0xFFFF#32]) fun c' hc' => hw c' (.tail _ hc')
    rw [utf16Toutf8] at hrest
    rw [hrest, List.append_assoc, List.map_cons, List.singleton_append]

theorem encodeChar_ne_nil (c : WChar) : encodeChar c ≠ [] := by
  unfold encodeChar
  split
  · exact List.cons_ne_nil _ _
  · split <;> exact List.cons_ne_nil _ _

/-- **Encoding and decoding** keeps the low 16 bits of every character. -/
theorem fromUtf8_toUtf8 {w : List WChar} (hw : ∀ c ∈ w, c.toNat < 2 ^ 31) :
    fromUtf8 (toUtf8 w) = w.map (· &&& 0xFFFF#32) := by
  cases w with
  | nil => rfl
  | cons c w =>
    have hne : (utf16Toutf8 (c :: w)).isEmpty = false := by
      rw [List.isEmpty_eq_false_iff, utf16Toutf8, List.flatMap_cons]
      exact List.append_ne_nil_of_left_ne_nil (encodeChar_ne_nil c) _
    show fromUtf8 (utf16Toutf8 (c :: w)) = (c :: w).map (· &&& 0xFFFF#32)
    rw [fromUtf8, hne, if_neg Bool.false_ne_true, utf8Toutf16,
      utf8Toutf16Loop_utf16Toutf8 _ _ hw, List.nil_append]

/-- A Unicode scalar value as a `wchar_t`. -/
def wide (c : Char) : WChar := c.val.toBitVec

theorem toNat_wide_lt (c : Char) : (wide c).toNat < 0x110000 := by
  have h := c.valid
  have hval : (wide c).toNat = c.val.toNat := rfl
  rw [hval]
  rcases h with h | h <;> omega

/-- The low 16 bits are the whole character. -/
theorem low_eq_iff (c : WChar) : c &&& 0xFFFF#32 = c ↔ c.toNat ≤ 0xFFFF := by
  rw [← BitVec.toNat_inj, toNat_low]
  omega

/-- **Round trip**: a string of Unicode scalar values comes back through UTF-8 if and only if all
of them lie in the Basic Multilingual Plane. -/
theorem roundTrip_iff (w : List Char) :
    fromUtf8 (toUtf8 (w.map wide)) = w.map wide ↔ ∀ c ∈ w, c.toNat ≤ 0xFFFF := by
  have hw : ∀ c ∈ w.map wide, c.toNat < 2 ^ 31 := by
    intro c hc
    obtain ⟨c, -, rfl⟩ := List.mem_map.mp hc
    have hlt := toNat_wide_lt c
    omega
  rw [fromUtf8_toUtf8 hw, List.map_map, List.map_inj_left]
  exact forall₂_congr fun c _ => low_eq_iff (wide c)

/-- U+1F600 comes back as U+F600. -/
theorem not_roundTrip_emoji :
    fromUtf8 (toUtf8 ([Char.ofNat 0x1F600].map wide)) = [0xF600#32] ∧
      fromUtf8 (toUtf8 ([Char.ofNat 0x1F600].map wide)) ≠ [Char.ofNat 0x1F600].map wide := by
  decide

end Utils

end XiaoNet
