import Mathlib.Logic.Basic
import XiaoNet.Utils.Utf8

/-!
# What `fromUtf8` rejects

The decoder looks at the lead bytes and at the length of the string, never at a continuation byte
and never at the value it has put together.

- `Framed`: the string, cut into sequences by its lead bytes alone, comes out even.
- `fromUtf8_eq_nil_iff`: the decoder rejects exactly the strings that are not framed.
- `toUtf8_fromUtf8`: a well-formed string that is decoded is encoded to the same bytes again.
- `rejects_iff`: the malformed strings that are rejected.
-/

namespace XiaoNet

namespace Utils

/-- The encoding of a list of Unicode scalar values. -/
def WellFormed (s : List Byte) : Prop :=
  ∃ chars : List Char, s = chars.flatMap String.utf8EncodeChar

/-- One sequence after the other, each as long as its lead byte says. -/
inductive Framed : List Byte → Prop where
  | nil : Framed []
  | one {b₀ : Byte} {rest : List Byte} :
    b₀.toNat < 0x80 → Framed rest → Framed (b₀ :: rest)
  | two {b₀ b₁ : Byte} {rest : List Byte} :
    0xC0 ≤ b₀.toNat ∧ b₀.toNat < 0xE0 → Framed rest → Framed (b₀ :: b₁ :: rest)
  | three {b₀ b₁ b₂ : Byte} {rest : List Byte} :
    0xE0 ≤ b₀.toNat ∧ b₀.toNat < 0xF0 → Framed rest → Framed (b₀ :: b₁ :: b₂ :: rest)

/-- A malformed string is answered with the empty one. -/
def Rejects (s : List Byte) : Prop := ¬ WellFormed s → fromUtf8 s = []

/-! ## The decoder and the lead bytes -/

/-- A framed string is decoded, to one character for each sequence. -/
theorem Framed.decoded {s : List Byte} (h : Framed s) :
    ∃ w, (s ≠ [] → w ≠ []) ∧ ∀ acc, utf8Toutf16Loop acc s = acc ++ w := by
  induction h with
  | nil => exact ⟨[], fun hne => absurd rfl hne, fun acc => (List.append_nil acc).symm⟩
  | @one b₀ rest hlead _ ih =>
    obtain ⟨w, -, hw⟩ := ih
    refine ⟨asInt b₀ :: w, fun _ => List.cons_ne_nil _ _, fun acc => ?_⟩
    rw [utf8Toutf16Loop_one hlead, hw, List.append_assoc, List.singleton_append]
  | @two b₀ b₁ rest hlead _ ih =>
    obtain ⟨w, -, hw⟩ := ih
    refine ⟨twoByte b₀ b₁ :: w, fun _ => List.cons_ne_nil _ _, fun acc => ?_⟩
    rw [utf8Toutf16Loop_two hlead, hw, List.append_assoc, List.singleton_append]
  | @three b₀ b₁ b₂ rest hlead _ ih =>
    obtain ⟨w, -, hw⟩ := ih
    refine ⟨threeByte b₀ b₁ b₂ :: w, fun _ => List.cons_ne_nil _ _, fun acc => ?_⟩
    rw [utf8Toutf16Loop_three hlead, hw, List.append_assoc, List.singleton_append]

/-- The loop runs into an invalid lead byte or into the end. -/
theorem utf8Toutf16Loop_unframed (acc : List WChar) (s : List Byte) (h : ¬ Framed s) :
    utf8Toutf16Loop acc s = [] := by
  fun_induction utf8Toutf16Loop acc s with
  | case1 acc => exact absurd .nil h
  | case2 acc b₀ rest hone ih =>
    exact ih fun hrest => h (.one ((one_iff b₀).mp hone) hrest)
  | case3 acc b₀ hone htwo b₁ rest ih =>
    exact ih fun hrest => h (.two ((two_iff b₀).mp htwo) hrest)
  | case4 => rfl
  | case5 acc b₀ hone htwo hthree b₁ b₂ rest ih =>
    exact ih fun hrest => h (.three ((three_iff b₀).mp hthree) hrest)
  | case6 => rfl
  | case7 => rfl

/-- **What is rejected**: exactly the strings that are not framed. -/
theorem fromUtf8_eq_nil_iff {s : List Byte} (hs : s ≠ []) : fromUtf8 s = [] ↔ ¬ Framed s := by
  have hempty : s.isEmpty = false := List.isEmpty_eq_false_iff.mpr hs
  rw [fromUtf8, hempty, if_neg Bool.false_ne_true, utf8Toutf16]
  constructor
  · intro hnil hframed
    obtain ⟨w, hne, hw⟩ := hframed.decoded
    rw [hw, List.nil_append] at hnil
    exact hne hs hnil
  · exact utf8Toutf16Loop_unframed [] s

/-! ## Well-formed strings -/

/-- The first byte of a well-formed character tells whether it lies above U+FFFF. -/
theorem utf8EncodeChar_four {c : Char} (hc : 0xFFFF < c.toNat) :
    ∃ b₀ bytes, String.utf8EncodeChar c = b₀ :: bytes ∧ 0xF0 ≤ b₀.toNat := by
  have hlt : 0xFFFF < c.val.toNat := hc
  rw [String.utf8EncodeChar, if_neg (by omega), if_neg (by omega), if_neg (by omega)]
  refine ⟨_, _, rfl, ?_⟩
  rw [UInt8.toNat_ofNat', Nat.mod_eq_of_lt (by omega)]
  omega

/-- Up to U+FFFF the encoder follows the standard. -/
theorem encodeChar_wide {c : Char} (hc : c.toNat ≤ 0xFFFF) :
    encodeChar (wide c) = String.utf8EncodeChar c := by
  have hle : c.val.toNat ≤ 0xFFFF := hc
  apply List.map_injective_iff.mpr (fun _ _ => UInt8.toNat_inj.mp)
  have hval : (wide c).toNat = c.val.toNat := rfl
  rw [encodeChar_toNat (by omega), hval, String.utf8EncodeChar]
  split
  · rw [List.map_cons, List.map_nil, UInt8.toNat_ofNat', Nat.mod_eq_of_lt (by omega)]
  split
  · simp only [List.map_cons, List.map_nil, UInt8.toNat_ofNat', List.cons.injEq, and_true]
    omega
  · simp only [List.map_cons, List.map_nil, UInt8.toNat_ofNat', List.cons.injEq, and_true]
    omega

theorem Framed.lead_lt {b₀ : Byte} {rest : List Byte} (h : Framed (b₀ :: rest)) :
    b₀.toNat < 0xF0 := by
  cases h with
  | one hlead => omega
  | two hlead => omega
  | three hlead => omega

/-- What follows a character is framed when the whole is. -/
theorem Framed.of_encode {c : WChar} (hc : c.toNat < 2 ^ 31) {rest : List Byte}
    (h : Framed (encodeChar c ++ rest)) : Framed rest := by
  obtain ⟨b₀, hbytes, hle, h₀⟩ | ⟨b₀, b₁, hbytes, hle, h₀, h₁⟩ |
    ⟨b₀, b₁, b₂, hbytes, h₀, h₁, h₂⟩ := encodeChar_cases hc
  · rw [hbytes] at h
    cases h with
    | one _ hrest => exact hrest
    | two hlead _ => omega
    | three hlead _ => omega
  · rw [hbytes] at h
    cases h with
    | one hlead _ => omega
    | two _ hrest => exact hrest
    | three hlead _ => omega
  · rw [hbytes] at h
    cases h with
    | one hlead _ => omega
    | two hlead _ => omega
    | three _ hrest => exact hrest

/-- A framed, well-formed string has no character above U+FFFF. -/
theorem Framed.chars_le (chars : List Char)
    (h : Framed (chars.flatMap String.utf8EncodeChar)) : ∀ c ∈ chars, c.toNat ≤ 0xFFFF := by
  induction chars with
  | nil => exact fun c hc => absurd hc List.not_mem_nil
  | cons c chars ih =>
    rw [List.flatMap_cons] at h
    have hfirst : c.toNat ≤ 0xFFFF := by
      by_contra hlt
      obtain ⟨b₀, bytes, hbytes, hlead⟩ := utf8EncodeChar_four (Nat.lt_of_not_le hlt)
      rw [hbytes, List.cons_append] at h
      have := h.lead_lt
      omega
    have hwide : (wide c).toNat < 2 ^ 31 := by
      have hlt := toNat_wide_lt c
      omega
    rw [← encodeChar_wide hfirst] at h
    exact List.forall_mem_cons.mpr ⟨hfirst, ih (h.of_encode hwide)⟩

/-- **A well-formed string that is decoded** is encoded to the same bytes again. -/
theorem toUtf8_fromUtf8 {s : List Byte} (hwf : WellFormed s) (h : Framed s) :
    toUtf8 (fromUtf8 s) = s := by
  obtain ⟨chars, rfl⟩ := hwf
  have hle := h.chars_le chars
  have hencode : toUtf8 (chars.map wide) = chars.flatMap String.utf8EncodeChar := by
    have hcongr : (chars.map wide).flatMap encodeChar = chars.flatMap String.utf8EncodeChar := by
      rw [List.flatMap_map]
      exact List.flatMap_congr fun c hc => encodeChar_wide (hle c hc)
    rw [toUtf8, utf16Toutf8, hcongr]
    split
    next hempty =>
      rw [List.isEmpty_iff, List.map_eq_nil_iff] at hempty
      rw [hempty, List.flatMap_nil]
    next => rfl
  rw [← hencode, (roundTrip_iff chars).mpr hle]

/-! ## Malformed strings -/

/-- **Malformed strings**: one is rejected if and only if the decoder runs into a stray or
invalid lead byte, or into the end of the string inside a sequence. Of the strings that are
well-formed or rejected, no two decode to the same characters. -/
theorem rejects_iff (s : List Byte) :
    (Rejects s ↔ WellFormed s ∨ ¬ Framed s) ∧
      ∀ t, Rejects s → Rejects t → fromUtf8 s = fromUtf8 t → fromUtf8 s ≠ [] → s = t := by
  constructor
  · by_cases hs : s = []
    · subst hs
      exact ⟨fun _ => .inl ⟨[], rfl⟩, fun _ _ => rfl⟩
    · rw [Rejects, fromUtf8_eq_nil_iff hs]
      exact or_iff_not_imp_left.symm
  · intro t hs ht heq hne
    have hback : ∀ u, Rejects u → fromUtf8 u ≠ [] → toUtf8 (fromUtf8 u) = u := by
      intro u hu hdecoded
      have hwf : WellFormed u := by
        by_contra hmalformed
        exact hdecoded (hu hmalformed)
      have hnil : u ≠ [] := by
        rintro rfl
        exact hdecoded rfl
      have hframed : Framed u := by
        by_contra hcut
        exact hdecoded ((fromUtf8_eq_nil_iff hnil).mpr hcut)
      exact toUtf8_fromUtf8 hwf hframed
    calc s = toUtf8 (fromUtf8 s) := (hback s hs hne).symm
      _ = toUtf8 (fromUtf8 t) := congrArg toUtf8 heq
      _ = t := hback t ht (heq ▸ hne)

/-- A lead byte followed by the letter `A` is decoded like U+00C1. -/
theorem not_rejects_letter :
    ¬ WellFormed [0xC3, 0x41] ∧ fromUtf8 [0xC3, 0x41] = [0xC1#32] ∧
      WellFormed [0xC3, 0x81] ∧ fromUtf8 [0xC3, 0x81] = [0xC1#32] ∧ ¬ Rejects [0xC3, 0x41] := by
  have hmalformed : ¬ WellFormed [0xC3, 0x41] := fun hwf =>
    absurd (toUtf8_fromUtf8 hwf (.two (by decide) .nil)) (by decide)
  have hdecoded : fromUtf8 [0xC3, 0x41] ≠ [] := by decide
  exact ⟨hmalformed, by decide, ⟨[Char.ofNat 0xC1], by decide⟩, by decide,
    fun hrejects => hdecoded (hrejects hmalformed)⟩

end Utils

end XiaoNet
