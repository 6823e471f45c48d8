import Mathlib.Data.List.TakeWhile
import XiaoNet.Lib.Ends
import XiaoNet.Utils.MsgBuffer

/-!
# `verifySslName`

Does the name of a certificate, which may have a `*`, match a host name? The function of
`utils/Utilities.cpp` treats four positions of the `*` in the part before the first `.` in four
ways. An index that is not that of a character of the string ends it with `Fault.outOfBounds`, and
so does the exception of `std::string::compare`. A string is shorter than `2 ^ 63`, so its size
converts to `intmax_t` as it is.

- `verifySslName_eq`: what it computes, for all strings; no index is out of range.
- `complete`: it accepts every name the pattern stands for.
-/

namespace XiaoNet

namespace Utils

def star : Byte := 0x2A

def dot : Byte := 0x2E

/-! ## Strings -/

/-- `s.find(c)`; `none` is `npos`. -/
def find (s : List Byte) (c : Byte) : Option Nat := s.findIdx? (· == c)

/-- `s[i]`. -/
def charAt (s : List Byte) (i : Int) : Except Fault Byte :=
  if h : 0 ≤ i ∧ i.toNat < s.length then .ok s[i.toNat] else .error .outOfBounds

/-- `s.compare(pos, len, t) == 0`. -/
def compareEq (s : List Byte) (pos len : Nat) (t : List Byte) : Except Fault Bool :=
  if pos ≤ s.length then .ok (Block.slice s pos len == t) else .error .outOfBounds

/-- `s.compare(pos, len, t, tPos, tLen) == 0`. -/
def compareRangesEq (s : List Byte) (pos len : Nat) (t : List Byte) (tPos tLen : Nat) :
    Except Fault Bool :=
  if pos ≤ s.length ∧ tPos ≤ t.length then
    .ok (Block.slice s pos len == Block.slice t tPos tLen)
  else .error .outOfBounds

/-! ## The function -/

/-- `firstDot` and `pos` of a name: where its first label ends and where the rest begins. -/
def labelEnd (name : List Byte) : Nat × Nat :=
  match find name dot with
  | some firstDot => (firstDot, firstDot + 1)
  | none => (name.length, name.length)

/-- Does `hostname` end with `certName` without its first character? -/
def compareEnds (certName hostname : List Byte) (hostnameIdx certNameIdx : Int) :
    Except Fault Bool :=
  if hostnameIdx ≥ 0 ∧ certNameIdx ≠ 0 then do
    let h ← charAt hostname hostnameIdx
    let c ← charAt certName certNameIdx
    if h ≠ c then .ok false
    else compareEnds certName hostname (hostnameIdx - 1) (certNameIdx - 1)
  else .ok (certNameIdx == 0)
termination_by (hostnameIdx + 1).toNat

/-- The loop over the characters in front of the `*`. -/
def compareStarts (certName hostname : List Byte) (hostFirstDot firstDot i : Nat) :
    Except Fault Bool :=
  if i < hostFirstDot ∧ i < firstDot then do
    let c ← charAt certName i
    if c = star then .ok true
    else do
      let h ← charAt hostname i
      if h ≠ c then .ok false
      else compareStarts certName hostname hostFirstDot firstDot (i + 1)
  else .ok true
termination_by hostFirstDot - i

/-- The loop over the characters behind the `*`. -/
def compareLabelEnds (certName hostname : List Byte) (hostnameIdx certNameIdx : Int) :
    Except Fault Bool :=
  if hostnameIdx ≥ 0 ∧ certNameIdx ≥ 0 then do
    let c ← charAt certName certNameIdx
    if c = star then .ok true
    else do
      let h ← charAt hostname hostnameIdx
      if h ≠ c then .ok false
      else compareLabelEnds certName hostname (hostnameIdx - 1) (certNameIdx - 1)
  else .ok true
termination_by (hostnameIdx + 1).toNat

def verifySslName (certName hostname : List Byte) : Except Fault Bool :=
  if find certName star = none then .ok (certName == hostname)
  else do
    let (firstDot, pos) := labelEnd certName
    let (hostFirstDot, hostPos) := labelEnd hostname
    let len := certName.length - pos
    let hostLen := hostname.length - hostPos
    -- *. in the beginning of the cert name
    if ← compareEq certName 0 firstDot [star] then
      compareRangesEq certName pos len hostname hostPos hostLen
    -- * in the left most, but other chars in the right
    else if (← charAt certName 0) = star then
      compareEnds certName hostname (hostname.length - 1) (certName.length - 1)
    -- * in the right of the first dot
    else if ← (if firstDot ≠ 0 then (· == star) <$> charAt certName (firstDot - 1) else .ok false)
    then
      if ← compareRangesEq certName pos len hostname hostPos hostLen then
        compareStarts certName hostname hostFirstDot firstDot 0
      else .ok false
    -- else there's a * in the middle
    else if ← compareRangesEq certName pos len hostname hostPos hostLen then
      if ← compareStarts certName hostname hostFirstDot firstDot 0 then
        compareLabelEnds certName hostname (hostFirstDot - 1) (firstDot - 1)
      else .ok false
    else .ok false

/-! ## The parts of a name -/

/-- What stands before the first dot. -/
def firstLabel (name : List Byte) : List Byte := name.takeWhile (· != dot)

/-- What stands behind the first dot, if there is one. -/
def afterDot (name : List Byte) : Option (List Byte) := (name.dropWhile (· != dot)).tail?

/-- What the first label has in front of its star. -/
def beforeStar (name : List Byte) : List Byte := (firstLabel name).takeWhile (· != star)

/-- What the first label has behind its last star, from the end. -/
def afterStarRev (name : List Byte) : List Byte :=
  (firstLabel name).reverse.takeWhile (· != star)

variable {certName hostname : List Byte}

theorem labelEnd_cons_dot (name : List Byte) : labelEnd (dot :: name) = (0, 1) := by
  rw [labelEnd, find, List.findIdx?_cons, beq_self_eq_true]
  rfl

theorem labelEnd_cons {c : Byte} (hc : c ≠ dot) (name : List Byte) :
    labelEnd (c :: name) = ((labelEnd name).1 + 1, (labelEnd name).2 + 1) := by
  have hfind : find (c :: name) dot = (find name dot).map (· + 1) := by
    rw [find, List.findIdx?_cons, beq_eq_false_iff_ne.mpr hc]
    rfl
  rw [labelEnd, labelEnd, hfind]
  cases find name dot <;> rfl

/-- Both positions cut the name where its parts end and begin. -/
theorem labelEnd_spec (name : List Byte) :
    name.take (labelEnd name).1 = firstLabel name ∧ (labelEnd name).1 ≤ name.length ∧
      name.drop (labelEnd name).2 = (afterDot name).getD [] ∧
      (labelEnd name).2 ≤ name.length := by
  induction name with
  | nil => exact ⟨rfl, le_refl _, rfl, le_refl _⟩
  | cons c name ih =>
    by_cases hc : c = dot
    · subst hc
      rw [labelEnd_cons_dot]
      exact ⟨rfl, Nat.zero_le _, rfl, Nat.succ_le_succ (Nat.zero_le _)⟩
    · have hne : (c != dot) = true := bne_iff_ne.mpr hc
      obtain ⟨htake, hle, hdrop, hle₂⟩ := ih
      rw [labelEnd_cons hc]
      refine ⟨?_, Nat.succ_le_succ hle, ?_, Nat.succ_le_succ hle₂⟩
      · rw [List.take_succ_cons, htake, firstLabel, firstLabel, List.takeWhile_cons, if_pos hne]
      · rw [List.drop_succ_cons, hdrop, afterDot, afterDot, List.dropWhile_cons, if_pos hne]

theorem slice_rest (name : List Byte) :
    Block.slice name (labelEnd name).2 (name.length - (labelEnd name).2)
      = (afterDot name).getD [] := by
  obtain ⟨-, -, hdrop, -⟩ := labelEnd_spec name
  rw [Block.slice, ← List.length_drop, List.take_length, hdrop]

/-! ## The loops -/

theorem charAt_eq {s : List Byte} {i : Nat} (h : i < s.length) : charAt s i = .ok s[i] :=
  dif_pos ⟨Int.natCast_nonneg i, h⟩

/-- The loop in front of the star: the labels agree from `i` up to the star. -/
theorem compareStarts_eq {hostFirstDot firstDot : Nat} (hhost : hostFirstDot ≤ hostname.length)
    (hcert : firstDot ≤ certName.length) (i : Nat) :
    compareStarts certName hostname hostFirstDot firstDot i
      = .ok (Ends.agree (((certName.take firstDot).drop i).takeWhile (· != star))
          ((hostname.take hostFirstDot).drop i)) := by
  -- on what is left of the label of the host
  induction hk : hostFirstDot - i generalizing i with
  | zero =>
    have hnil : (hostname.take hostFirstDot).drop i = [] :=
      List.drop_eq_nil_of_le (by rw [List.length_take]; omega)
    rw [compareStarts, if_neg (by omega), hnil, Ends.agree_nil_right]
  | succ k ih =>
    rw [compareStarts]
    by_cases hfirst : i < firstDot
    · have hc : i < certName.length := by omega
      have hh : i < hostname.length := by omega
      have hcertDrop : (certName.take firstDot).drop i
          = certName[i] :: (certName.take firstDot).drop (i + 1) := by
        rw [List.drop_eq_getElem_cons (by rw [List.length_take]; omega), List.getElem_take]
      have hhostDrop : (hostname.take hostFirstDot).drop i
          = hostname[i] :: (hostname.take hostFirstDot).drop (i + 1) := by
        rw [List.drop_eq_getElem_cons (by rw [List.length_take]; omega), List.getElem_take]
      rw [if_pos ⟨by omega, hfirst⟩, charAt_eq hc, charAt_eq hh, ok_bind, ok_bind, hcertDrop,
        hhostDrop, List.takeWhile_cons]
      by_cases hstar : certName[i] = star
      · -- the star ends the comparison
        rw [if_pos hstar, if_neg (by simp [hstar]), Ends.agree_nil]
      · rw [if_neg hstar, if_pos (bne_iff_ne.mpr hstar), Ends.agree_cons]
        by_cases hsame : hostname[i] = certName[i]
        · rw [if_neg (fun hne => hne hsame), ih (i + 1) (by omega), hsame, beq_self_eq_true,
            Bool.true_and]
        · rw [if_pos hsame, beq_eq_false_iff_ne.mpr (Ne.symm hsame), Bool.false_and]
    · have hnil : (certName.take firstDot).drop i = [] :=
        List.drop_eq_nil_of_le (by rw [List.length_take]; omega)
      rw [if_neg (fun h => hfirst h.2), hnil]
      rfl

theorem reverse_take_succ {s : List Byte} {n : Nat} (h : n < s.length) :
    (s.take (n + 1)).reverse = s[n] :: (s.take n).reverse := by
  rw [List.take_succ_eq_append_getElem h, List.reverse_append]
  rfl

/-- The loop behind the star: the labels agree from their ends up to the star. -/
theorem compareLabelEnds_eq (n m : Nat) (hn : n ≤ hostname.length) (hm : m ≤ certName.length) :
    compareLabelEnds certName hostname ((n : Int) - 1) ((m : Int) - 1)
      = .ok (Ends.agree ((certName.take m).reverse.takeWhile (· != star))
          (hostname.take n).reverse) := by
  -- from behind: on the length of the label of the host
  induction n generalizing m with
  | zero =>
    rw [compareLabelEnds, if_neg (by omega), List.take_zero, List.reverse_nil,
      Ends.agree_nil_right]
  | succ n ih =>
    cases m with
    | zero =>
      rw [compareLabelEnds, if_neg (by omega)]
      rfl
    | succ m =>
      have hhost : ((n + 1 : Nat) : Int) - 1 = n := by omega
      have hcert : ((m + 1 : Nat) : Int) - 1 = m := by omega
      rw [hhost, hcert, compareLabelEnds, if_pos ⟨by omega, by omega⟩, charAt_eq hm, charAt_eq hn,
        ok_bind, ok_bind, reverse_take_succ hn, reverse_take_succ hm, List.takeWhile_cons]
      by_cases hstar : certName[m] = star
      · rw [if_pos hstar, if_neg (by simp [hstar]), Ends.agree_nil]
      · rw [if_neg hstar, if_pos (bne_iff_ne.mpr hstar), Ends.agree_cons]
        by_cases hsame : hostname[n] = certName[m]
        · rw [if_neg (fun hne => hne hsame), ih m (by omega) (by omega), hsame, beq_self_eq_true,
            Bool.true_and]
        · rw [if_pos hsame, beq_eq_false_iff_ne.mpr (Ne.symm hsame), Bool.false_and]

/-- The loop over the whole names: the host name ends with the name of the certificate without
its first character. -/
theorem compareEnds_eq (n m : Nat) (hn : n ≤ hostname.length) (hm : m < certName.length) :
    compareEnds certName hostname ((n : Int) - 1) m
      = .ok ((certName.tail.take m).reverse.isPrefixOf (hostname.take n).reverse) := by
  -- from behind again, down to the star at the start of the name
  induction n generalizing m with
  | zero =>
    rw [compareEnds, if_neg (by omega), List.take_zero, List.reverse_nil]
    cases m with
    | zero => rfl
    | succ m =>
      have hm : m < certName.tail.length := by
        rw [List.length_tail]
        omega
      rw [reverse_take_succ hm]
      exact congrArg Except.ok (beq_eq_false_iff_ne.mpr (by omega))
  | succ n ih =>
    cases m with
    | zero =>
      rw [compareEnds, if_neg (by omega)]
      rfl
    | succ m =>
      have htail : m < certName.tail.length := by
        rw [List.length_tail]
        omega
      have hhost : ((n + 1 : Nat) : Int) - 1 = n := by omega
      have hcert : ((m + 1 : Nat) : Int) - 1 = m := by omega
      rw [hhost, compareEnds, if_pos ⟨by omega, by omega⟩, charAt_eq hm, charAt_eq hn,
        ok_bind, ok_bind, reverse_take_succ hn, reverse_take_succ htail, List.getElem_tail, hcert,
        List.isPrefixOf]
      by_cases hsame : hostname[n] = certName[m + 1]
      · rw [if_neg (fun hne => hne hsame), ih m (by omega) (by omega), hsame, beq_self_eq_true,
          Bool.true_and]
      · rw [if_pos hsame, beq_eq_false_iff_ne.mpr (Ne.symm hsame), Bool.false_and]

/-! ## The result -/

/-- What `verifySslName` answers. -/
def answer (certName hostname : List Byte) : Bool :=
  if star ∉ certName then certName == hostname
  else if firstLabel certName = [star] then
    (afterDot certName).getD [] == (afterDot hostname).getD []
  else if certName.head? = some star then certName.tail.isSuffixOf hostname
  else
    (afterDot certName).getD [] == (afterDot hostname).getD [] &&
      (Ends.agree (beforeStar certName) (firstLabel hostname) &&
        Ends.agree (afterStarRev certName) (firstLabel hostname).reverse)

theorem find_eq_none {s : List Byte} {c : Byte} : find s c = none ↔ c ∉ s := by
  rw [find, List.findIdx?_eq_none_iff]
  constructor
  · intro h hmem
    exact absurd (h c hmem) (by simp)
  · rintro hmem x hx
    exact beq_eq_false_iff_ne.mpr fun heq => hmem (heq ▸ hx)

/-- The test of the character before the first dot. -/
theorem starLast_eq (certName : List Byte) :
    (if (labelEnd certName).1 ≠ 0 then
        (· == star) <$> charAt certName ((labelEnd certName).1 - 1)
      else .ok false)
      = (.ok ((firstLabel certName).reverse.head? == some star) : Except Fault Bool) := by
  obtain ⟨htake, hle, -⟩ := labelEnd_spec certName
  rw [← htake]
  cases hend : (labelEnd certName).1 with
  | zero => rfl
  | succ n =>
    rw [hend] at hle
    have hlast : ((n + 1 : Nat) : Int) - 1 = n := by omega
    rw [if_pos (Nat.succ_ne_zero n), hlast, charAt_eq hle, reverse_take_succ hle]
    rfl

/-- **What `verifySslName` computes**, for all strings: no index is out of range. -/
theorem verifySslName_eq (certName hostname : List Byte) :
    verifySslName certName hostname = .ok (answer certName hostname) := by
  by_cases hstar : star ∉ certName
  · rw [verifySslName, if_pos (find_eq_none.mpr hstar), answer, if_pos hstar]
  have hmem : star ∈ certName := not_not.mp hstar
  have hpos : 0 < certName.length := List.length_pos_of_mem hmem
  obtain ⟨htake, hle, -, hpos₂⟩ := labelEnd_spec certName
  obtain ⟨htakeHost, hleHost, -, hpos₂Host⟩ := labelEnd_spec hostname
  have hrests : compareRangesEq certName (labelEnd certName).2
      (certName.length - (labelEnd certName).2) hostname (labelEnd hostname).2
      (hostname.length - (labelEnd hostname).2)
        = .ok ((afterDot certName).getD [] == (afterDot hostname).getD []) := by
    rw [compareRangesEq, if_pos ⟨hpos₂, hpos₂Host⟩, slice_rest, slice_rest]
  have honly : compareEq certName 0 (labelEnd certName).1 [star]
      = .ok (firstLabel certName == [star]) := by
    rw [compareEq, if_pos (Nat.zero_le _), Block.slice, List.drop_zero, htake]
  have hends : compareEnds certName hostname (hostname.length - 1) (certName.length - 1)
      = .ok (certName.tail.isSuffixOf hostname) := by
    have hlast : (certName.length : Int) - 1 = ((certName.length - 1 : Nat) : Int) := by omega
    rw [hlast, compareEnds_eq _ _ (le_refl _) (by omega), List.take_length, ← List.length_tail,
      List.take_length]
    rfl
  have hstarts : compareStarts certName hostname (labelEnd hostname).1 (labelEnd certName).1 0
      = .ok (Ends.agree (beforeStar certName) (firstLabel hostname)) := by
    rw [compareStarts_eq hleHost hle, List.drop_zero, List.drop_zero, htake, htakeHost, beforeStar]
  have hlabelEnds : compareLabelEnds certName hostname ((labelEnd hostname).1 - 1)
      ((labelEnd certName).1 - 1)
        = .ok (Ends.agree (afterStarRev certName) (firstLabel hostname).reverse) := by
    rw [compareLabelEnds_eq _ _ hleHost hle, htake, htakeHost, afterStarRev]
  rw [verifySslName, if_neg (fun hnone => hstar (find_eq_none.mp hnone)), answer, if_neg hstar]
  dsimp only
  rw [honly, ok_bind]
  -- the four kinds of names with a star, in the order of the code
  by_cases hlabel : firstLabel certName = [star]
  · rw [if_pos hlabel, if_pos (beq_iff_eq.mpr hlabel), hrests]
  have hfirst : charAt certName 0 = .ok certName[0] := charAt_eq hpos
  have hhead : certName.head? = some certName[0] := by
    rw [List.head?_eq_getElem?, List.getElem?_eq_getElem hpos]
  rw [if_neg hlabel, if_neg (fun h => hlabel (beq_iff_eq.mp h)), hfirst, ok_bind, hhead]
  by_cases hleft : certName[0] = star
  · rw [if_pos hleft, if_pos (congrArg some hleft), hends]
  rw [if_neg hleft, if_neg (fun h => hleft (Option.some.inj h)), starLast_eq, ok_bind]
  cases hsame : (afterDot certName).getD [] == (afterDot hostname).getD [] with
  | false =>
    rw [hrests, hsame, Bool.false_and]
    split <;> rfl
  | true =>
    rw [hrests, hsame, hstarts, Bool.true_and]
    by_cases hlast : ((firstLabel certName).reverse.head? == some star) = true
    · -- nothing stands behind the star
      have hnone : afterStarRev certName = [] := by
        obtain ⟨rest, hrest⟩ := List.head?_eq_some_iff.mp (beq_iff_eq.mp hlast)
        rw [afterStarRev, hrest, List.takeWhile_cons, if_neg (by simp)]
      rw [if_pos hlast, hnone, Ends.agree_nil, Bool.and_true]
      rfl
    · rw [if_neg hlast]
      cases hagree : Ends.agree (beforeStar certName) (firstLabel hostname) with
      | false => rfl
      | true => exact hlabelEnds

/-! ## Names from their parts -/

/-- A name from its first label and what stands behind the dot. -/
def joinName (label : List Byte) : Option (List Byte) → List Byte
  | none => label
  | some rest => label ++ dot :: rest

theorem joinName_append (x label : List Byte) (rest : Option (List Byte)) :
    joinName (x ++ label) rest = x ++ joinName label rest := by
  cases rest with
  | none => rfl
  | some rest => exact List.append_assoc x label (dot :: rest)

/-- Every name is made of its parts. -/
theorem joinName_parts (name : List Byte) : joinName (firstLabel name) (afterDot name) = name := by
  have happend : firstLabel name ++ name.dropWhile (· != dot) = name :=
    List.takeWhile_append_dropWhile
  have hhead := List.head?_dropWhile_not (· != dot) name
  cases hdrop : name.dropWhile (· != dot) with
  | nil =>
    rw [hdrop, List.append_nil] at happend
    rw [afterDot, hdrop]
    exact happend
  | cons c rest =>
    rw [hdrop] at hhead happend
    have hc : c = dot := by simpa using hhead
    subst hc
    rw [afterDot, hdrop]
    exact happend

theorem bne_of_notMem {l : List Byte} {c : Byte} (h : c ∉ l) : ∀ b ∈ l, (b != c) = true :=
  fun _ hb => bne_iff_ne.mpr fun heq => h (heq ▸ hb)

theorem firstLabel_joinName {label : List Byte} (h : dot ∉ label) (rest : Option (List Byte)) :
    firstLabel (joinName label rest) = label := by
  cases rest with
  | none => exact List.takeWhile_eq_self_iff.mpr (bne_of_notMem h)
  | some rest =>
    rw [joinName, firstLabel, List.takeWhile_append_of_pos (bne_of_notMem h), List.takeWhile_cons,
      if_neg (by simp), List.append_nil]

theorem afterDot_joinName {label : List Byte} (h : dot ∉ label) (rest : Option (List Byte)) :
    afterDot (joinName label rest) = rest := by
  cases rest with
  | none =>
    rw [joinName, afterDot, List.dropWhile_eq_nil_iff.mpr (bne_of_notMem h)]
    rfl
  | some rest =>
    rw [joinName, afterDot, List.dropWhile_append_of_pos (bne_of_notMem h), List.dropWhile_cons,
      if_neg (by simp)]
    rfl

/-- The part in front of the star. -/
theorem beforeStar_joinName {p s : List Byte} (hp : star ∉ p) (hlabel : dot ∉ p ++ star :: s)
    (rest : Option (List Byte)) : beforeStar (joinName (p ++ star :: s) rest) = p := by
  rw [beforeStar, firstLabel_joinName hlabel, List.takeWhile_append_of_pos (bne_of_notMem hp),
    List.takeWhile_cons, if_neg (by simp), List.append_nil]

/-- The part behind the star. -/
theorem afterStarRev_joinName {p s : List Byte} (hs : star ∉ s) (hlabel : dot ∉ p ++ star :: s)
    (rest : Option (List Byte)) :
    afterStarRev (joinName (p ++ star :: s) rest) = s.reverse := by
  have hrev : (p ++ star :: s).reverse = s.reverse ++ star :: p.reverse := by
    rw [List.reverse_append, List.reverse_cons, List.append_assoc]
    rfl
  rw [afterStarRev, firstLabel_joinName hlabel, hrev,
    List.takeWhile_append_of_pos (bne_of_notMem fun h => hs (List.mem_reverse.mp h)),
    List.takeWhile_cons, if_neg (by simp), List.append_nil]

theorem star_ne_dot : star ≠ dot := by decide

theorem dot_notMem_label {p s : List Byte} (hp : dot ∉ p) (hs : dot ∉ s) :
    dot ∉ p ++ star :: s := by
  rw [List.mem_append, List.mem_cons, not_or, not_or]
  exact ⟨hp, star_ne_dot.symm, hs⟩

theorem star_mem_joinName (p s : List Byte) (rest : Option (List Byte)) :
    star ∈ joinName (p ++ star :: s) rest := by
  cases rest with
  | none => exact List.mem_append_right p List.mem_cons_self
  | some rest => exact List.mem_append_left _ (List.mem_append_right p List.mem_cons_self)

/-- What `verifySslName` answers for a pattern `p*s`, whatever stands behind its dot. -/
theorem answer_joinName {p s : List Byte} (hp : star ∉ p) (hs : star ∉ s)
    (hlabel : dot ∉ p ++ star :: s) (rest : Option (List Byte)) (hostname : List Byte) :
    answer (joinName (p ++ star :: s) rest) hostname =
      if p = [] ∧ s ≠ [] then (joinName s rest).isSuffixOf hostname
      else
        rest.getD [] == (afterDot hostname).getD [] &&
          (Ends.agree p (firstLabel hostname) &&
            Ends.agree s.reverse (firstLabel hostname).reverse) := by
  have hmem := star_mem_joinName p s rest
  rw [answer, if_neg (not_not.mpr hmem), firstLabel_joinName hlabel, afterDot_joinName hlabel,
    beforeStar_joinName hp hlabel, afterStarRev_joinName hs hlabel]
  -- the star is first in its label, or something stands before it
  cases p with
  | nil =>
    cases s with
    | nil =>
      rw [List.nil_append, if_pos rfl, if_neg (fun h => h.2 rfl), List.reverse_nil,
        Ends.agree_nil, Ends.agree_nil, Bool.and_self, Bool.and_true]
    | cons c s =>
      have hhead : (joinName ([] ++ star :: c :: s) rest).head? = some star := by
        cases rest <;> rfl
      have htail : (joinName ([] ++ star :: c :: s) rest).tail = joinName (c :: s) rest := by
        cases rest <;> rfl
      rw [if_neg (by simp), if_pos hhead, htail, if_pos ⟨rfl, List.cons_ne_nil c s⟩]
  | cons c p =>
    have hc : c ≠ star := fun heq => hp (heq ▸ List.mem_cons_self)
    have hhead : (joinName (c :: p ++ star :: s) rest).head? ≠ some star := by
      cases rest <;> exact fun h => hc (Option.some.inj h)
    have hone : c :: p ++ star :: s ≠ [star] := fun h => hc (List.cons.inj h).1
    rw [if_neg hone, if_neg hhead, if_neg (by simp)]

/-! ## Completeness -/

/-- The names a pattern stands for are accepted, whatever stands behind their dot. -/
theorem answer_matching {p s x : List Byte} (hp : star ∉ p) (hs : star ∉ s)
    (hdots : dot ∉ p ++ x ++ s) (rest : Option (List Byte)) :
    answer (joinName (p ++ star :: s) rest) (joinName (p ++ x ++ s) rest) = true := by
  have hlabel : dot ∉ p ++ star :: s := by
    rw [List.mem_append, List.mem_append, not_or, not_or] at hdots
    exact dot_notMem_label hdots.1.1 hdots.2
  rw [answer_joinName hp hs hlabel, firstLabel_joinName hdots, afterDot_joinName hdots]
  split
  next hcase =>
    rw [hcase.1, List.nil_append, joinName_append]
    exact List.isSuffixOf_iff_suffix.mpr (List.suffix_append x _)
  next =>
    have hlen : p.length + s.length ≤ (p ++ x ++ s).length := by
      rw [List.length_append, List.length_append]
      omega
    obtain ⟨hfront, hback⟩ := (Ends.between hlen).mpr ⟨x, rfl⟩
    rw [hfront, hback, beq_self_eq_true]
    rfl

/-- **Completeness**: `p*s` and `p*s.rest` accept every `p x s` and `p x s.rest`, and a name
without a star accepts itself. Nothing is used out of range. -/
theorem complete {p s x rest hostname : List Byte} (hpDot : dot ∉ p) (hsDot : dot ∉ s)
    (hxDot : dot ∉ x) (hp : star ∉ p) (hs : star ∉ s) (hhost : star ∉ hostname) :
    verifySslName (p ++ star :: s) (p ++ x ++ s) = .ok true ∧
      verifySslName (p ++ star :: s ++ dot :: rest) (p ++ x ++ s ++ dot :: rest) = .ok true ∧
      verifySslName hostname hostname = .ok true := by
  have hdots : dot ∉ p ++ x ++ s := by
    rw [List.mem_append, List.mem_append, not_or, not_or]
    exact ⟨⟨hpDot, hxDot⟩, hsDot⟩
  refine ⟨?_, ?_, ?_⟩
  · rw [verifySslName_eq]
    exact congrArg Except.ok (answer_matching hp hs hdots none)
  · rw [verifySslName_eq]
    exact congrArg Except.ok (answer_matching hp hs hdots (some rest))
  · rw [verifySslName_eq, answer, if_pos hhost, beq_self_eq_true]

/-- `a*c` and `ac`, `a*c.d` and `ac.d`: the star stands for nothing. -/
theorem complete_nothing :
    verifySslName [97, star, 99] [97, 99] = .ok true ∧
      verifySslName [97, star, 99, dot, 100] [97, 99, dot, 100] = .ok true ∧
      verifySslName [100] [100] = .ok true :=
  @complete [97] [99] [] [100] [100] (by decide) (by decide) (by decide) (by decide) (by decide)
    (by decide)

end Utils

end XiaoNet
