import XiaoNet.Lib.History
import XiaoNet.Utils.VerifySslName

/-!
# What `verifySslName` accepts

A host name that is accepted should be the name of the certificate with characters of one label
in the place of the star (`Sound`). Two things get in the way.

- `DotUnderStar`: with the star in front of other characters the whole names are compared from
  their ends, so the star also stands for dots.
- `Misfit`: otherwise each part of the label is compared with the label of the host name only as
  far as both go, so the parts may overlap or reach beyond it; and a rest that is empty is the same
  as none.

`sound_iff`: what is accepted is sound exactly when neither is the case.
-/

namespace XiaoNet

namespace Utils

/-- One star, in the first label. -/
def OneStar (certName : List Byte) : Prop :=
  certName.count star = 1 ∧ star ∈ firstLabel certName

instance (certName : List Byte) : Decidable (OneStar certName) :=
  inferInstanceAs (Decidable (_ ∧ _))

/-- The names are the same, or the star stands for characters of the host name's first label. -/
def Sound (certName hostname : List Byte) : Prop :=
  star ∉ certName ∧ certName = hostname ∨
    ∃ p s x, firstLabel certName = p ++ star :: s ∧ firstLabel hostname = p ++ x ++ s ∧
      afterDot certName = afterDot hostname

/-- The host name ends as the certificate's name goes on behind its leading star, and there is a
dot in what stands before. -/
def DotUnderStar (certName hostname : List Byte) : Prop :=
  certName.head? = some star ∧ firstLabel certName ≠ [star] ∧
    ∃ y, hostname = y ++ certName.tail ∧ dot ∈ y

/-- What is compared agrees, but the label of the host name is shorter than the parts around the
star together, or only one of the names has a dot. -/
def Misfit (certName hostname : List Byte) : Prop :=
  star ∈ certName ∧ (certName.head? = some star → firstLabel certName = [star]) ∧
    (afterDot certName).getD [] = (afterDot hostname).getD [] ∧
    Ends.agree (beforeStar certName) (firstLabel hostname) = true ∧
    Ends.agree (afterStarRev certName) (firstLabel hostname).reverse = true ∧
    ((firstLabel hostname).length < (beforeStar certName).length + (afterStarRev certName).length ∨
      ¬ (dot ∈ certName ↔ dot ∈ hostname))

instance (certName hostname : List Byte) : Decidable (Misfit certName hostname) :=
  inferInstanceAs (Decidable (_ ∧ (_ → _) ∧ _ ∧ _ ∧ _ ∧ (_ ∨ ¬ (_ ↔ _))))

/-! ## The pattern of a name -/

theorem dot_notMem_firstLabel (name : List Byte) : dot ∉ firstLabel name := fun hmem =>
  absurd (List.mem_takeWhile_imp hmem) (by simp)

/-- A name with one star in its first label. -/
theorem OneStar.pattern {certName : List Byte} (h : OneStar certName) :
    ∃ p s rest, star ∉ p ∧ star ∉ s ∧ dot ∉ p ++ star :: s ∧
      certName = joinName (p ++ star :: s) rest := by
  obtain ⟨hcount, hmem⟩ := h
  obtain ⟨p, s, hlabel⟩ := List.append_of_mem hmem
  have hparts := joinName_parts certName
  have hdot := dot_notMem_firstLabel certName
  rw [hlabel] at hparts hdot
  have hle : (p ++ star :: s).count star ≤ certName.count star := by
    rw [← hparts]
    cases afterDot certName with
    | none => exact le_refl _
    | some rest => exact (List.sublist_append_left _ _).count_le star
  rw [hcount, List.count_append, List.count_cons_self] at hle
  refine ⟨p, s, afterDot certName, ?_, ?_, hdot, hparts.symm⟩
  · exact List.count_eq_zero.mp (by omega)
  · exact List.count_eq_zero.mp (by omega)

theorem afterDot_isSome (name : List Byte) : (afterDot name).isSome ↔ dot ∈ name := by
  have hparts := joinName_parts name
  have hlabel := dot_notMem_firstLabel name
  cases hrest : afterDot name with
  | none =>
    rw [hrest] at hparts
    rw [← hparts]
    exact iff_of_false (by simp) hlabel
  | some rest =>
    rw [hrest] at hparts
    rw [← hparts]
    exact iff_of_true rfl (List.mem_append_right _ List.mem_cons_self)

/-- Rests that are compared as the same are the same when both names have a dot or none has. -/
theorem afterDot_eq_iff {certName hostname : List Byte}
    (h : (afterDot certName).getD [] = (afterDot hostname).getD []) :
    afterDot certName = afterDot hostname ↔ (dot ∈ certName ↔ dot ∈ hostname) := by
  rw [← afterDot_isSome, ← afterDot_isSome]
  cases hc : afterDot certName <;> cases hh : afterDot hostname <;> simp_all

/-- What soundness says of a pattern. -/
theorem sound_joinName {p s : List Byte} (hp : star ∉ p) (hs : star ∉ s)
    (hlabel : dot ∉ p ++ star :: s) (rest : Option (List Byte)) (hostname : List Byte) :
    Sound (joinName (p ++ star :: s) rest) hostname ↔
      (∃ x, firstLabel hostname = p ++ x ++ s) ∧ rest = afterDot hostname := by
  have hmem := star_mem_joinName p s rest
  rw [Sound, firstLabel_joinName hlabel, afterDot_joinName hlabel]
  constructor
  · rintro (⟨hnone, -⟩ | ⟨p', s', x, hsame, hhost, hrest⟩)
    · exact absurd hmem hnone
    · obtain ⟨rfl, rfl⟩ := History.split_unique (p := fun b => b = star) hsame rfl
        (fun a ha heq => hp (heq ▸ ha)) (fun a ha heq => hs (heq ▸ ha))
      exact ⟨⟨x, hhost⟩, hrest⟩
  · rintro ⟨⟨x, hhost⟩, hrest⟩
    exact .inr ⟨p, s, x, rfl, hhost, hrest⟩

/-! ## The two cases -/

/-- The star in front of other characters. -/
theorem leading_sound_iff {s : List Byte} (rest : Option (List Byte)) (hostname : List Byte)
    (hs : dot ∉ s) :
    (joinName s rest <:+ hostname →
        (∃ x, firstLabel hostname = x ++ s) ∧ rest = afterDot hostname) ↔
      ¬ ∃ y, hostname = y ++ joinName s rest ∧ dot ∈ y := by
  constructor
  · -- a dot in `y` would be one in the first label of the host
    rintro hsound ⟨y, rfl, hy⟩
    obtain ⟨⟨x, hlabel⟩, hrest⟩ := hsound (List.suffix_append y _)
    have hparts := joinName_parts (y ++ joinName s rest)
    rw [hlabel, ← hrest, joinName_append] at hparts
    have hxy : x = y := List.append_cancel_right hparts
    have hnone := dot_notMem_firstLabel (y ++ joinName s rest)
    rw [hlabel, hxy] at hnone
    exact hnone (List.mem_append_left s hy)
  · rintro hnone ⟨y, rfl⟩
    have hy : dot ∉ y := fun hmem => hnone ⟨y, rfl, hmem⟩
    have hlabel : dot ∉ y ++ s := by
      rw [List.mem_append, not_or]
      exact ⟨hy, hs⟩
    rw [← joinName_append, firstLabel_joinName hlabel, afterDot_joinName hlabel]
    exact ⟨⟨y, rfl⟩, rfl⟩

/-- The star behind other characters, or alone. -/
theorem parts_sound_iff {p s : List Byte} {certName hostname : List Byte}
    (hrests : (afterDot certName).getD [] = (afterDot hostname).getD [])
    (hfront : Ends.agree p (firstLabel hostname) = true)
    (hback : Ends.agree s.reverse (firstLabel hostname).reverse = true) :
    (∃ x, firstLabel hostname = p ++ x ++ s) ∧ afterDot certName = afterDot hostname ↔
      ¬ ((firstLabel hostname).length < p.length + s.length ∨
        ¬ (dot ∈ certName ↔ dot ∈ hostname)) := by
  rw [not_or, not_not, Nat.not_lt, afterDot_eq_iff hrests]
  refine and_congr_left fun _ => ⟨?_, fun hlen => (Ends.between hlen).mp ⟨hfront, hback⟩⟩
  rintro ⟨x, hlabel⟩
  rw [hlabel, List.length_append, List.length_append]
  omega

theorem head_joinName {p s : List Byte} (hp : star ∉ p) (rest : Option (List Byte)) :
    (joinName (p ++ star :: s) rest).head? = some star ↔ p = [] := by
  cases p with
  | nil => cases rest <;> exact iff_of_true rfl rfl
  | cons c p =>
    have hc : c ≠ star := fun heq => hp (heq ▸ List.mem_cons_self)
    cases rest <;> exact ⟨fun h => absurd (Option.some.inj h) hc, fun h => absurd h (by simp)⟩

/-- A dot under the star needs a leading star with characters behind it. -/
theorem dotUnderStar_joinName {p s : List Byte} (hp : star ∉ p) (hlabel : dot ∉ p ++ star :: s)
    (rest : Option (List Byte)) (hostname : List Byte) :
    DotUnderStar (joinName (p ++ star :: s) rest) hostname ↔
      (p = [] ∧ s ≠ []) ∧ ∃ y, hostname = y ++ joinName s rest ∧ dot ∈ y := by
  rw [DotUnderStar, head_joinName hp, firstLabel_joinName hlabel, and_assoc]
  refine and_congr_right fun hnil => ?_
  subst hnil
  have htail : (joinName ([] ++ star :: s) rest).tail = joinName s rest := by
    cases rest <;> rfl
  rw [htail, List.nil_append, ne_eq, List.cons_inj_right]

/-- In the other cases a misfit is what keeps an accepted name from being sound. -/
theorem misfit_joinName {p s : List Byte} (hp : star ∉ p) (hs : star ∉ s)
    (hlabel : dot ∉ p ++ star :: s) (rest : Option (List Byte)) (hostname : List Byte) :
    Misfit (joinName (p ++ star :: s) rest) hostname ↔
      ¬ (p = [] ∧ s ≠ []) ∧ rest.getD [] = (afterDot hostname).getD [] ∧
        Ends.agree p (firstLabel hostname) = true ∧
        Ends.agree s.reverse (firstLabel hostname).reverse = true ∧
        ((firstLabel hostname).length < p.length + s.length ∨
          ¬ (dot ∈ joinName (p ++ star :: s) rest ↔ dot ∈ hostname)) := by
  have hcase : (p = [] → p ++ star :: s = [star]) ↔ ¬ (p = [] ∧ s ≠ []) := by
    rw [not_and, not_not]
    refine forall_congr' fun hnil => ?_
    rw [hnil, List.nil_append, List.cons_inj_right]
  rw [Misfit, head_joinName hp, firstLabel_joinName hlabel, afterDot_joinName hlabel,
    beforeStar_joinName hp hlabel, afterStarRev_joinName hs hlabel, List.length_reverse, hcase]
  exact and_iff_right (star_mem_joinName p s rest)

/-- **Soundness**: for a certificate name without a star, or with one in its first label, what
is accepted is sound if and only if the star does not stand for a dot and the parts around it fit
the host name. -/
theorem sound_iff {certName : List Byte} (hcert : star ∉ certName ∨ OneStar certName)
    (hostname : List Byte) :
    (verifySslName certName hostname = .ok true → Sound certName hostname) ↔
      ¬ DotUnderStar certName hostname ∧ ¬ Misfit certName hostname := by
  have haccept : verifySslName certName hostname = .ok true ↔ answer certName hostname = true := by
    rw [verifySslName_eq, Except.ok.injEq]
  rw [haccept]
  -- without a star the names are compared as they are
  rcases hcert with hnone | hone
  · refine ⟨fun _ => ⟨fun hdots => ?_, fun hmisfit => hnone hmisfit.1⟩, fun _ hanswer => ?_⟩
    · exact hnone (List.mem_of_mem_head? hdots.1)
    · rw [answer, if_pos hnone, beq_iff_eq] at hanswer
      exact .inl ⟨hnone, hanswer⟩
  obtain ⟨p, s, rest, hp, hs, hlabel, rfl⟩ := hone.pattern
  rw [answer_joinName hp hs hlabel, sound_joinName hp hs hlabel,
    dotUnderStar_joinName hp hlabel, misfit_joinName hp hs hlabel]
  -- with the star in front only the end of the host is looked at
  by_cases hlead : p = [] ∧ s ≠ []
  · obtain ⟨rfl, hne⟩ := hlead
    have hdot : dot ∉ s := fun hmem => hlabel (List.mem_cons_of_mem star hmem)
    rw [if_pos ⟨rfl, hne⟩, List.isSuffixOf_iff_suffix]
    refine (leading_sound_iff rest hostname hdot).trans ⟨fun hnone => ⟨?_, ?_⟩, fun h => ?_⟩
    · exact fun hdots => hnone hdots.2
    · exact fun hmisfit => hmisfit.1 ⟨rfl, hne⟩
    · exact fun hdots => h.1 ⟨⟨rfl, hne⟩, hdots⟩
  · rw [if_neg hlead, Bool.and_eq_true, Bool.and_eq_true, beq_iff_eq]
    have hafter := afterDot_joinName hlabel rest
    constructor
    · intro hsound
      refine ⟨fun hdots => hlead hdots.1, ?_⟩
      rintro ⟨-, hrests, hfront, hback, hbad⟩
      have hgood := hsound ⟨hrests, hfront, hback⟩
      rw [← hafter] at hgood hrests
      exact (parts_sound_iff hrests hfront hback).mp hgood hbad
    · rintro ⟨-, hfit⟩ ⟨hrests, hfront, hback⟩
      have hgood : ¬ ((firstLabel hostname).length < p.length + s.length ∨
          ¬ (dot ∈ joinName (p ++ star :: s) rest ↔ dot ∈ hostname)) :=
        fun hbad => hfit ⟨hlead, hrests, hfront, hback, hbad⟩
      rw [← hafter] at hrests
      have hsound := (parts_sound_iff hrests hfront hback).mpr hgood
      rwa [hafter] at hsound

/-- `a*c.d` and `abc.d`. -/
theorem sound_iff_abc : Sound [97, star, 99, dot, 100] [97, 98, 99, dot, 100] := by
  have haccept : verifySslName [97, star, 99, dot, 100] [97, 98, 99, dot, 100] = .ok true := by
    rw [verifySslName_eq]
    rfl
  exact (sound_iff (.inr (by decide)) [97, 98, 99, dot, 100]).mpr
    ⟨fun hdots => absurd hdots.1 (by decide), by decide⟩ haccept

/-- `abc*.d` accepts `ab.d`, whose label is shorter than what stands in front of the star, and
`*c.d` accepts `a.bc.d`. -/
theorem not_sound_short :
    (OneStar [97, 98, 99, star, dot, 100] ∧
      verifySslName [97, 98, 99, star, dot, 100] [97, 98, dot, 100] = .ok true ∧
      ¬ Sound [97, 98, 99, star, dot, 100] [97, 98, dot, 100]) ∧
    OneStar [star, 99, dot, 100] ∧
      verifySslName [star, 99, dot, 100] [97, dot, 98, 99, dot, 100] = .ok true ∧
      ¬ Sound [star, 99, dot, 100] [97, dot, 98, 99, dot, 100] := by
  refine ⟨⟨by decide, ?_, fun hsound => ?_⟩, by decide, ?_, fun hsound => ?_⟩
  · rw [verifySslName_eq]
    rfl
  · obtain ⟨⟨x, hlabel⟩, -⟩ := (sound_joinName (p := [97, 98, 99]) (s := []) (by decide) (by decide)
      (by decide) (some [100]) [97, 98, dot, 100]).mp hsound
    have hlen := congrArg List.length hlabel
    rw [List.length_append, List.length_append] at hlen
    have hlabelLen : (firstLabel [97, 98, dot, 100]).length = 2 := rfl
    have hpartLen : ([97, 98, 99] : List Byte).length = 3 := rfl
    omega
  · rw [verifySslName_eq]
    rfl
  · obtain ⟨-, hrest⟩ := (sound_joinName (p := []) (s := [99]) (by decide) (by decide)
      (by decide) (some [100]) [97, dot, 98, 99, dot, 100]).mp hsound
    exact absurd hrest (by decide)

end Utils

end XiaoNet
