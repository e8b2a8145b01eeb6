import MarkupEval.Proofs.Json.Scalars
import MarkupEval.Proofs.Number.Whole

/-!
# Written digits read back

Wherever a layout puts the point, the reader finds the digits and the exponent that were written
(`readNumber_magnitudeChars`), up to the zero that follows the point of a whole number.
-/

namespace MarkupEval
namespace Json

open Text NumberLayout Binary64

/-- The digits and the exponent in the text of a magnitude: a whole number that is written out has a
zero after its point. -/
def textDigits (d : Nat) (k : Int) : Nat × Int :=
  if 0 ≤ k ∧ (digitChars d).length + k ≤ 16 then (d * 10 ^ k.toNat * 10, -1) else (d, k)

section
variable {ds rest : List Char} {v : Nat}

/-! ## Digits around the point -/

/-- Digits after the point that fit into the significand are all taken. -/
theorem foldl_pushFraction {e : Int} (h : Nat.ofDigitChars 10 ds v ≤ maxSignificand) :
    ds.foldl Significand.pushFraction ⟨v, false, e⟩ =
      ⟨Nat.ofDigitChars 10 ds v, false, e - ds.length⟩ := by
  induction ds generalizing v e with
  | nil => simp
  | cons c ds ih =>
    rw [Nat.ofDigitChars_cons, Nat.mul_comm] at h ⊢
    have hfits : ¬maxSignificand < v * 10 + digitValue c :=
      Nat.not_lt.mpr (Nat.le_trans (le_ofDigitChars ds _) h)
    rw [List.foldl_cons, Significand.pushFraction]
    simp only [Bool.false_or, decide_eq_true_eq, if_neg hfits]
    refine (ih h).trans ?_
    rw [List.length_cons]
    congr 1
    push_cast
    omega

theorem readFraction_digits (negative : Bool) (hne : ds ≠ []) (hds : ∀ c ∈ ds, isDigit c = true)
    (hrest : NoDigit rest) (h : Nat.ofDigitChars 10 ds v ≤ maxSignificand) :
    readFraction negative ⟨v, false, 0⟩ (ds ++ rest) =
      readFloatEnd negative ⟨Nat.ofDigitChars 10 ds v, false, -(ds.length : Int)⟩ rest := by
  have hsome : ds.isEmpty = false := List.isEmpty_eq_false_iff.mpr hne
  simp only [readFraction, takeWhile_isDigit_append hds hrest,
    dropWhile_isDigit_append hds hrest, hsome, Bool.false_eq_true, if_false,
    foldl_pushFraction h, Int.zero_sub]

/-- The digits before a point or an exponent. -/
theorem readNumber_digits (negative : Bool) {c mark : Char} {r : List Char} (hc : c ≠ '0')
    (hds : ∀ c' ∈ c :: ds, isDigit c' = true) (hmark : mark = '.' ∨ mark = 'e')
    (h : Nat.ofDigitChars 10 (c :: ds) 0 ≤ maxSignificand) :
    readNumber negative (c :: ds ++ mark :: r) =
      if mark = '.' then readFraction negative ⟨Nat.ofDigitChars 10 (c :: ds) 0, false, 0⟩ r
      else readExponent negative ⟨Nat.ofDigitChars 10 (c :: ds) 0, false, 0⟩ r := by
  obtain ⟨hfirst, hrest⟩ := List.forall_mem_cons.mp hds
  have hnodigit : NoDigit (mark :: r) := by rcases hmark with rfl | rfl <;> rfl
  have hvalue : Nat.ofDigitChars 10 (c :: ds) 0 = Nat.ofDigitChars 10 ds (digitValue c) := by
    rw [Nat.ofDigitChars_cons, Nat.mul_zero, Nat.zero_add]
    rfl
  rw [hvalue] at h ⊢
  rw [List.cons_append, readNumber]
  simp only [hfirst, hc, Bool.not_true, Bool.false_eq_true, if_false,
    takeWhile_isDigit_append hrest hnodigit, dropWhile_isDigit_append hrest hnodigit,
    foldl_pushWhole h]
  rcases hmark with rfl | rfl <;> rfl

theorem ofDigitChars_digitChars (n : Nat) : Nat.ofDigitChars 10 (digitChars n) 0 = n :=
  Nat.ofDigitChars_ten_toDigits

/-- The digits of a number that fits into the significand are read up to the point. -/
theorem readNumber_point (negative : Bool) {n : Nat} (h : n ≤ maxSignificand) (r : List Char) :
    readNumber negative (digitChars n ++ '.' :: r) = readFraction negative ⟨n, false, 0⟩ r := by
  by_cases hn : n = 0
  · subst hn
    rfl
  obtain ⟨c, ds, hds, hc⟩ := digitChars_eq_cons hn
  have hdigits : ∀ c' ∈ c :: ds, isDigit c' = true := fun c' hc' =>
    isDigit_of_mem_digitChars (hds ▸ hc')
  have hvalue : Nat.ofDigitChars 10 (c :: ds) 0 = n := hds ▸ ofDigitChars_digitChars n
  rw [hds, readNumber_digits negative hc hdigits (.inl rfl) (hvalue.symm ▸ h), if_pos rfl, hvalue]

theorem readFloatEnd_delimited (negative : Bool) (s : Significand) (hrest : Delimited rest) :
    readFloatEnd negative s rest = finishFloat negative s rest := by
  cases rest with
  | nil => rfl
  | cons c r => rcases hrest with rfl | rfl | rfl <;> rfl

/-! ## Exponents -/

theorem readExponentDigits_digits (hds : ∀ c ∈ ds, isDigit c = true) (hrest : NoDigit rest)
    (h : Nat.ofDigitChars 10 ds v ≤ maxExponent) :
    readExponentDigits v (ds ++ rest) = (some (Nat.ofDigitChars 10 ds v), rest) := by
  induction ds generalizing v with
  | nil =>
    cases rest with
    | nil => rfl
    | cons c r => simp [readExponentDigits, show isDigit c = false from hrest]
  | cons c ds ih =>
    obtain ⟨hc, hds⟩ := List.forall_mem_cons.mp hds
    rw [Nat.ofDigitChars_cons, Nat.mul_comm] at h ⊢
    have hfits : ¬maxExponent < v * 10 + digitValue c :=
      Nat.not_lt.mpr (Nat.le_trans (le_ofDigitChars ds _) h)
    rw [List.cons_append, readExponentDigits, if_pos hc]
    simp only [if_neg hfits]
    exact ih hds h

theorem readExponent_intChars (negative : Bool) (s : Significand) {e : Int}
    (he : e.natAbs ≤ maxExponent) (hrest : Delimited rest) :
    readExponent negative s (intChars e ++ rest) =
      finishFloat negative { s with exponent := s.exponent + e } rest := by
  obtain ⟨c, ds, hds⟩ := List.exists_cons_of_ne_nil (show digitChars e.natAbs ≠ [] from
    Nat.toDigits_ne_nil)
  have hdigits : ∀ c' ∈ c :: ds, isDigit c' = true := fun c' hc' =>
    isDigit_of_mem_digitChars (hds ▸ hc')
  obtain ⟨hc, hrestdigits⟩ := List.forall_mem_cons.mp hdigits
  have hvalue : Nat.ofDigitChars 10 ds (digitValue c) = e.natAbs := by
    have := Nat.ofDigitChars_ten_toDigits (n := e.natAbs)
    rwa [← digitChars, hds, Nat.ofDigitChars_cons, Nat.mul_zero, Nat.zero_add] at this
  have hread := readExponentDigits_digits hrestdigits hrest.noDigit (hvalue.symm ▸ he)
  have hplus : c ≠ '+' := by rintro rfl; exact absurd hc (by decide)
  have hminus : c ≠ '-' := by rintro rfl; exact absurd hc (by decide)
  unfold intChars
  split
  · next hneg =>
    rw [hds, List.cons_append, readExponent, readExponentSign]
    simp only [List.cons_append, hc, if_true, hread, hvalue]
    congr 3
    omega
  · next hnonneg =>
    have hsign : readExponentSign (c :: (ds ++ rest)) = (false, c :: (ds ++ rest)) := by
      unfold readExponentSign
      split <;> simp_all
    rw [hds, List.cons_append, readExponent, hsign]
    simp only [hc, if_true, hread, hvalue, Bool.false_eq_true, if_false]
    congr 3
    omega

end

/-! ## The layouts -/

section
variable {d : Nat} {k : Int} {rest : List Char}

theorem ofDigitChars_zeros (n : Nat) : Nat.ofDigitChars 10 (List.replicate n '0') 0 = 0 := by
  induction n with
  | zero => rfl
  | succ n ih => exact ih

/-- The point stands among the digits. -/
theorem readNumber_pointAmong (negative : Bool) {p : Nat} (hd : d ≠ 0) (hfits : d ≤ maxSignificand)
    (hp : 0 < p) (hp' : p < (digitChars d).length) (hrest : Delimited rest) :
    readNumber negative ((digitChars d).take p ++ '.' :: (digitChars d).drop p ++ rest) =
      finishFloat negative ⟨d, false, -((digitChars d).length - p : Nat)⟩ rest := by
  obtain ⟨c, ds, hds, hc⟩ := digitChars_eq_cons hd
  obtain ⟨i, rfl⟩ := Nat.exists_eq_add_one_of_ne_zero (Nat.ne_of_gt hp)
  have hdigits : ∀ c' ∈ c :: ds, isDigit c' = true := fun c' hc' =>
    isDigit_of_mem_digitChars (hds ▸ hc')
  have hvalue : Nat.ofDigitChars 10 (ds.drop i) (Nat.ofDigitChars 10 (c :: ds.take i) 0) = d := by
    rw [← Nat.ofDigitChars_append, List.cons_append, List.take_append_drop, ← hds,
      ofDigitChars_digitChars]
  have hwhole : Nat.ofDigitChars 10 (c :: ds.take i) 0 ≤ maxSignificand :=
    ((le_ofDigitChars _ _).trans_eq hvalue).trans hfits
  have hdrop : ds.drop i ≠ [] := by
    rw [hds, List.length_cons] at hp'
    rw [Ne, List.drop_eq_nil_iff]
    omega
  rw [hds, List.take_succ_cons, List.drop_succ_cons, List.append_assoc, List.cons_append (a := '.'),
    readNumber_digits negative hc
      (fun c' hc' => hdigits c' (List.cons_subset_cons c (List.take_subset i ds) hc'))
      (.inl rfl) hwhole, if_pos rfl,
    readFraction_digits negative hdrop
      (fun c' hc' => hdigits c' (List.mem_cons_of_mem c (List.drop_subset i ds hc')))
      hrest.noDigit (hvalue.symm ▸ hfits),
    hvalue, readFloatEnd_delimited negative _ hrest, List.length_drop, List.length_cons,
    Nat.add_sub_add_right]

/-- Zeros stand between the point and the digits. -/
theorem readNumber_zeros (negative : Bool) (zeros : Nat) (hfits : d ≤ maxSignificand)
    (hrest : Delimited rest) :
    readNumber negative ('0' :: '.' :: List.replicate zeros '0' ++ digitChars d ++ rest) =
      finishFloat negative ⟨d, false, -(zeros + (digitChars d).length : Nat)⟩ rest := by
  have hdigits : ∀ c ∈ List.replicate zeros '0' ++ digitChars d, isDigit c = true := by
    intro c hc
    rcases List.mem_append.mp hc with hc | hc
    · rw [List.eq_of_mem_replicate hc]
      rfl
    · exact isDigit_of_mem_digitChars hc
  have hne : List.replicate zeros '0' ++ digitChars d ≠ [] :=
    List.append_ne_nil_of_right_ne_nil _ Nat.toDigits_ne_nil
  have hvalue : Nat.ofDigitChars 10 (List.replicate zeros '0' ++ digitChars d) 0 = d := by
    rw [Nat.ofDigitChars_append, ofDigitChars_zeros, ofDigitChars_digitChars]
  have hzero : readNumber negative (digitChars 0 ++ '.' ::
      (List.replicate zeros '0' ++ digitChars d ++ rest)) =
        readFraction negative ⟨0, false, 0⟩ (List.replicate zeros '0' ++ digitChars d ++ rest) :=
    readNumber_point negative (Nat.zero_le _) _
  have htext : '0' :: '.' :: List.replicate zeros '0' ++ digitChars d ++ rest =
      digitChars 0 ++ '.' :: (List.replicate zeros '0' ++ digitChars d ++ rest) := rfl
  rw [htext, hzero, readFraction_digits negative hne hdigits hrest.noDigit
    (hvalue.symm ▸ hfits), hvalue, readFloatEnd_delimited negative _ hrest, List.length_append,
    List.length_replicate]

/-- The point stands after the first of several digits, and an exponent follows. -/
theorem readNumber_exponent (negative : Bool) {c : Char} {ds : List Char}
    (hds : digitChars d = c :: ds) (hc : c ≠ '0') (hfits : d ≤ maxSignificand) {e : Int}
    (he : e.natAbs ≤ maxExponent) (hrest : Delimited rest) :
    readNumber negative
        (c :: (if ds.isEmpty then [] else '.' :: ds) ++ 'e' :: intChars e ++ rest) =
      finishFloat negative ⟨d, false, e - ds.length⟩ rest := by
  have hdigits : ∀ c' ∈ c :: ds, isDigit c' = true := fun c' hc' =>
    isDigit_of_mem_digitChars (hds ▸ hc')
  have hfirst : ∀ c' ∈ [c], isDigit c' = true := by
    rw [List.forall_mem_singleton]
    exact hdigits c (List.mem_cons_self ..)
  have hvalue : Nat.ofDigitChars 10 ds (Nat.ofDigitChars 10 [c] 0) = d := by
    rw [← Nat.ofDigitChars_append, List.singleton_append, ← hds, ofDigitChars_digitChars]
  have hwhole : Nat.ofDigitChars 10 [c] 0 ≤ maxSignificand :=
    ((le_ofDigitChars _ _).trans_eq hvalue).trans hfits
  have hexponent (s : Significand) : readFloatEnd negative s ('e' :: (intChars e ++ rest)) =
      finishFloat negative { s with exponent := s.exponent + e } rest :=
    readExponent_intChars negative s he hrest
  cases ds with
  | nil =>
    have hread := readNumber_digits negative (r := intChars e ++ rest) hc hfirst (.inr rfl) hwhole
    rw [if_neg (by decide), readExponent_intChars negative _ he hrest] at hread
    refine hread.trans ?_
    rw [show Nat.ofDigitChars 10 [c] 0 = d from hvalue, Int.zero_add, List.length_nil,
      Nat.cast_zero, Int.sub_zero]
  | cons c' ds =>
    have hread := readNumber_digits negative (r := c' :: ds ++ 'e' :: (intChars e ++ rest)) hc
      hfirst (.inl rfl) hwhole
    rw [if_pos rfl, readFraction_digits negative (by simp)
      (fun c'' hc'' => hdigits c'' (List.mem_cons_of_mem c hc'')) (show NoDigit ('e' :: _) from rfl)
      (hvalue.symm ▸ hfits), hvalue, hexponent] at hread
    have htext : c :: (if (c' :: ds).isEmpty then [] else '.' :: c' :: ds) ++
        'e' :: intChars e ++ rest = [c] ++ '.' :: (c' :: ds ++ 'e' :: (intChars e ++ rest)) := by
      simp
    rw [htext]
    refine hread.trans ?_
    congr 2
    dsimp only
    omega

/-- A whole number is written out with a zero after its point. -/
theorem readNumber_tenths (negative : Bool) {n : Nat} (hfits : n * 10 ≤ maxSignificand)
    (hrest : Delimited rest) :
    readNumber negative (digitChars n ++ ['.', '0'] ++ rest) =
      finishFloat negative ⟨n * 10, false, -1⟩ rest := by
  have hzero : ∀ c ∈ ['0'], isDigit c = true := by simp [isDigit]
  have hvalue : Nat.ofDigitChars 10 ['0'] n = n * 10 := Nat.mul_comm ..
  have hfits' : n ≤ maxSignificand := (Nat.le_mul_of_pos_right n (by decide)).trans hfits
  have htext : digitChars n ++ ['.', '0'] ++ rest = digitChars n ++ '.' :: (['0'] ++ rest) :=
    List.append_assoc ..
  rw [htext, readNumber_point negative hfits', readFraction_digits negative (by simp)
    hzero hrest.noDigit (hvalue.symm ▸ hfits), hvalue, readFloatEnd_delimited negative _ hrest]
  rfl

/-- The zeros of a whole number that is written out are places like its digits. -/
theorem mul_pow_lt (hd : 0 < d) {j places : Nat} (h : (digitChars d).length + j ≤ places) :
    d * 10 ^ j < 10 ^ places := by
  have hlength : 0 < (digitChars d).length := Nat.length_toDigits_pos
  refine (Nat.length_toDigits_le_iff (by decide) (by omega)).mp ?_
  rwa [← digitChars, digitChars_mul_pow hd, List.length_append, List.length_replicate]

theorem json_magnitudeChars (d : Nat) (k : Int) : json.magnitudeChars d k =
    if 0 ≤ k ∧ (digitChars d).length + k ≤ 16 then
      digitChars d ++ List.replicate k.toNat '0' ++ ['.', '0']
    else if 0 < (digitChars d).length + k ∧ (digitChars d).length + k ≤ 16 then
      (digitChars d).take ((digitChars d).length + k).toNat ++
        '.' :: (digitChars d).drop ((digitChars d).length + k).toNat
    else if -5 < (digitChars d).length + k ∧ (digitChars d).length + k ≤ 0 then
      '0' :: '.' :: List.replicate (-((digitChars d).length + k)).toNat '0' ++ digitChars d
    else
      match digitChars d with
      | [] => []
      | c :: ds =>
        c :: (if ds.isEmpty then [] else '.' :: ds) ++
          'e' :: intChars ((digitChars d).length + k - 1) := rfl

/-- The text of a magnitude gives its digits and its exponent. -/
theorem readNumber_magnitudeChars (negative : Bool) (hd : d ≠ 0) (hfits : d ≤ 10 ^ 17)
    (hk : k.natAbs ≤ 1000) (hrest : Delimited rest) :
    readNumber negative (json.magnitudeChars d k ++ rest) =
      finishFloat negative ⟨(textDigits d k).1, false, (textDigits d k).2⟩ rest := by
  have hmax : d ≤ maxSignificand := hfits.trans (by decide)
  have hlength : 0 < (digitChars d).length := Nat.length_toDigits_pos
  rw [json_magnitudeChars]
  unfold textDigits
  by_cases hwhole : 0 ≤ k ∧ ((digitChars d).length : Int) + k ≤ 16
  · have hsmall : d * 10 ^ k.toNat < 10 ^ 16 :=
      mul_pow_lt (Nat.pos_of_ne_zero hd) (by omega)
    have htenths : d * 10 ^ k.toNat * 10 ≤ maxSignificand :=
      ((Nat.mul_lt_mul_right (by decide)).mpr hsmall).le.trans (by decide)
    rw [if_pos hwhole, if_pos hwhole, ← digitChars_mul_pow (Nat.pos_of_ne_zero hd)]
    exact readNumber_tenths negative htenths hrest
  rw [if_neg hwhole, if_neg hwhole]
  by_cases hamong : 0 < ((digitChars d).length : Int) + k ∧ ((digitChars d).length : Int) + k ≤ 16
  · rw [if_pos hamong, readNumber_pointAmong negative hd hmax (by omega) (by omega) hrest]
    congr 2
    omega
  rw [if_neg hamong]
  by_cases hzeros : -5 < ((digitChars d).length : Int) + k ∧ ((digitChars d).length : Int) + k ≤ 0
  · rw [if_pos hzeros, readNumber_zeros negative _ hmax hrest]
    congr 2
    omega
  rw [if_neg hzeros]
  obtain ⟨c, ds, hds, hc⟩ := digitChars_eq_cons hd
  have hcount : (digitChars d).length = ds.length + 1 := by rw [hds, List.length_cons]
  have hshort : (digitChars d).length ≤ 18 :=
    (Nat.length_toDigits_le_iff (by decide) (by decide)).mpr (hfits.trans_lt (by decide))
  have hexponent : (((digitChars d).length : Int) + k - 1).natAbs ≤ maxExponent := by
    unfold maxExponent
    omega
  have hread := readNumber_exponent negative hds hc hmax hexponent hrest
  rw [hds] at hread ⊢
  dsimp only at hread ⊢
  refine hread.trans ?_
  congr 2
  rw [List.length_cons]
  omega

end

end Json
end MarkupEval
