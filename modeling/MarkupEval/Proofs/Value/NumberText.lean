import MarkupEval.Proofs.Number.WrittenNumerals
import MarkupEval.Proofs.Value.NumberReading
import MarkupEval.Value.MarkedText

/-!
# The text of a number reads back

A finite number is written as a numeral that is rounded to the number itself, and as it is written
in marked text (`castTo?_string_number`). The names of numbers that are not finite are no numerals,
so that they are read as zero.
-/

namespace MarkupEval

open NumberLayout Decimal

namespace Binary64

variable {x : Binary64}

/-- A decimal in the interval of a number is rounded to it. -/
theorem StandsFor.isRounded {d : Nat} {k : Int} (h : x.StandsFor d k)
    (hfinite : x.isFinite = true) : IsRounded x.negative (d * 10 ^ k) x := by
  have hden : 0 < 10 ^ (-k).toNat := Nat.pow_pos (by decide)
  have hunits := decimalUnits_eq d k
  rw [StandsFor, hunits, Neighbourhood.holds_iff hden] at h
  exact isRounded_of_magnitude hden rfl (nearestMagnitude_eq_of_bounds hden h).symm
    (of_decide_eq_true hfinite).le hunits

theorem isRounded_ofInt (n : Int) : IsRounded (n < 0) n.natAbs (ofInt n) := by
  have h := isRounded_ofRatio (n < 0) n.natAbs Nat.one_pos
  rwa [Nat.cast_one, div_one] at h

theorem safeInteger?_of_isZero (h : x.isZero = true) : x.safeInteger? = some 0 := by
  rw [eq_zero_of_isZero h]
  cases x.negative <;> decide +kernel

theorem sign_negative (negative : Bool) : Sign (if negative then ['-'] else []) negative := by
  cases negative
  · exact .none
  · exact .minus

theorem write_eq_append (hx : ¬x.isZero = true) : json.write x =
    (if x.negative then ['-'] else []) ++ json.magnitudeChars x.shortest.1 x.shortest.2 := by
  rw [write, if_neg hx]
  split <;> rfl

/-- The text of a finite number is a numeral that is rounded to the number. -/
theorem exists_numeral_finiteText (hfinite : x.isFinite = true) : ∃ negative q y,
    Numeral x.finiteText negative q ∧ IsRounded negative q y ∧ y.same x = true := by
  unfold finiteText
  split
  · next n hsafe =>
    exact ⟨_, _, ofInt n, numeral_intChars n, isRounded_ofInt n,
      ofInt_same (safeInteger?_iff.mp hsafe).1⟩
  · next hsafe =>
    have hzero : ¬x.isZero = true := fun h => by
      rw [safeInteger?_of_isZero h] at hsafe
      cases hsafe
    have hpos := significand_pos hzero
    have hshort := isShort_shortest hpos
    have hnumeral := spells_magnitudeChars (hshort.digits_pos hpos) x.shortest.2 _ _
      (sign_negative x.negative)
    rw [← write_eq_append hzero] at hnumeral
    exact ⟨_, _, x, hnumeral, hshort.standsFor.isRounded hfinite, same_refl x⟩

theorem text_of_isFinite (h : x.isFinite = true) : x.text = String.ofList x.finiteText := by
  rw [text, if_neg, if_neg]
  · intro hinfinite
    rw [not_isFinite_of_isInfinite hinfinite] at h
    cases h
  · intro hnan
    rw [not_isFinite_of_isNaN hnan] at h
    cases h

/-- The text of a finite number is that of its JSON. -/
theorem finiteText_eq_chars (hfinite : x.isFinite = true) : x.finiteText = x.toJson.chars := by
  unfold finiteText toJson
  cases x.safeInteger? with
  | some n => simp only [Json.chars]
  | none => simp only [Json.chars, Json.floatChars, if_pos hfinite]

end Binary64

namespace Value

open Binary64

variable {x : Binary64}

theorem parseNumber_text (hfinite : x.isFinite = true) : (parseNumber x.text).same x = true := by
  obtain ⟨negative, q, y, hnumeral, hy, hsame⟩ := exists_numeral_finiteText hfinite
  have htrim : Text.trim x.text.toList = x.finiteText := by
    rw [text_of_isFinite hfinite, String.toList_ofList, hnumeral.trim_eq_self]
  rw [← htrim] at hnumeral
  rwa [(isRounded_parseNumber hnumeral).unique hy]

theorem parseNumber_text_of_not_isFinite (h : x.isFinite = false) :
    parseNumber x.text = .zero false := by
  by_cases hnan : x.isNaN = true
  · rw [Binary64.text, if_pos hnan]
    decide +kernel
  · rw [Binary64.text, if_neg hnan, if_pos ((isNaN_or_isInfinite h).resolve_left hnan)]
    cases x.negative <;> decide +kernel

/-- The text of a finite number is the one in marked text, and reads back as the number. The name of
a number that is not finite reads as zero. -/
theorem castTo?_string_number (x : Binary64) : ∃ s y,
    (Value.number x).castTo? .string = some (.string s) ∧
      (Value.string s).castTo? .number = some (.number y) ∧
      (x.isFinite = true → (Value.number y == .number x) = true ∧
        s = MarkedText.stringify (.number x)) ∧
      (x.isFinite = false → (Value.number y == .number (.zero false)) = true) := by
  refine ⟨x.text, parseNumber x.text, rfl, rfl, fun h => ⟨parseNumber_text h, ?_⟩, fun h => ?_⟩
  · rw [text_of_isFinite h, finiteText_eq_chars h]
    rfl
  · rw [parseNumber_text_of_not_isFinite h]
    rfl

end Value
end MarkupEval
