import MarkupEval.Proofs.Number.Numeral
import MarkupEval.Value.Cast

/-!
# Texts as numbers

A text is cast to the number that the numeral between its blanks is rounded to, and to zero if there
is none (`castTo?_number_text`). So is it by any reader that rounds numerals correctly and takes
words for infinity and not-a-number besides, behind a guard that looks at the first character after
the sign (`guardedNumber_eq`).
-/

namespace MarkupEval
namespace Value

open Binary64 Decimal Text

/-! ## Numerals -/

theorem isRounded_parseNumber {s : String} {negative : Bool} {q : ℚ}
    (h : Numeral (trim s.toList) negative q) : IsRounded negative q (parseNumber s) := by
  obtain ⟨d, hread, rfl, rfl⟩ := exists_read? h
  rw [parseNumber, hread]
  exact isRounded_toBinary64 d

theorem parseNumber_of_not_numeral {s : String}
    (h : ¬∃ negative q, Numeral (trim s.toList) negative q) : parseNumber s = .zero false := by
  unfold parseNumber
  split
  · next d hread => exact absurd ⟨_, _, numeral_of_read? hread⟩ h
  · rfl

theorem not_isNaN_parseNumber (s : String) : (parseNumber s).isNaN = false := by
  by_cases h : ∃ negative q, Numeral (trim s.toList) negative q
  · obtain ⟨negative, q, h⟩ := h
    exact (isRounded_parseNumber h).not_isNaN
  · rw [parseNumber_of_not_numeral h]
    rfl

/-! ## Words -/

/-- Names of numbers that are not finite, in lower case. -/
def numberWords : List (List Char) := ["inf".toList, "infinity".toList, "nan".toList]

/-- A reader of numbers that rounds numerals correctly. All that it takes besides are words in any
case, after an optional sign. -/
structure ReadsNumbers (read : List Char → Option Binary64) : Prop where
  numeral : ∀ {cs negative q}, Numeral cs negative q →
    ∃ x, read cs = some x ∧ IsRounded negative q x
  word : ∀ {cs x}, read cs = some x → (∃ negative q, Numeral cs negative q) ∨
    ∃ sign word negative, Sign sign negative ∧ word.map lowerChar ∈ numberWords ∧ cs = sign ++ word

/-- What follows an optional sign. -/
def unsigned : List Char → List Char
  | '+' :: r => r
  | '-' :: r => r
  | r => r

/-- A reader behind a guard, so that only what starts with a digit or a point after its sign is
read. What is not read is zero. -/
def guardedNumber (read : List Char → Option Binary64) (s : String) : Binary64 :=
  let cs := trim s.toList
  match unsigned cs with
  | c :: _ => if isDigit c ∨ c = '.' then (read cs).getD (.zero false) else .zero false
  | [] => .zero false

theorem unsigned_append {sign cs : List Char} {c : Char} {negative : Bool}
    (h : Sign sign negative) (hplus : c ≠ '+') (hminus : c ≠ '-') :
    unsigned (sign ++ c :: cs) = c :: cs := by
  cases h with
  | plus | minus => rfl
  | none =>
    rw [List.nil_append]
    unfold unsigned
    split
    · next heq => exact absurd (List.cons.inj heq).1 hplus
    · next heq => exact absurd (List.cons.inj heq).1 hminus
    · rfl

/-- The guard lets numerals through. -/
theorem exists_unsigned_of_numeral {cs : List Char} {negative : Bool} {q : ℚ}
    (h : Numeral cs negative q) :
    ∃ c r, unsigned cs = c :: r ∧ (isDigit c = true ∨ c = '.') := by
  obtain ⟨hsign, hmantissa, hexponent⟩ := h
  obtain ⟨c, r, rfl, hc⟩ := hmantissa.exists_cons
  have hne : c ≠ '+' ∧ c ≠ '-' := hc.elim ne_sign_of_isDigit (by rintro rfl; decide)
  exact ⟨c, _, unsigned_append hsign hne.1 hne.2, hc⟩

theorem not_isDigit_of_lowerChar {c : Char} (h : lowerChar c = 'i' ∨ lowerChar c = 'n') :
    isDigit c = false := by
  by_contra hdigit
  rw [Bool.not_eq_false] at hdigit
  have hupper : isAsciiUpper c = false := by
    simp only [isDigit, isAsciiUpper, Bool.and_eq_true, decide_eq_true_eq, Char.le_def,
      Bool.and_eq_false_iff, decide_eq_false_iff_not, UInt32.le_iff_toNat_le] at hdigit ⊢
    exact .inl (Nat.not_le.mpr (hdigit.2.trans_lt (by decide)))
  rw [lowerChar_of_not_isAsciiUpper hupper] at h
  rcases h with rfl | rfl <;> cases hdigit

/-- The guard does not let words through, with or without a sign. -/
theorem exists_unsigned_of_word {sign word : List Char} {negative : Bool}
    (hsign : Sign sign negative) (hword : word.map lowerChar ∈ numberWords) :
    ∃ c r, unsigned (sign ++ word) = c :: r ∧ ¬(isDigit c = true ∨ c = '.') := by
  obtain ⟨c, r, rfl, hc⟩ : ∃ c r, word = c :: r ∧ (lowerChar c = 'i' ∨ lowerChar c = 'n') := by
    cases word with
    | nil => exact absurd hword (by decide)
    | cons c r =>
      refine ⟨c, r, rfl, ?_⟩
      have hhead : ∀ w ∈ numberWords, w.head? = some 'i' ∨ w.head? = some 'n' := by decide
      simpa using hhead _ hword
  have hne (d : Char) (hd : lowerChar d ≠ 'i' ∧ lowerChar d ≠ 'n') : c ≠ d := by
    rintro rfl
    exact hc.elim hd.1 hd.2
  refine ⟨c, r, unsigned_append hsign (hne '+' (by decide)) (hne '-' (by decide)), ?_⟩
  rintro (hdigit | hpoint)
  · exact Bool.false_ne_true ((not_isDigit_of_lowerChar hc).symm.trans hdigit)
  · exact hne '.' (by decide) hpoint

/-- Behind the guard, all such readers read the same. -/
theorem guardedNumber_eq {read : List Char → Option Binary64} (h : ReadsNumbers read) (s : String) :
    guardedNumber read s = parseNumber s := by
  unfold guardedNumber
  dsimp only
  by_cases hnumeral : ∃ negative q, Numeral (trim s.toList) negative q
  · obtain ⟨negative, q, hnumeral⟩ := hnumeral
    obtain ⟨c, r, hunsigned, hc⟩ := exists_unsigned_of_numeral hnumeral
    obtain ⟨x, hread, hx⟩ := h.numeral hnumeral
    rw [hunsigned]
    dsimp only
    rw [if_pos hc, hread, Option.getD_some]
    exact hx.unique (isRounded_parseNumber hnumeral)
  · rw [parseNumber_of_not_numeral hnumeral]
    cases hread : read (trim s.toList) with
    | none =>
      split
      · split <;> rfl
      · rfl
    -- What the reader takes besides numerals is a word, and the guard stops it.
    | some x =>
      obtain ⟨sign, word, negative, hsign, hword, hcs⟩ := (h.word hread).resolve_left hnumeral
      obtain ⟨c, r, hunsigned, hc⟩ := exists_unsigned_of_word hsign hword
      rw [hcs, hunsigned]
      dsimp only
      rw [if_neg hc]

/-- A reader of numerals and words. -/
def readNumber (cs : List Char) : Option Binary64 :=
  match read? cs with
  | some d => some d.toBinary64
  | none =>
    let word := (unsigned cs).map lowerChar
    if word = "nan".toList then some .nan
    else if word ∈ numberWords then some (.infinity (cs.head? == some '-'))
    else none

theorem exists_sign (cs : List Char) :
    ∃ sign negative, Sign sign negative ∧ cs = sign ++ unsigned cs := by
  unfold unsigned
  split
  · exact ⟨_, _, .plus, rfl⟩
  · exact ⟨_, _, .minus, rfl⟩
  · exact ⟨_, _, .none, rfl⟩

theorem readsNumbers_readNumber : ReadsNumbers readNumber where
  numeral h := by
    obtain ⟨d, hread, rfl, rfl⟩ := exists_read? h
    exact ⟨d.toBinary64, by rw [readNumber, hread], isRounded_toBinary64 d⟩
  word {cs x} h := by
    cases hread : read? cs with
    | some d => exact .inl ⟨_, _, numeral_of_read? hread⟩
    | none =>
      obtain ⟨sign, negative, hsign, hcs⟩ := exists_sign cs
      refine .inr ⟨sign, unsigned cs, negative, hsign, ?_, hcs⟩
      simp only [readNumber, hread] at h
      split at h
      · next hnan =>
        rw [hnan]
        decide
      · split at h
        · assumption
        · cases h

/-- The number that a text is cast to is the one that the numeral between its blanks is rounded to:
a zero up to half a unit, an infinity from the middle on between the largest finite number and the
power of two that follows. It is zero if there is no numeral, and never a not-a-number. Any reader
of numbers behind the guard gives it. -/
theorem castTo?_number_text (s : String) : ∃ x,
    (Value.string s).castTo? .number = some (.number x) ∧
      (Value.text s).castTo? .number = some (.number x) ∧
      (∀ {negative q}, Numeral (trim s.toList) negative q → IsRounded negative q x ∧
        (x.isZero = true ↔ 2 * (q * unitsPerOne) ≤ 1) ∧
        (x.isInfinite = true ↔ (unitsOf (infinityMagnitude - 1) + unitsOf infinityMagnitude : ℚ) ≤
          2 * (q * unitsPerOne))) ∧
      ((¬∃ negative q, Numeral (trim s.toList) negative q) → x = .zero false) ∧
      x.isNaN = false ∧
      ∀ {read}, ReadsNumbers read → guardedNumber read s = x := by
  refine ⟨parseNumber s, rfl, rfl, fun h => ?_, parseNumber_of_not_numeral,
    not_isNaN_parseNumber s, fun h => guardedNumber_eq h s⟩
  have hrounded := isRounded_parseNumber h
  exact ⟨hrounded, hrounded.isZero_iff h.nonneg, hrounded.isInfinite_iff⟩

/-- Blanks around it, a sign, a point in front and an exponent: the numeral for five. -/
theorem castTo?_number_text_signed : ∃ x,
    (Value.text " -.5E1\n").castTo? .number = some (.number x) ∧ IsRounded true 5 x ∧
      guardedNumber readNumber " -.5E1\n" = x := by
  have hread : read? (trim " -.5E1\n".toList) = some ⟨true, 5, 0⟩ := by decide
  have hvalue : value ⟨true, 5, 0⟩ = 5 := by norm_num [value]
  have hnumeral := hvalue ▸ numeral_of_read? hread
  obtain ⟨x, -, hcast, hrounded, -, -, hguarded⟩ := castTo?_number_text " -.5E1\n"
  exact ⟨x, hcast, (hrounded hnumeral).1, hguarded readsNumbers_readNumber⟩

end Value
end MarkupEval
