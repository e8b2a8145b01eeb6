import Mathlib.Data.List.Basic
import MarkupEval.Json.Reader
import MarkupEval.Json.Writer

/-!
# Strings and integers read back

A reader takes a text when it reads it to its end and leaves what comes after it, whatever that is
(`Takes`). A written string is taken as the string that was written (`readString_escaped`), control
characters and quotes included, and a written integer of 64 bits as that integer
(`readNumber_digitChars`). After an integer its digits must end, so only what may follow a value is
allowed there (`Delimited`).
-/

namespace MarkupEval
namespace Json

open Text NumberLayout

variable {α : Type}

/-- What may stand after a value: nothing, a comma or a closing bracket. -/
def Delimited : List Char → Prop
  | [] => True
  | c :: _ => c = ',' ∨ c = ']' ∨ c = '}'

/-- A reader reads a text to its end as a given value. -/
def Takes (reader : Reader α) (cs : List Char) (x : α) : Prop :=
  ∀ rest, Delimited rest → reader (cs ++ rest) = .ok (x, rest)

/-- A text starts with a character at which a reader of values stays. -/
def Opens : List Char → Prop
  | [] => False
  | c :: _ => isBlankByte c = false ∧ c ≠ ']'

theorem delimited_nil : Delimited [] := trivial

theorem delimited_comma (cs : List Char) : Delimited (',' :: cs) := .inl rfl

theorem delimited_bracket (cs : List Char) : Delimited (']' :: cs) := .inr (.inl rfl)

theorem delimited_brace (cs : List Char) : Delimited ('}' :: cs) := .inr (.inr rfl)

theorem skipBlanks_cons {c : Char} {cs : List Char} (h : isBlankByte c = false) :
    skipBlanks (c :: cs) = c :: cs := by
  simp [skipBlanks, h]

theorem Opens.exists_cons {cs : List Char} (h : Opens cs) :
    ∃ c r, cs = c :: r ∧ isBlankByte c = false ∧ c ≠ ']' := by
  cases cs with
  | nil => exact h.elim
  | cons c r => exact ⟨c, r, rfl, h⟩

theorem Opens.append {cs : List Char} (h : Opens cs) (r : List Char) : Opens (cs ++ r) := by
  obtain ⟨c, r', rfl, hc⟩ := h.exists_cons
  exact hc

/-- Every step of a reader takes at least one character of what is written. -/
theorem length_le_flatMap {f : α → List Char} (h : ∀ x, f x ≠ []) (xs : List α) :
    xs.length ≤ (xs.flatMap f).length := by
  induction xs with
  | nil => exact Nat.le_refl _
  | cons x xs ih =>
    have := List.length_pos_of_ne_nil (h x)
    rw [List.flatMap_cons, List.length_append, List.length_cons]
    omega

/-! ## Strings -/

theorem foldl_utf8Size (cs : List Char) (n : Nat) :
    cs.foldl (fun n c => n + c.utf8Size) n = n + utf8Length cs := by
  unfold utf8Length
  induction cs generalizing n with
  | nil => rfl
  | cons c cs ih =>
    rw [List.foldl_cons, List.foldl_cons, ih, ih (0 + _)]
    omega

theorem utf8Length_cons (c : Char) (cs : List Char) :
    utf8Length (c :: cs) = c.utf8Size + utf8Length cs := by
  rw [utf8Length, List.foldl_cons, foldl_utf8Size, Nat.zero_add]

theorem readHex_of_hex4? {a b c d : Char} {n : Nat} (h : hex4? a b c d = some n) (r : List Char) :
    readHex (a :: b :: c :: d :: r) = .ok (n, r) := by
  have hlength : ¬utf8Length (a :: b :: c :: d :: r) < 4 := by
    simp only [utf8Length_cons]
    have := a.utf8Size_pos
    have := b.utf8Size_pos
    have := c.utf8Size_pos
    have := d.utf8Size_pos
    omega
  simp only [readHex, if_neg hlength, h]

theorem hex4?_hexDigit : ∀ n < 0x20,
    hex4? '0' '0' (hexDigit (n / 16)) (hexDigit (n % 16)) = some n := by
  decide

/-- A control character without a short escape reads back from its hexadecimal digits. -/
theorem readEscape_hex {c : Char} (h : c.toNat < 0x20) (r : List Char) :
    readEscape ('u' :: '0' :: '0' :: hexDigit (c.toNat / 16) :: hexDigit (c.toNat % 16) :: r) =
      .ok (c, r) := by
  have hlead : isLeading c.toNat = false := by
    simp only [isLeading, Bool.and_eq_false_imp, decide_eq_true_eq, decide_eq_false_iff_not]
    omega
  have htrail : isTrailing c.toNat = false := by
    simp only [isTrailing, Bool.and_eq_false_imp, decide_eq_true_eq, decide_eq_false_iff_not]
    omega
  change readUnicodeEscape _ = _
  rw [readUnicodeEscape, readHex_of_hex4? (hex4?_hexDigit _ h)]
  simp [bind, Except.bind, pure, Except.pure, hlead, htrail]

theorem readChars_escape {c : Char} {e r : List Char} (h : readEscape (e ++ r) = .ok (c, r))
    (fuel : Nat) :
    readChars (fuel + 1) ('\\' :: e ++ r) =
      (readChars fuel r).map fun x => (c :: x.1, x.2) := by
  rw [List.cons_append, readChars, if_neg (by decide), if_pos rfl, h]
  simp only [bind, Except.bind]
  cases readChars fuel r <;> rfl

theorem readChars_escapeChar (c : Char) (fuel : Nat) (r : List Char) :
    readChars (fuel + 1) (escapeChar c ++ r) =
      (readChars fuel r).map fun x => (c :: x.1, x.2) := by
  unfold escapeChar
  split
  · next h =>
    subst h
    exact readChars_escape (e := ['"']) rfl fuel
  split
  · next h =>
    subst h
    exact readChars_escape (e := ['\\']) rfl fuel
  split
  · next hcontrol =>
    split
    · next h =>
      subst h
      exact readChars_escape (e := ['b']) rfl fuel
    split
    · next h =>
      subst h
      exact readChars_escape (e := ['t']) rfl fuel
    split
    · next h =>
      subst h
      exact readChars_escape (e := ['n']) rfl fuel
    split
    · next h =>
      subst h
      exact readChars_escape (e := ['f']) rfl fuel
    split
    · next h =>
      subst h
      exact readChars_escape (e := ['r']) rfl fuel
    · exact readChars_escape (e := ['u', '0', '0', _, _]) (readEscape_hex hcontrol r) fuel
  · next hquote hslash hcontrol =>
    rw [List.singleton_append, readChars, if_neg hquote, if_neg hslash, if_neg hcontrol]
    cases readChars fuel r <;> rfl

theorem escapeChar_ne_nil (c : Char) : escapeChar c ≠ [] := by
  unfold escapeChar
  split_ifs <;> simp

theorem readChars_escaped (cs r : List Char) {fuel : Nat} (h : cs.length < fuel) :
    readChars fuel (cs.flatMap escapeChar ++ '"' :: r) = .ok (cs, r) := by
  induction cs generalizing fuel with
  | nil =>
    obtain ⟨n, rfl⟩ := Nat.exists_eq_add_of_lt h
    simp [readChars]
  | cons c cs ih =>
    obtain ⟨n, rfl⟩ := Nat.exists_eq_succ_of_ne_zero (Nat.ne_zero_of_lt h)
    rw [List.flatMap_cons, List.append_assoc, readChars_escapeChar, ih (Nat.lt_of_succ_lt_succ h)]
    rfl

/-- A string reads back after its opening quote. -/
theorem readString_escaped (s : String) (r : List Char) :
    readString (s.toList.flatMap escapeChar ++ '"' :: r) = .ok (s, r) := by
  have hlength : s.toList.length < (s.toList.flatMap escapeChar ++ '"' :: r).length + 1 := by
    have := length_le_flatMap escapeChar_ne_nil s.toList
    rw [List.length_append]
    omega
  rw [readString, readChars_escaped _ _ hlength]
  simp [bind, Except.bind, pure, Except.pure]

theorem quote_append (s : String) (r : List Char) :
    quote s ++ r = '"' :: (s.toList.flatMap escapeChar ++ '"' :: r) := by
  simp [quote]

/-! ## Integers -/

theorem isBlankByte_of_isDigit {c : Char} (h : isDigit c = true) : isBlankByte c = false := by
  simp only [isBlankByte, Bool.or_eq_false_iff, beq_eq_false_iff_ne]
  refine ⟨⟨⟨?_, ?_⟩, ?_⟩, ?_⟩ <;> rintro rfl <;> exact absurd h (by decide)

theorem isDigit_of_mem_digitChars {c : Char} {n : Nat} (h : c ∈ digitChars n) :
    isDigit c = true :=
  isDigit_of_mem_toDigits h

theorem digitChars_eq_cons {n : Nat} (h : n ≠ 0) : ∃ c ds, digitChars n = c :: ds ∧ c ≠ '0' := by
  induction n using Nat.strongRecOn with | _ n ih
  by_cases hn : n < 10
  · exact ⟨n.digitChar, [], Nat.toDigits_of_lt_base hn, Nat.digitChar_eq_zero.not.mpr h⟩
  · obtain ⟨c, ds, hds, hc⟩ := ih (n / 10) (by omega) (by omega)
    refine ⟨c, ds ++ [(n % 10).digitChar], ?_, hc⟩
    rw [digitChars, Nat.toDigits_of_base_le (by decide) (by omega)]
    exact congrArg (· ++ _) hds

theorem le_ofDigitChars (ds : List Char) (v : Nat) : v ≤ Nat.ofDigitChars 10 ds v := by
  rw [Nat.ofDigitChars_eq_ofDigitChars_zero]
  have : 1 * v ≤ 10 ^ ds.length * v := Nat.mul_le_mul_right _ (Nat.one_le_pow _ _ (by decide))
  omega

/-- Digits of a number that fits into the significand are all taken. -/
theorem foldl_pushWhole {ds : List Char} {v : Nat}
    (h : Nat.ofDigitChars 10 ds v ≤ maxSignificand) :
    ds.foldl Significand.pushWhole ⟨v, false, 0⟩ = ⟨Nat.ofDigitChars 10 ds v, false, 0⟩ := by
  induction ds generalizing v with
  | nil => rfl
  | cons c ds ih =>
    rw [Nat.ofDigitChars_cons, Nat.mul_comm] at h ⊢
    have hfits : ¬maxSignificand < v * 10 + digitValue c :=
      Nat.not_lt.mpr (Nat.le_trans (le_ofDigitChars ds _) h)
    rw [List.foldl_cons, Significand.pushWhole]
    simp only [Bool.false_or, decide_eq_true_eq, if_neg hfits]
    exact ih h

/-- A text does not go on with a digit. -/
def NoDigit : List Char → Prop
  | [] => True
  | c :: _ => isDigit c = false

theorem Delimited.noDigit {rest : List Char} (h : Delimited rest) : NoDigit rest := by
  cases rest with
  | nil => trivial
  | cons c r => rcases h with rfl | rfl | rfl <;> rfl

theorem takeWhile_isDigit_append {ds rest : List Char} (hds : ∀ c ∈ ds, isDigit c = true)
    (hrest : NoDigit rest) : (ds ++ rest).takeWhile isDigit = ds := by
  rw [List.takeWhile_append_of_pos hds]
  cases rest with
  | nil => simp
  | cons c r => simp [show isDigit c = false from hrest]

theorem dropWhile_isDigit_append {ds rest : List Char} (hds : ∀ c ∈ ds, isDigit c = true)
    (hrest : NoDigit rest) : (ds ++ rest).dropWhile isDigit = rest := by
  rw [List.dropWhile_append_of_pos hds]
  cases rest with
  | nil => rfl
  | cons c r => simp [show isDigit c = false from hrest]

/-- A natural number that fits into the significand reads back after its sign. -/
theorem readNumber_digitChars (negative : Bool) {n : Nat} (h : n ≤ maxSignificand) :
    Takes (readNumber negative) (digitChars n) (wholeNumber negative n) := by
  intro rest hrest
  by_cases hn : n = 0
  · subst hn
    cases rest with
    | nil => rfl
    | cons c r => rcases hrest with rfl | rfl | rfl <;> rfl
  obtain ⟨c, ds, hds, hc⟩ := digitChars_eq_cons hn
  have hdigits : ∀ c' ∈ c :: ds, isDigit c' = true := fun c' hc' =>
    isDigit_of_mem_digitChars (hds ▸ hc')
  have hvalue : Nat.ofDigitChars 10 ds (digitValue c) = n := by
    have := Nat.ofDigitChars_ten_toDigits (n := n)
    rwa [← digitChars, hds, Nat.ofDigitChars_cons, Nat.mul_zero, Nat.zero_add] at this
  have hrestdigits : ∀ c' ∈ ds, isDigit c' = true := fun c' hc' =>
    hdigits c' (List.mem_cons_of_mem _ hc')
  have hc' : isDigit c = true := hdigits c (List.mem_cons_self ..)
  rw [hds, List.cons_append, readNumber]
  simp only [hc', hc, Bool.not_true, Bool.false_eq_true, if_false,
    takeWhile_isDigit_append hrestdigits hrest.noDigit,
    dropWhile_isDigit_append hrestdigits hrest.noDigit,
    foldl_pushWhole (hvalue.symm ▸ h), hvalue]
  cases rest with
  | nil => rfl
  | cons d r => rcases hrest with rfl | rfl | rfl <;> simp [isDigit]

/-- The integers that are read as integers. -/
def IsInteger64 (n : Int) : Prop := -(maxNegative : Int) ≤ n ∧ n ≤ maxSignificand

theorem opens_intChars (n : Int) : Opens (intChars n) := by
  have hdigits : Opens (digitChars n.natAbs) := by
    cases h : digitChars n.natAbs with
    | nil => exact absurd h Nat.toDigits_ne_nil
    | cons c ds =>
      have hc : isDigit c = true := isDigit_of_mem_digitChars (h ▸ List.mem_cons_self ..)
      refine ⟨isBlankByte_of_isDigit hc, ?_⟩
      rintro rfl
      exact absurd hc (by decide)
  unfold intChars
  split
  · exact ⟨rfl, by decide⟩
  · exact hdigits

end Json
end MarkupEval
