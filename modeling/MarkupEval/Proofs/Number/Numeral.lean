import Mathlib.Data.List.TakeWhile
import MarkupEval.Number.Decimal
import MarkupEval.Proofs.Json.Scalars
import MarkupEval.Proofs.Number.Rounding

/-!
# Decimal numerals are read and nothing else

The numerals are a grammar of their own, in which each has the real that it stands for (`Numeral`).
The reader takes exactly them (`numeral_of_read?`, `exists_read?`), and what it reads is rounded
correctly (`isRounded_toBinary64`), also where the powers of ten are too large to be computed.
-/

namespace MarkupEval
namespace Decimal

open Text

/-! ## The grammar -/

/-- Decimal digits only. -/
def Digits (ds : List Char) : Prop := ∀ c ∈ ds, isDigit c = true

/-- An optional sign. -/
inductive Sign : List Char → Bool → Prop
  | none : Sign [] false
  | plus : Sign ['+'] false
  | minus : Sign ['-'] true

/-- Digits with at most one point, after them, among them or in front of them. -/
inductive Mantissa : List Char → ℚ → Prop
  | whole {ds : List Char} (hds : Digits ds) (hne : ds ≠ []) : Mantissa ds (decimalValue ds)
  | point {ds fs : List Char} (hds : Digits ds) (hfs : Digits fs) (hne : ds ≠ [] ∨ fs ≠ []) :
    Mantissa (ds ++ '.' :: fs) (decimalValue (ds ++ fs) / 10 ^ fs.length)

/-- An optional exponent. -/
inductive Exponent : List Char → Int → Prop
  | none : Exponent [] 0
  | mark {mark : Char} {sign ds : List Char} {negative : Bool} (hmark : mark = 'e' ∨ mark = 'E')
    (hsign : Sign sign negative) (hds : Digits ds) (hne : ds ≠ []) :
    Exponent (mark :: (sign ++ ds))
      (if negative then -(decimalValue ds : Int) else decimalValue ds)

/-- A numeral, its sign and the magnitude of the real that it stands for. -/
inductive Numeral : List Char → Bool → ℚ → Prop
  | mk {sign mantissa exponent : List Char} {negative : Bool} {q : ℚ} {k : Int}
    (hsign : Sign sign negative) (hmantissa : Mantissa mantissa q)
    (hexponent : Exponent exponent k) :
    Numeral (sign ++ (mantissa ++ exponent)) negative (q * 10 ^ k)

theorem Numeral.nonneg {cs : List Char} {negative : Bool} {q : ℚ} (h : Numeral cs negative q) :
    0 ≤ q := by
  obtain ⟨-, hmantissa, -⟩ := h
  cases hmantissa <;> positivity

/-- The magnitude of a decimal. -/
def value (d : Decimal) : ℚ := d.digits * 10 ^ d.exponent

/-! ## Parts of a numeral -/

theorem ne_sign_of_isDigit {c : Char} (h : isDigit c = true) : c ≠ '+' ∧ c ≠ '-' := by
  constructor <;> rintro rfl <;> cases h

theorem readExponentDigits?_iff {ds : List Char} {k : Int} :
    readExponentDigits? ds = some k ↔ Digits ds ∧ ds ≠ [] ∧ decimalValue ds = k := by
  have hguard : (!ds.isEmpty && ds.all isDigit) = true ↔ Digits ds ∧ ds ≠ [] := by
    rw [Bool.and_eq_true, List.all_eq_true, Bool.not_eq_true', List.isEmpty_eq_false_iff, and_comm,
      Digits]
  rw [readExponentDigits?, ← and_assoc, ← hguard]
  split
  · next h => rw [Option.some_inj, and_iff_right h]
  · next h => exact iff_of_false nofun (mt And.left h)

theorem exponent_of_readExponent? {cs : List Char} {k : Int} (h : readExponent? cs = some k) :
    Exponent cs k := by
  unfold readExponent? at h
  split at h
  case h_1 =>
    cases h
    exact .none
  case h_2 =>
    split at h
    case isFalse => cases h
    case isTrue hmark =>
      split at h
      · obtain ⟨hds, hne, rfl⟩ := readExponentDigits?_iff.mp h
        exact .mark hmark .plus hds hne
      · obtain ⟨n, hn, rfl⟩ := Option.map_eq_some_iff.mp h
        obtain ⟨hds, hne, rfl⟩ := readExponentDigits?_iff.mp hn
        exact .mark hmark .minus hds hne
      · obtain ⟨hds, hne, rfl⟩ := readExponentDigits?_iff.mp h
        exact .mark hmark .none hds hne

theorem readExponent?_of_exponent {cs : List Char} {k : Int} (h : Exponent cs k) :
    readExponent? cs = some k := by
  cases h with
  | none => rfl
  | @mark mark sign ds negative hmark hsign hds hne =>
    have hread := readExponentDigits?_iff.mpr ⟨hds, hne, rfl⟩
    unfold readExponent?
    dsimp only
    rw [if_pos hmark]
    cases hsign with
    | plus => exact hread
    | minus => exact congrArg (Option.map (- ·)) hread
    | none =>
      obtain ⟨c, ds, rfl⟩ := List.exists_cons_of_ne_nil hne
      obtain ⟨hplus, hminus⟩ := ne_sign_of_isDigit (hds c (List.mem_cons_self ..))
      rw [List.nil_append]
      split
      · next heq => exact absurd (List.cons.inj heq).1 hplus
      · next heq => exact absurd (List.cons.inj heq).1 hminus
      · exact hread

theorem Exponent.noDigit {cs : List Char} {k : Int} (h : Exponent cs k) : Json.NoDigit cs := by
  cases h with
  | none => trivial
  | mark hmark _ _ _ => rcases hmark with rfl | rfl <;> rfl

theorem Exponent.ne_point {cs r : List Char} {k : Int} (h : Exponent cs k) : cs ≠ '.' :: r := by
  cases h with
  | none => exact nofun
  | mark hmark _ _ _ => rcases hmark with rfl | rfl <;> simp

/-- The real that a mantissa of these digits stands for. -/
def mantissaValue (whole fraction : List Char) : ℚ :=
  decimalValue (whole ++ fraction) / 10 ^ fraction.length

theorem mantissaValue_nil (ds : List Char) : mantissaValue ds [] = decimalValue ds := by
  rw [mantissaValue, List.append_nil, List.length_nil, pow_zero, div_one]

theorem mantissa_of_splitMantissa? {cs whole fraction rest : List Char}
    (h : splitMantissa? cs = some (whole, fraction, rest)) :
    ∃ mantissa, cs = mantissa ++ rest ∧ Mantissa mantissa (mantissaValue whole fraction) := by
  have hdigits (cs : List Char) : Digits (cs.takeWhile isDigit) := fun _ => List.mem_takeWhile_imp
  have hcs := (List.takeWhile_append_dropWhile (p := isDigit) (l := cs)).symm
  unfold splitMantissa? at h
  dsimp only at h
  split at h
  · next r hdrop =>
    split at h
    case isTrue => cases h
    case isFalse hne =>
      cases h
      refine ⟨cs.takeWhile isDigit ++ '.' :: r.takeWhile isDigit, ?_,
        .point (hdigits _) (hdigits _) ?_⟩
      · rw [List.append_assoc, List.cons_append, List.takeWhile_append_dropWhile, ← hdrop, ← hcs]
      · rwa [Bool.and_eq_true, List.isEmpty_iff, List.isEmpty_iff, not_and_or] at hne
  · split at h
    case isTrue => cases h
    case isFalse hne =>
      cases h
      refine ⟨cs.takeWhile isDigit, hcs, ?_⟩
      rw [mantissaValue_nil]
      exact .whole (hdigits cs) (mt List.isEmpty_iff.mpr hne)

theorem splitMantissa?_of_mantissa {mantissa rest : List Char} {q : ℚ} {k : Int}
    (h : Mantissa mantissa q) (hrest : Exponent rest k) :
    ∃ whole fraction, splitMantissa? (mantissa ++ rest) = some (whole, fraction, rest) ∧
      mantissaValue whole fraction = q := by
  cases h with
  | whole hds hne =>
    refine ⟨mantissa, [], ?_, mantissaValue_nil mantissa⟩
    unfold splitMantissa?
    dsimp only
    rw [Json.takeWhile_isDigit_append hds hrest.noDigit,
      Json.dropWhile_isDigit_append hds hrest.noDigit]
    split
    · next heq => exact absurd rfl hrest.ne_point
    · rw [if_neg (mt List.isEmpty_iff.mp hne)]
  | @point ds fs hds hfs hne =>
    refine ⟨ds, fs, ?_, rfl⟩
    have hpoint : Json.NoDigit ('.' :: (fs ++ rest)) := rfl
    have hsplit : splitMantissa? (ds ++ '.' :: (fs ++ rest)) =
        if ds.isEmpty && ((fs ++ rest).takeWhile isDigit).isEmpty then none
        else some (ds, (fs ++ rest).takeWhile isDigit, (fs ++ rest).dropWhile isDigit) := by
      unfold splitMantissa?
      dsimp only
      rw [Json.takeWhile_isDigit_append hds hpoint, Json.dropWhile_isDigit_append hds hpoint]
      rfl
    rw [List.append_assoc, List.cons_append, hsplit,
      Json.takeWhile_isDigit_append hfs hrest.noDigit,
      Json.dropWhile_isDigit_append hfs hrest.noDigit, if_neg]
    rwa [Bool.and_eq_true, List.isEmpty_iff, List.isEmpty_iff, not_and_or]

/-! ## The reader -/

theorem value_mk (negative : Bool) (whole fraction : List Char) (k : Int) :
    value ⟨negative, decimalValue (whole ++ fraction), k - fraction.length⟩ =
      mantissaValue whole fraction * 10 ^ k := by
  have hten : (10 : ℚ) ≠ 0 := by norm_num
  rw [value, mantissaValue, zpow_sub₀ hten, zpow_natCast]
  ring

theorem numeral_of_readUnsigned? {sign cs : List Char} {negative : Bool} {d : Decimal}
    (hsign : Sign sign negative) (h : readUnsigned? negative cs = some d) :
    Numeral (sign ++ cs) d.negative d.value := by
  obtain ⟨⟨whole, fraction, rest⟩, hsplit, h⟩ := Option.bind_eq_some_iff.mp h
  obtain ⟨k, hk, h⟩ := Option.bind_eq_some_iff.mp h
  cases h
  obtain ⟨mantissa, rfl, hmantissa⟩ := mantissa_of_splitMantissa? hsplit
  rw [value_mk]
  exact .mk hsign hmantissa (exponent_of_readExponent? hk)

theorem readUnsigned?_of_parts (negative : Bool) {mantissa exponent : List Char} {q : ℚ} {k : Int}
    (hmantissa : Mantissa mantissa q) (hexponent : Exponent exponent k) :
    ∃ d, readUnsigned? negative (mantissa ++ exponent) = some d ∧ d.negative = negative ∧
      d.value = q * 10 ^ k := by
  obtain ⟨whole, fraction, hsplit, rfl⟩ := splitMantissa?_of_mantissa hmantissa hexponent
  refine ⟨⟨negative, decimalValue (whole ++ fraction), k - fraction.length⟩, ?_, rfl, value_mk ..⟩
  rw [readUnsigned?, hsplit]
  simp [readExponent?_of_exponent hexponent]

/-- A mantissa does not start with a sign. -/
theorem Mantissa.exists_cons {cs : List Char} {q : ℚ} (h : Mantissa cs q) :
    ∃ c r, cs = c :: r ∧ (isDigit c = true ∨ c = '.') := by
  cases h with
  | whole hds hne =>
    obtain ⟨c, r, rfl⟩ := List.exists_cons_of_ne_nil hne
    exact ⟨c, r, rfl, .inl (hds c (List.mem_cons_self ..))⟩
  | @point ds fs hds hfs hne =>
    cases ds with
    | nil => exact ⟨'.', fs, rfl, .inr rfl⟩
    | cons c ds => exact ⟨c, ds ++ '.' :: fs, rfl, .inl (hds c (List.mem_cons_self ..))⟩

theorem Mantissa.read?_append {mantissa : List Char} {q : ℚ} (h : Mantissa mantissa q)
    (r : List Char) : read? (mantissa ++ r) = readUnsigned? false (mantissa ++ r) := by
  obtain ⟨c, cs, rfl, hc⟩ := h.exists_cons
  have hsign : c ≠ '+' ∧ c ≠ '-' := hc.elim ne_sign_of_isDigit (by rintro rfl; decide)
  unfold read?
  split
  · next heq => exact absurd (List.cons.inj heq).1 hsign.1
  · next heq => exact absurd (List.cons.inj heq).1 hsign.2
  · rfl

/-- What is read is a numeral. -/
theorem numeral_of_read? {cs : List Char} {d : Decimal} (h : read? cs = some d) :
    Numeral cs d.negative d.value := by
  unfold read? at h
  split at h
  · exact numeral_of_readUnsigned? .plus h
  · exact numeral_of_readUnsigned? .minus h
  · exact numeral_of_readUnsigned? .none h

/-- Numerals are read. -/
theorem exists_read? {cs : List Char} {negative : Bool} {q : ℚ} (h : Numeral cs negative q) :
    ∃ d, read? cs = some d ∧ d.negative = negative ∧ d.value = q := by
  obtain ⟨hsign, hmantissa, hexponent⟩ := h
  obtain ⟨d, hread, hd⟩ := readUnsigned?_of_parts negative hmantissa hexponent
  refine ⟨d, ?_, hd⟩
  cases hsign with
  | plus | minus => exact hread
  | none => rwa [List.nil_append, hmantissa.read?_append]

/-- No numerals: a lone point, two signs, an exponent without digits, a separator, a word. -/
example : [".", "+-1", "1e", "1e+", "1_0", "-inf", "0x1"].all
    (fun s => (read? s.toList).isNone) = true := by decide

/-! ## Rounding -/

theorem value_eq_ratio (d : Decimal) : 0 < d.ratio.2 ∧ d.value = d.ratio.1 / d.ratio.2 := by
  rw [value, Binary64.tenPow_eq, ratio]
  split
  · next h =>
    have hneg : (-d.exponent).toNat = 0 := by omega
    refine ⟨Nat.one_pos, ?_⟩
    rw [hneg]
    simp
  · next h =>
    have hneg : d.exponent.toNat = 0 := by omega
    refine ⟨Nat.pow_pos (by decide), ?_⟩
    rw [hneg]
    simp [div_eq_mul_inv]

/-- The size of a decimal is the place of its first digit. -/
theorem value_bounds {d : Decimal} (hd : 0 < d.digits) :
    (10 : ℚ) ^ (d.exponent + digitCount d.digits - 1) ≤ d.value ∧
      d.value < (10 : ℚ) ^ (d.exponent + digitCount d.digits) := by
  have hten : (10 : ℚ) ≠ 0 := by norm_num
  have hpow : (0 : ℚ) < 10 ^ d.exponent := by positivity
  obtain ⟨hlow, hhigh⟩ := Binary64.digitCount_spec hd
  have hcount : 0 < digitCount d.digits := Nat.length_toDigits_pos
  have hpred : d.exponent + digitCount d.digits - 1 =
      (digitCount d.digits - 1 : Nat) + d.exponent := by omega
  constructor
  · rw [hpred, zpow_add₀ hten, zpow_natCast, value]
    exact mul_le_mul_of_nonneg_right (by exact_mod_cast hlow) hpow.le
  · rw [add_comm, zpow_add₀ hten, zpow_natCast, value]
    exact mul_lt_mul_of_pos_right (by exact_mod_cast hhigh) hpow

/-- Zero, where the first digit comes too late for any digits to matter. -/
theorem isRounded_zero_of_lt (negative : Bool) {q : ℚ} {places : Nat} (h : 0 ≤ q)
    (hplaces : 2 * Binary64.unitsPerOne ≤ 10 ^ places) (hq : q ≤ 10 ^ (-(places : Int))) :
    Binary64.IsRounded negative q (.zero negative) := by
  have hplaces : 2 * (Binary64.unitsPerOne : ℚ) ≤ 10 ^ places := by exact_mod_cast hplaces
  have hunits : 0 ≤ 2 * (Binary64.unitsPerOne : ℚ) := mul_nonneg zero_le_two (Nat.cast_nonneg _)
  refine Binary64.isRounded_zero negative h ?_
  rw [zpow_neg, zpow_natCast] at hq
  calc 2 * (q * Binary64.unitsPerOne) = q * (2 * Binary64.unitsPerOne) := by ring
    _ ≤ (10 ^ places)⁻¹ * 10 ^ places := mul_le_mul hq hplaces hunits (by positivity)
    _ = 1 := inv_mul_cancel₀ (by positivity)

/-- Infinity, where the first digit comes too early for any digits to matter. -/
theorem isRounded_infinity_of_ge (negative : Bool) {q : ℚ} {places : Nat}
    (hplaces : Binary64.unitsOf Binary64.infinityMagnitude ≤ 10 ^ places * Binary64.unitsPerOne)
    (hq : (10 : ℚ) ^ (places : Int) ≤ q) :
    Binary64.IsRounded negative q (.infinity negative) := by
  have hplaces : (Binary64.unitsOf Binary64.infinityMagnitude : ℚ) ≤
      10 ^ places * Binary64.unitsPerOne := by exact_mod_cast hplaces
  rw [zpow_natCast] at hq
  exact Binary64.isRounded_infinity negative
    (hplaces.trans (mul_le_mul_of_nonneg_right hq (Nat.cast_nonneg _)))

/-- A decimal is rounded correctly, whatever its exponent. -/
theorem isRounded_toBinary64 (d : Decimal) :
    Binary64.IsRounded d.negative d.value d.toBinary64 := by
  have hten : (1 : ℚ) ≤ 10 := by norm_num
  -- The places have names, so that no step computes the powers.
  obtain ⟨low, hlow, hzero⟩ : ∃ low : Nat, low = 330 ∧ 2 * Binary64.unitsPerOne ≤ 10 ^ low :=
    ⟨330, rfl, by decide +kernel⟩
  obtain ⟨high, hhigh, hinfinity⟩ : ∃ high : Nat, high = 311 ∧
      Binary64.unitsOf Binary64.infinityMagnitude ≤ 10 ^ high * Binary64.unitsPerOne :=
    ⟨311, rfl, by decide +kernel⟩
  have hnonneg : 0 ≤ d.value := by
    unfold value
    positivity
  unfold toBinary64
  dsimp only
  split
  · next h =>
    refine isRounded_zero_of_lt d.negative hnonneg hzero ?_
    by_cases hdigits : d.digits = 0
    · rw [value, hdigits, Nat.cast_zero, zero_mul]
      positivity
    · have hsize := h.resolve_left hdigits
      refine (value_bounds (Nat.pos_of_ne_zero hdigits)).2.le.trans ?_
      exact zpow_le_zpow_right₀ hten (by omega)
  next hsmall =>
  split
  · next h =>
    have hdigits := Nat.pos_of_ne_zero (not_or.mp hsmall).1
    refine isRounded_infinity_of_ge d.negative hinfinity ?_
    exact (zpow_le_zpow_right₀ hten (by omega)).trans (value_bounds hdigits).1
  · obtain ⟨hden, hvalue⟩ := value_eq_ratio d
    rw [hvalue]
    exact Binary64.isRounded_ofRatio d.negative d.ratio.1 hden

end Decimal
end MarkupEval
