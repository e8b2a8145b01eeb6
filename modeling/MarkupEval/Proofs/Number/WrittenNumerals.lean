import MarkupEval.Proofs.Json.WrittenFloats
import MarkupEval.Proofs.Number.Numeral
import MarkupEval.Text.Blank
import MarkupEval.Text.Index

/-!
# Written numbers are numerals

In each of its layouts the text of a magnitude is a numeral for the digits and the exponent
(`spells_magnitudeChars`). So is the text of an integer (`numeral_intChars`). Numerals have no
blanks that could be trimmed (`Numeral.trim_eq_self`).
-/

namespace MarkupEval

namespace Text

theorem decimalValue_zeros (z : Nat) (ds : List Char) :
    decimalValue (List.replicate z '0' ++ ds) = decimalValue ds := by
  induction z with
  | zero => rfl
  | succ z ih => exact ih

theorem isBlank_of_isDigit {c : Char} (h : isDigit c = true) : isBlank c = false := by
  simp only [isDigit, Bool.and_eq_true, decide_eq_true_eq, Char.le_def,
    UInt32.le_iff_toNat_le] at h
  have hlow : 48 ≤ c.toNat := h.1
  have hhigh : c.toNat ≤ 57 := h.2
  simp [isBlank]
  omega

theorem trim_eq_self {cs : List Char} (h : ∀ c ∈ cs, isBlank c = false) : trim cs = cs := by
  have hdrop (cs : List Char) (h : ∀ c ∈ cs, isBlank c = false) : cs.dropWhile isBlank = cs := by
    cases cs with
    | nil => rfl
    | cons c cs => rw [List.dropWhile_cons, h c (List.mem_cons_self ..)]; rfl
  rw [trim, hdrop cs h, hdrop _ (by simpa using h), List.reverse_reverse]

end Text

namespace Decimal

open Text Json NumberLayout

/-! ## No blanks -/

theorem Digits.not_isBlank {ds : List Char} (h : Digits ds) : ∀ c ∈ ds, isBlank c = false :=
  fun c hc => isBlank_of_isDigit (h c hc)

theorem Sign.not_isBlank {cs : List Char} {negative : Bool} (h : Sign cs negative) :
    ∀ c ∈ cs, isBlank c = false := by
  cases h with
  | none => nofun
  | plus | minus => exact List.forall_mem_singleton.mpr (by decide)

theorem Mantissa.not_isBlank {cs : List Char} {q : ℚ} (h : Mantissa cs q) :
    ∀ c ∈ cs, isBlank c = false := by
  cases h with
  | whole hds _ => exact hds.not_isBlank
  | point hds hfs _ =>
    rw [List.forall_mem_append, List.forall_mem_cons]
    exact ⟨hds.not_isBlank, by decide, hfs.not_isBlank⟩

theorem Exponent.not_isBlank {cs : List Char} {k : Int} (h : Exponent cs k) :
    ∀ c ∈ cs, isBlank c = false := by
  cases h with
  | none => nofun
  | mark hmark hsign hds _ =>
    rw [List.forall_mem_cons, List.forall_mem_append]
    exact ⟨by rcases hmark with rfl | rfl <;> decide, hsign.not_isBlank, hds.not_isBlank⟩

/-- Trimming leaves a numeral as it is. -/
theorem Numeral.trim_eq_self {cs : List Char} {negative : Bool} {q : ℚ}
    (h : Numeral cs negative q) : trim cs = cs := by
  obtain ⟨hsign, hmantissa, hexponent⟩ := h
  refine Text.trim_eq_self ?_
  rw [List.forall_mem_append, List.forall_mem_append]
  exact ⟨hsign.not_isBlank, hmantissa.not_isBlank, hexponent.not_isBlank⟩

/-! ## Integers -/

theorem digits_digitChars (n : Nat) : Digits (digitChars n) := fun _ => isDigit_of_mem_digitChars

theorem digitChars_ne_nil (n : Nat) : digitChars n ≠ [] :=
  List.ne_nil_of_length_pos Nat.length_toDigits_pos

theorem decimalValue_digitChars (n : Nat) : decimalValue (digitChars n) = n :=
  decimalValue_toDigits n

theorem exists_sign_intChars (n : Int) : ∃ sign, Sign sign (n < 0) ∧
    intChars n = sign ++ digitChars n.natAbs := by
  unfold intChars
  split
  · next h => exact ⟨['-'], decide_eq_true h ▸ .minus, rfl⟩
  · next h => exact ⟨[], decide_eq_false h ▸ .none, rfl⟩

theorem numeral_intChars (n : Int) : Numeral (intChars n) (n < 0) n.natAbs := by
  obtain ⟨sign, hsign, hchars⟩ := exists_sign_intChars n
  have hmantissa := Mantissa.whole (digits_digitChars n.natAbs) (digitChars_ne_nil _)
  have h := Numeral.mk hsign hmantissa .none
  rwa [List.append_nil, ← hchars, decimalValue_digitChars, zpow_zero, mul_one] at h

theorem exponent_intChars (k : Int) : Exponent ('e' :: intChars k) k := by
  obtain ⟨sign, hsign, hchars⟩ := exists_sign_intChars k
  have h := Exponent.mark (.inl rfl) hsign (digits_digitChars k.natAbs) (digitChars_ne_nil _)
  have hsigned : (if decide (k < 0) = true then -(k.natAbs : Int) else k.natAbs) = k := by
    simp only [decide_eq_true_eq]
    omega
  rwa [← hchars, decimalValue_digitChars, hsigned] at h

/-! ## Magnitudes -/

/-- A text is a numeral for a real, whatever sign is put in front of it. -/
def Spells (cs : List Char) (q : ℚ) : Prop :=
  ∀ sign negative, Sign sign negative → Numeral (sign ++ cs) negative q

variable {d : Nat} {j k : Int}

/-- Digits among which or after which stands a point. -/
theorem spells_point {whole fraction : List Char} (hwhole : Digits whole)
    (hfraction : Digits fraction) (hne : whole ≠ []) (hvalue : decimalValue (whole ++ fraction) = d)
    (hk : (fraction.length : Int) = -k) : Spells (whole ++ '.' :: fraction) (d * 10 ^ k) := by
  intro sign negative hsign
  have h := Numeral.mk hsign (Mantissa.point hwhole hfraction (.inl hne)) .none
  have hpow : (10 : ℚ) ^ k = (10 ^ fraction.length)⁻¹ := by
    rw [← neg_neg k, ← hk, zpow_neg, zpow_natCast]
  rwa [List.append_nil, hvalue, zpow_zero, mul_one, div_eq_mul_inv, ← hpow] at h

/-- Digits with a point after the first, unless it is the only one, and an exponent. -/
theorem spells_exponent {c : Char} {ds : List Char} (hds : Digits (c :: ds))
    (hvalue : decimalValue (c :: ds) = d) (hk : (ds.length : Int) + k = j) :
    Spells (c :: (if ds.isEmpty then [] else '.' :: ds) ++ 'e' :: intChars j) (d * 10 ^ k) := by
  intro sign negative hsign
  have hten : (10 : ℚ) ≠ 0 := by norm_num
  have hmantissa : Mantissa (c :: (if ds.isEmpty then [] else '.' :: ds)) (d / 10 ^ ds.length) := by
    cases ds with
    | nil =>
      rw [List.length_nil, pow_zero, div_one, ← hvalue]
      exact .whole hds (List.cons_ne_nil _ _)
    | cons c' ds =>
      rw [← hvalue]
      exact .point (List.forall_mem_singleton.mpr (hds c (List.mem_cons_self ..)))
        (fun x hx => hds x (List.mem_cons_of_mem _ hx)) (.inl (List.cons_ne_nil _ _))
  have h := Numeral.mk hsign hmantissa (exponent_intChars j)
  have hpow : (d : ℚ) / 10 ^ ds.length * 10 ^ j = d * 10 ^ k := by
    rw [← hk, zpow_add₀ hten, zpow_natCast]
    field_simp
  rwa [hpow] at h

theorem digits_zero : Digits ['0'] := List.forall_mem_singleton.mpr rfl

/-- A whole number that is written out, with its zeros and a zero after the point. -/
theorem spells_whole (hd : 0 < d) (j : Nat) :
    Spells (digitChars d ++ List.replicate j '0' ++ ['.', '0']) (d * 10 ^ (j : Int)) := by
  have hvalue : decimalValue (digitChars (d * 10 ^ j) ++ ['0']) = d * 10 ^ (j + 1) := by
    rw [Binary64.digitChars_mul_pow hd, List.append_assoc, ← List.replicate_succ',
      ← Binary64.digitChars_mul_pow hd, decimalValue_digitChars]
  have h := spells_point (k := -1) (digits_digitChars (d * 10 ^ j)) digits_zero
    (digitChars_ne_nil _) hvalue rfl
  have hpow : ((d * 10 ^ (j + 1) : Nat) : ℚ) * 10 ^ (-1 : Int) = d * 10 ^ (j : Int) := by
    push_cast
    rw [zpow_natCast]
    ring
  rwa [hpow, Binary64.digitChars_mul_pow hd] at h

/-- A number below one that is written out, with its zeros before the digits. -/
theorem spells_zeros (zeros : Nat) (hk : (zeros : Int) + (digitChars d).length = -k) :
    Spells ('0' :: '.' :: List.replicate zeros '0' ++ digitChars d) (d * 10 ^ k) := by
  have hfraction : Digits (List.replicate zeros '0' ++ digitChars d) :=
    List.forall_mem_append.mpr
      ⟨fun c hc => List.eq_of_mem_replicate hc ▸ rfl, digits_digitChars d⟩
  have hvalue := (decimalValue_zeros (zeros + 1) _).trans (decimalValue_digitChars d)
  rw [← List.length_replicate (n := zeros) (a := '0'), ← Nat.cast_add, ← List.length_append] at hk
  exact spells_point digits_zero hfraction (List.cons_ne_nil _ _) hvalue hk

/-- In each layout the text of a magnitude is a numeral for its digits and its exponent. -/
theorem spells_magnitudeChars (hd : 0 < d) (k : Int) :
    Spells (json.magnitudeChars d k) (d * 10 ^ k) := by
  have hdigits := digits_digitChars d
  have hvalue := decimalValue_digitChars d
  rw [json_magnitudeChars]
  -- The layouts in their order: whole, with the point among the digits, below one, with an exponent.
  split
  · next h =>
    obtain ⟨j, rfl⟩ := Int.eq_ofNat_of_zero_le h.1
    exact spells_whole hd j
  split
  · next h =>
    have hlength : 0 < (digitChars d).length := Nat.length_toDigits_pos
    refine spells_point (fun c hc => hdigits c (List.mem_of_mem_take hc))
      (fun c hc => hdigits c (List.mem_of_mem_drop hc)) (List.ne_nil_of_length_pos ?_) ?_ ?_
    · rw [List.length_take]
      omega
    · rw [List.take_append_drop, hvalue]
    · rw [List.length_drop]
      omega
  split
  · exact spells_zeros _ (by omega)
  · cases hds : digitChars d with
    | nil => exact absurd hds (digitChars_ne_nil d)
    | cons c ds =>
      rw [hds] at hdigits hvalue
      refine spells_exponent hdigits hvalue ?_
      rw [List.length_cons]
      omega

end Decimal
end MarkupEval
