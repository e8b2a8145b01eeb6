import MarkupEval.Proofs.Json.WrittenFloats
import MarkupEval.Proofs.Number.Drift
import MarkupEval.Proofs.Value.MarkedText
import MarkupEval.Proofs.Value.StoredJson

/-!
# Finite numbers read back from JSON

The reader does not round the decimal that a number is written as, but rounds in steps. What it
reads may be another number, though never a far one: any finite number is read as a number of its
sign at most three magnitudes away, and as itself where the digits and the power of ten are exact
(`exists_readBack`). Integers of safe size have no point in marked text and come back as they are.
-/

namespace MarkupEval

open Json NumberLayout

namespace Binary64

variable {x : Binary64} {d : Nat} {k : Int}

/-! ## Written digits -/

/-- The digits and the exponent in the JSON text of a number. -/
def written (x : Binary64) : Nat × Int := textDigits x.shortest.1 x.shortest.2

/-- The zero after the point does not change the decimal. -/
theorem IsShort.textDigits (h : x.IsShort d k) (hd : 0 < d) :
    x.IsShort (textDigits d k).1 (textDigits d k).2 := by
  unfold Json.textDigits
  split
  · next hwhole =>
    obtain ⟨j, hj⟩ := Int.eq_ofNat_of_zero_le hwhole.1
    have hvalue : decimalUnits (d * 10 ^ j * 10) (-1) = decimalUnits d k := by
      rw [Nat.mul_assoc, ← Nat.pow_succ, decimalUnits_mul_pow, hj]
      congr 1
      push_cast
      omega
    have hsmall : d * 10 ^ j < 10 ^ 16 := mul_pow_lt hd (by omega)
    rw [hj, Int.toNat_natCast]
    refine ⟨?_, by omega, by norm_num⟩
    rw [StandsFor, hvalue]
    exact h.standsFor
  · exact h

theorem isShort_written (hx : 0 < x.significand) : x.IsShort x.written.1 x.written.2 :=
  (isShort_shortest hx).textDigits ((isShort_shortest hx).digits_pos hx)

/-- A number that is read for another one: of the same sign and at most three magnitudes away. -/
structure Drift (x y : Binary64) : Prop where
  finite : y.isFinite = true
  negative : y.negative = x.negative
  magnitude_le : y.magnitude ≤ x.magnitude + 3
  le_magnitude : x.magnitude ≤ y.magnitude + 3

/-! ## Reading the digits -/

/-- Digits and a power of ten that are binary numbers, so that one rounding is left. -/
def IsExact (d : Nat) (k : Int) : Prop := d < 2 * binade ∧ k.natAbs ≤ 22

/-- The three largest numbers are not read as infinity. Their digits are too many to be exact. -/
theorem scaleByTen_largest : ∀ negative : Bool, ∀ i < 3, ∀ h : infinityMagnitude - 3 + i < signUnit,
    let x : Binary64 := ⟨negative, infinityMagnitude - 3 + i, h⟩
    2 * binade ≤ x.written.1 ∧ (scaleByTen 5 (ofNat x.written.1) x.written.2).any (fun y =>
      !y.negative && y.isFinite && (y.magnitude ≤ x.magnitude + 3) &&
        (x.magnitude ≤ y.magnitude + 3)) = true := by
  decide +kernel

theorem magnitude_of_exact {num den : Nat} (h : Scaled d k num den) (hexact : IsExact d k)
    (hstands : x.StandsFor d k) : nearestMagnitude num den = x.magnitude := by
  refine nearestMagnitude_eq_of_bounds h.den_pos ((Neighbourhood.holds_iff h.den_pos).mp ?_)
  rw [h.exact hexact.1 hexact.2]
  exact hstands

theorem eq_of_magnitude {y : Binary64} (hnegative : y.negative = x.negative)
    (hmagnitude : y.magnitude = x.magnitude) : y = x := by
  cases x
  cases y
  cases hnegative
  cases hmagnitude
  rfl

/-- The digits of a number are read as a number that is not far. -/
theorem exists_approximate (hfinite : x.isFinite = true) (hx : ¬x.isZero = true) :
    ∃ y, approximate? x.negative x.written.1 x.written.2 = some y ∧ Drift x y ∧
      (IsExact x.written.1 x.written.2 → y = x) := by
  have hmagnitude : x.magnitude < infinityMagnitude := of_decide_eq_true hfinite
  have hpos := significand_pos hx
  by_cases hlarge : x.magnitude + 3 < infinityMagnitude
  · have hshort := isShort_written hpos
    obtain ⟨num, den, hscaled⟩ := exists_scaled (hshort.digits_pos hpos)
      (hshort.digits_le.trans (Nat.pow_le_pow_right (by decide) (by decide)))
      hshort.exponent_ge (hshort.exponent_le hpos hmagnitude)
    have hup := drift_up hscaled hpos hmagnitude hshort.standsFor
    have hdown := drift_down hscaled hpos hmagnitude hshort.standsFor
    have hresult : nearestMagnitude num den < infinityMagnitude := hup.trans_lt hlarge
    obtain ⟨hlt, heq⟩ := hscaled.result hresult
    refine ⟨⟨x.negative, nearestMagnitude num den, hlt⟩, ?_, ?_, fun hexact => ?_⟩
    · rw [approximate?, heq]
      rfl
    · exact ⟨decide_eq_true hresult, rfl, hup, hdown⟩
    · exact eq_of_magnitude rfl (magnitude_of_exact hscaled hexact hshort.standsFor)
  · obtain ⟨negative, magnitude, h⟩ := x
    obtain ⟨i, rfl⟩ : ∃ i, magnitude = infinityMagnitude - 3 + i := Nat.exists_eq_add_of_le
      (Nat.sub_le_of_le_add (Nat.not_lt.mp hlarge))
    have hthree : 3 ≤ infinityMagnitude := by decide
    have hi : i < 3 := by
      dsimp only at hmagnitude
      omega
    obtain ⟨hlong, hsome⟩ := scaleByTen_largest negative i hi h
    obtain ⟨y, heq, hy⟩ := (Option.any_eq_true ..).mp hsome
    simp only [Bool.and_eq_true, Bool.not_eq_true', decide_eq_true_eq] at hy
    obtain ⟨⟨⟨-, hyfinite⟩, hup⟩, hdown⟩ := hy
    refine ⟨{ y with negative }, ?_, ⟨hyfinite, rfl, hup, hdown⟩, fun hexact => ?_⟩
    · rw [approximate?, heq]
      rfl
    · exact absurd hexact.1 (Nat.not_lt.mpr hlong)

/-! ## Reading the text -/

/-- The text of a finite number without its sign. -/
def body (x : Binary64) : List Char :=
  if x.isZero then ['0', '.', '0'] else json.magnitudeChars x.shortest.1 x.shortest.2

theorem floatChars_eq (hfinite : x.isFinite = true) :
    floatChars x = if x.negative then '-' :: x.body else x.body := by
  rw [floatChars, if_pos hfinite]
  rfl

theorem takes_body {y : Binary64} (hfinite : x.isFinite = true) (hx : ¬x.isZero = true)
    (hy : approximate? x.negative x.written.1 x.written.2 = some y) :
    Takes (readNumber x.negative) x.body (.float y) := by
  intro rest hrest
  have hpos := significand_pos hx
  have hshort := isShort_shortest hpos
  have hexponent := hshort.exponent_le hpos (of_decide_eq_true hfinite)
  have hleast := hshort.exponent_ge
  rw [body, if_neg hx, readNumber_magnitudeChars x.negative (Nat.ne_of_gt (hshort.digits_pos hpos))
    hshort.digits_le (by omega) hrest, finishFloat]
  rw [written] at hy
  simp only [hy]

theorem takes_body_zero (hx : x.isZero = true) :
    Takes (readNumber x.negative) x.body (.float x) := by
  intro rest hrest
  have hzero : { Binary64.ofNat 0 with negative := x.negative } = x :=
    eq_of_magnitude rfl (beq_iff_eq.mp hx).symm
  rw [body, if_pos hx]
  exact (readNumber_whole x.negative (Nat.zero_le _) hrest).trans (by rw [hzero])

theorem Drift.refl (hfinite : x.isFinite = true) : Drift x x :=
  ⟨hfinite, rfl, Nat.le_add_right .., Nat.le_add_right ..⟩

theorem exists_takes_body (hfinite : x.isFinite = true) :
    ∃ y, Takes (readNumber x.negative) x.body (.float y) ∧ Drift x y ∧
      (IsExact x.written.1 x.written.2 → y = x) := by
  by_cases hx : x.isZero = true
  · exact ⟨x, takes_body_zero hx, .refl hfinite, fun _ => rfl⟩
  · obtain ⟨y, hy, hdrift⟩ := exists_approximate hfinite hx
    exact ⟨y, takes_body hfinite hx hy, hdrift⟩

theorem exists_digit_of_readNumber {negative : Bool} {cs : List Char} {p : Json × List Char}
    (h : readNumber negative cs = .ok p) : ∃ c r, cs = c :: r ∧ Text.isDigit c = true := by
  cases cs with
  | nil => cases h
  | cons c r =>
    refine ⟨c, r, rfl, ?_⟩
    by_contra hc
    rw [readNumber, if_pos (by simpa using hc)] at h
    cases h

section
variable {y : Binary64}

/-- The sign stands before the rest, which starts with a digit. -/
theorem takes_of_body {α : Type} {reader : Reader α} {v : α} (hfinite : x.isFinite = true)
    (hminus : ∀ r rest, readNumber true r = .ok (.float y, rest) →
      reader ('-' :: r) = .ok (v, rest))
    (hdigit : ∀ c r rest, Text.isDigit c = true → readNumber false (c :: r) = .ok (.float y, rest) →
      reader (c :: r) = .ok (v, rest))
    (h : Takes (readNumber x.negative) x.body (.float y)) : Takes reader (floatChars x) v := by
  intro rest hrest
  have hread := h rest hrest
  rw [floatChars_eq hfinite]
  cases hsign : x.negative with
  | true =>
    rw [hsign] at hread
    exact hminus _ _ hread
  | false =>
    rw [hsign] at hread
    obtain ⟨c, r, hcons, hc⟩ := exists_digit_of_readNumber hread
    rw [if_neg Bool.false_ne_true, hcons]
    exact hdigit c r rest hc (hcons ▸ hread)

/-- A stored number is read as the number of its text. -/
theorem read_number (hfinite : x.isFinite = true)
    (h : Takes (readNumber x.negative) x.body (.float y)) :
    Stored.read (Stored.toJson (.number x)).text = .ok (.number y) := by
  have hcontent : Takes Stored.readBinary64 (floatChars x) y := takes_of_body hfinite
    (fun _ _ hread => Stored.readBinary64_minus hread)
    (fun _ _ _ hc hread => Stored.readBinary64_digit hc hread) h
  rw [Stored.read, Json.text, String.toList_ofList]
  exact readAll_eq_ok (Stored.takes_tagged (s := .number y) (hcontent.map Stored.number))

/-- So is a number that is marked text. -/
theorem parse_number (hfinite : x.isFinite = true) (hsafe : x.safeInteger? = none)
    (h : Takes (readNumber x.negative) x.body (.float y)) :
    MarkedText.parse (MarkedText.stringify (.number x)) = .ok (.number y) := by
  have hcontent : Takes (readValue maxDepth) (floatChars x) (.float y) := takes_of_body hfinite
    (fun _ _ hread => (readValue_minus ..).trans hread)
    (fun _ _ _ hc hread => (readValue_digit hc ..).trans hread) h
  have hjson : x.toJson = .float x := by
    rw [toJson, hsafe]
    exact if_pos hfinite
  have hread : Json.read (MarkedText.stringify (.number x)).toList = .ok (.float y) := by
    rw [MarkedText.stringify, MarkedText.encode, hjson, Json.text, String.toList_ofList]
    exact readAll_eq_ok hcontent
  rw [MarkedText.parse, hread]
  rfl

theorem parse_safeInteger {n : Int} (hsafe : x.safeInteger? = some n) :
    ∃ z, MarkedText.parse (MarkedText.stringify (.number x)) = .ok (.number z) ∧
      z.same x = true := by
  obtain ⟨hint, hsize⟩ := safeInteger?_iff.mp hsafe
  have hexact : x.toJson.Exact := MarkedText.exact_number fun _ => ⟨n, hint, hsize⟩
  have hread : Json.read (MarkedText.stringify (.number x)).toList = .ok x.toJson := by
    rw [MarkedText.stringify, MarkedText.encode, Json.text, String.toList_ofList]
    refine read_chars hexact ?_
    rw [toJson, hsafe]
    exact Nat.zero_le _
  refine ⟨ofInt n, ?_, ofInt_same hint⟩
  rw [MarkedText.parse, hread, toJson, hsafe]
  rfl

/-- Every finite number is read back as a number of its sign at most three magnitudes away, and as
itself where the written digits and the power of ten are exact. In marked text integers of safe size
are always read back as themselves. -/
theorem exists_readBack (hfinite : x.isFinite = true) :
    ∃ y, Stored.read (Stored.toJson (.number x)).text = .ok (.number y) ∧
      (∃ z, MarkedText.parse (MarkedText.stringify (.number x)) = .ok (.number z) ∧
        z.same (if x.safeInteger?.isSome then x else y) = true) ∧
      Drift x y ∧ (IsExact x.written.1 x.written.2 → y = x) := by
  obtain ⟨y, htakes, hdrift⟩ := exists_takes_body hfinite
  refine ⟨y, read_number hfinite htakes, ?_, hdrift⟩
  cases hsafe : x.safeInteger? with
  | some n => exact parse_safeInteger hsafe
  | none => exact ⟨y, parse_number hfinite hsafe htakes, same_refl y⟩

/-- A tenth has one digit and is read back as itself. -/
theorem exists_readBack_tenth :
    let x := ofBits 0x3FB999999999999A
    x.isFinite = true ∧ IsExact x.written.1 x.written.2 ∧
      Stored.read (Stored.toJson (.number x)).text = .ok (.number x) := by
  intro x
  have hfinite : x.isFinite = true := by decide
  have hexact : IsExact x.written.1 x.written.2 := by
    unfold IsExact
    decide +kernel
  clear_value x
  obtain ⟨y, hread, -, -, hsame⟩ := exists_readBack hfinite
  obtain rfl := hsame hexact
  exact ⟨hfinite, hexact, hread⟩

/-- The number `1e-23` is read as its upper neighbour: the power of ten is rounded before the
quotient is. -/
theorem readBack_ne_self :
    let x := ofBits 0x3B282DB34012B251
    let y := ofBits 0x3B282DB34012B252
    x.isFinite = true ∧ Stored.read (Stored.toJson (.number x)).text = .ok (.number y) ∧
      MarkedText.parse (MarkedText.stringify (.number x)) = .ok (.number y) ∧
      y.same x = false := by
  intro x y
  have hfinite : x.isFinite = true := by decide
  have hx : ¬x.isZero = true := by decide
  have hsafe : x.safeInteger? = none := by decide +kernel
  have hread : approximate? x.negative x.written.1 x.written.2 = some y := by decide +kernel
  have hne : y.same x = false := by decide
  clear_value x y
  have htakes := takes_body hfinite hx hread
  exact ⟨hfinite, read_number hfinite htakes, parse_number hfinite hsafe htakes, hne⟩

end

end Binary64
end MarkupEval
