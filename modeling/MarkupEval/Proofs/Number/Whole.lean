import Mathlib.Data.Nat.Digits.Defs
import MarkupEval.Proofs.Number.Nearest
import MarkupEval.Json.Writer

/-!
# Whole numbers as numerals

A whole number of at most 53 bits is a binary number (`units_ofNat`), and quotients of such numbers
that are whole are exact (`dividedByMagnitude_ofNat`). The interval that rounds to such a number
holds no other whole number, so a grid of multiples of a power of ten has a point in it exactly if
the number is on the grid (`gridPoint?_whole`). The shortest digits are therefore its own, and in
JSON it is written with all its digits and a zero after the point (`floatChars_whole`).
-/

namespace MarkupEval

theorem roundHalfEven_mul_mul (n d : Nat) {c : Nat} (hc : 0 < c) :
    roundHalfEven (n * c) (d * c) = roundHalfEven n d := by
  have hbelow : 2 * (n % d * c) < d * c ↔ 2 * (n % d) < d := by
    rw [← Nat.mul_assoc, Nat.mul_lt_mul_right hc]
  have habove : d * c < 2 * (n % d * c) ↔ d < 2 * (n % d) := by
    rw [← Nat.mul_assoc, Nat.mul_lt_mul_right hc]
  simp only [roundHalfEven, Nat.mul_div_mul_right n d hc, Nat.mul_mod_mul_right, hbelow, habove]

namespace Binary64

/-- The exponent has a name here, so that no step computes the power. -/
theorem exists_unitsPerOne_eq : ∃ n, n = 1074 ∧ unitsPerOne = 2 ^ n := by
  obtain ⟨n, hn⟩ : ∃ n, n = 1074 := ⟨_, rfl⟩
  refine ⟨n, hn, ?_⟩
  rw [unitsPerOne, ← Nat.one_shiftLeft n, hn]

theorem unitsPerOne_pos : 0 < unitsPerOne := by
  obtain ⟨n, -, hone⟩ := exists_unitsPerOne_eq
  exact hone ▸ Nat.two_pow_pos n

/-! ## Quotients -/

theorem nearestMagnitude_mul_mul (n d : Nat) {c : Nat} (hc : 0 < c) :
    nearestMagnitude (n * c) (d * c) = nearestMagnitude n d := by
  have hshift (s : Nat) : (d * c) <<< s = d <<< s * c := by
    rw [Nat.shiftLeft_eq, Nat.shiftLeft_eq, Nat.mul_right_comm]
  simp only [nearestMagnitude, Nat.mul_div_mul_right n d hc, hshift, roundHalfEven_mul_mul _ _ hc]

/-- A ratio may be reduced before it is rounded. -/
theorem ofRatio_mul_mul (negative : Bool) (n d : Nat) {c : Nat} (hc : 0 < c) :
    ofRatio negative (n * c) (d * c) = ofRatio negative n d := by
  simp only [ofRatio, Nat.mul_right_comm n c, nearestMagnitude_mul_mul _ _ hc]

theorem ofNat_eq_of_units {n : Nat} {x : Binary64} (hfinite : x.magnitude < infinityMagnitude)
    (h : n * unitsPerOne = x.units) : ofNat n = ⟨false, x.magnitude, x.magnitude_lt⟩ := by
  have hnearest : nearestMagnitude (n * unitsPerOne) 1 = x.magnitude := by
    rw [h, nearestMagnitude_units]
  simp only [ofNat, ofRatio, hnearest, dif_pos hfinite]

/-- A magnitude is a scale and a significand with its leading bit, put together. -/
theorem units_of_magnitude {x : Binary64} {e s : Nat} (h : x.magnitude = e * binade + s)
    (hlow : binade ≤ s) (hhigh : s < 2 * binade) : x.units = s * 2 ^ e := by
  rw [units_eq, h, unitsOf_add hhigh.le (.inl hlow)]

/-- Every natural number of at most 53 bits is a binary number. -/
theorem exists_units_eq {n : Nat} (h : n < 2 * binade) :
    ∃ x : Binary64, x.magnitude < infinityMagnitude ∧ n * unitsPerOne = x.units := by
  by_cases hzero : n = 0
  · exact ⟨zero false, by decide, by rw [hzero, Nat.zero_mul]; rfl⟩
  -- The significand is the number with its leading bit moved to the place of the binade.
  have hlog : n.log2 ≤ 52 := by
    have : n.log2 < 53 := (Nat.log2_lt hzero).mpr (by rw [binade_eq] at h; omega)
    omega
  obtain ⟨s, hs⟩ : ∃ s, s = n * 2 ^ (52 - n.log2) := ⟨_, rfl⟩
  obtain ⟨e, he⟩ : ∃ e, e = n.log2 + 1022 := ⟨_, rfl⟩
  have hlow : binade ≤ s := by
    calc binade = 2 ^ n.log2 * 2 ^ (52 - n.log2) := by
          rw [binade_eq, ← Nat.pow_add, Nat.add_sub_cancel' hlog]
      _ ≤ s := hs ▸ Nat.mul_le_mul_right _ (Nat.log2_self_le hzero)
  have hhigh : s < 2 * binade := by
    calc s < 2 ^ (n.log2 + 1) * 2 ^ (52 - n.log2) :=
          hs ▸ (Nat.mul_lt_mul_right (Nat.two_pow_pos _)).mpr Nat.lt_log2_self
      _ = 2 * binade := by
          rw [binade_eq, ← Nat.pow_add, ← Nat.pow_succ']
          congr 1
          omega
  have hfinite : e * binade + s < infinityMagnitude := by
    have hscale : e * binade ≤ 1074 * binade := Nat.mul_le_mul_right _ (by omega)
    have hinfinity : infinityMagnitude = 2047 * binade := rfl
    omega
  have hsign : infinityMagnitude < signUnit := by decide
  let x : Binary64 := ⟨false, e * binade + s, hfinite.trans hsign⟩
  have hunits : x.units = s * 2 ^ e := units_of_magnitude rfl hlow hhigh
  obtain ⟨m, hm, hone⟩ := exists_unitsPerOne_eq
  have hplaces : m = 52 - n.log2 + e := by omega
  refine ⟨x, hfinite, ?_⟩
  rw [hunits, hs, hone, hplaces, Nat.pow_add, ← Nat.mul_assoc]

theorem units_ofNat {n : Nat} (h : n < 2 * binade) : (ofNat n).units = n * unitsPerOne := by
  obtain ⟨x, hfinite, hx⟩ := exists_units_eq h
  rw [ofNat_eq_of_units hfinite hx, hx]
  rfl

/-- A quotient of whole numbers of at most 53 bits that is whole is exact. -/
theorem dividedByMagnitude_ofNat {n m : Nat} (hm : 0 < m) (h : n * m < 2 * binade)
    (h' : m < 2 * binade) : (ofNat (n * m)).dividedByMagnitude (ofNat m) = ofNat n := by
  have hone : 0 < m * unitsPerOne := Nat.mul_pos hm unitsPerOne_pos
  have hreduce := ofRatio_mul_mul false n 1 hone
  rwa [Nat.one_mul, ← Nat.mul_assoc, ← units_ofNat h, ← units_ofNat h'] at hreduce

/-! ## The interval around a whole number -/

section
variable {x : Binary64} {k : Nat}

theorem scale_le (hk : k * unitsPerOne = x.units) (hlt : k < 2 * binade) : x.scale ≤ 1074 := by
  by_cases h : x.magnitude < binade
  · rw [scale, Nat.div_eq_of_lt h]
    exact Nat.zero_le _
  · obtain ⟨n, hn, hone⟩ := exists_unitsPerOne_eq
    have hlog := log2_units h
    have hpow : x.units < 2 ^ (53 + n) := by
      rw [← hk, hone, Nat.pow_add]
      refine (Nat.mul_lt_mul_right (Nat.two_pow_pos n)).mpr ?_
      rw [binade_eq] at hlt
      omega
    have hnonzero : x.units ≠ 0 := by
      intro hzero
      rw [hzero, Nat.log2_zero] at hlog
      omega
    have := (Nat.log2_lt hnonzero).mpr hpow
    omega

theorem quartersPerOne_pos : 0 < quartersPerOne := Nat.mul_pos (by decide) unitsPerOne_pos

/-- An interval around a whole number, given in quarters of a unit, that ends before the next whole
numbers. -/
structure Neighbourhood.Isolates (i : Neighbourhood) (k : Nat) : Prop where
  centre : i.centre = k * quartersPerOne
  low_lt : i.low < i.centre
  lt_high : i.centre < i.high
  lt_low_add : i.centre < i.low + quartersPerOne
  high_lt_add : i.high < i.centre + quartersPerOne

theorem neighbourhood_isolates (hk : k * unitsPerOne = x.units) (hpos : 0 < k)
    (hlt : k < 2 * binade) : x.neighbourhood.Isolates k := by
  have hunits : x.significand * 2 ^ x.scale = k * unitsPerOne := by
    rw [hk, units, Nat.shiftLeft_eq]
  have hstep : 2 ^ x.scale ≤ unitsPerOne := by
    obtain ⟨n, hn, hone⟩ := exists_unitsPerOne_eq
    exact hone ▸ Nat.pow_le_pow_right (by decide) (hn ▸ scale_le hk hlt)
  have hstep_pos := Nat.two_pow_pos x.scale
  have hsignificand : 0 < x.significand := by
    refine Nat.pos_of_ne_zero fun hzero => ?_
    rw [hzero, Nat.zero_mul] at hunits
    exact absurd hunits.symm (Nat.ne_of_gt (Nat.mul_pos hpos unitsPerOne_pos))
  have hcentre : x.neighbourhood.centre = 4 * (k * unitsPerOne) := by
    rw [neighbourhood, ← hunits, Nat.one_shiftLeft, Nat.mul_assoc]
  have hhigh : x.neighbourhood.high = x.neighbourhood.centre + 2 * 2 ^ x.scale := by
    simp only [neighbourhood, Nat.one_shiftLeft, Nat.add_mul]
  have hlow : x.neighbourhood.low < x.neighbourhood.centre ∧
      x.neighbourhood.centre ≤ x.neighbourhood.low + 2 * 2 ^ x.scale := by
    simp only [neighbourhood, Nat.one_shiftLeft]
    split
    · rw [Nat.sub_mul]
      have := Nat.mul_le_mul_right (2 ^ x.scale) (show 1 ≤ 4 * x.significand by omega)
      omega
    · rw [Nat.sub_mul]
      have := Nat.mul_le_mul_right (2 ^ x.scale) (show 2 ≤ 4 * x.significand by omega)
      omega
  have hquarters : quartersPerOne = 4 * unitsPerOne := rfl
  constructor
  case centre => rw [hcentre, hquarters, Nat.mul_left_comm]
  case low_lt => exact hlow.1
  all_goals omega

theorem contains_of_inside {i : Neighbourhood} {point : Nat} (hlow : i.low < point)
    (hhigh : point < i.high) : i.contains 1 point = true := by
  unfold Neighbourhood.contains
  split
  · simpa using ⟨hlow.le, hhigh.le⟩
  · simpa using ⟨hlow, hhigh⟩

theorem not_contains_of_outside {i : Neighbourhood} {point : Nat}
    (h : point < i.low ∨ i.high < point) : i.contains 1 point = false := by
  unfold Neighbourhood.contains
  simp only [Nat.mul_one]
  split
  · rw [Bool.and_eq_false_iff, decide_eq_false_iff_not, decide_eq_false_iff_not]
    omega
  · rw [Bool.and_eq_false_iff, decide_eq_false_iff_not, decide_eq_false_iff_not]
    omega

/-- A grid of multiples of a power of ten stands for a whole number only if the number is on it. -/
theorem gridPoint?_whole (hk : k * unitsPerOne = x.units) (hpos : 0 < k) (hlt : k < 2 * binade)
    (e : Nat) : x.gridPoint? e = if 10 ^ e ∣ k then some (k / 10 ^ e) else none := by
  obtain ⟨hcentre, hlow, hhigh, hlow', hhigh'⟩ := neighbourhood_isolates hk hpos hlt
  have hfactor : Nat.pow 10 (-(e : Int)).toNat = 1 := by
    rw [Int.toNat_neg_natCast, Nat.pow_eq, Nat.pow_zero]
  have hunit : quartersPerOne * Nat.pow 10 (e : Int).toNat = 10 ^ e * quartersPerOne := by
    rw [Int.toNat_natCast, Nat.mul_comm, Nat.pow_eq]
  have hten : 0 < 10 ^ e := Nat.pow_pos (by decide)
  have hdiv : k * quartersPerOne / (10 ^ e * quartersPerOne) = k / 10 ^ e :=
    Nat.mul_div_mul_right _ _ quartersPerOne_pos
  have hbelow : k / 10 ^ e * (10 ^ e * quartersPerOne) + k % 10 ^ e * quartersPerOne =
      x.neighbourhood.centre := by
    rw [hcentre, ← Nat.mul_assoc, ← Nat.add_mul, Nat.div_add_mod']
  have hgap : quartersPerOne ≤ 10 ^ e * quartersPerOne := Nat.le_mul_of_pos_left _ hten
  simp only [gridPoint?, hfactor, hunit, Nat.mul_one, hcentre, hdiv]
  -- The grid points next to the number are the number itself, or at least one away.
  by_cases hdvd : 10 ^ e ∣ k
  · have hmod : k % 10 ^ e = 0 := Nat.mod_eq_zero_of_dvd hdvd
    rw [hmod, Nat.zero_mul, Nat.add_zero] at hbelow
    have hnext : x.neighbourhood.high < (k / 10 ^ e + 1) * (10 ^ e * quartersPerOne) := by
      rw [Nat.add_mul, Nat.one_mul, hbelow]
      omega
    rw [if_pos hdvd, contains_of_inside (hbelow ▸ hlow) (hbelow ▸ hhigh),
      not_contains_of_outside (.inr hnext)]
  · have hmod : 0 < k % 10 ^ e := Nat.pos_of_ne_zero fun h => hdvd (Nat.dvd_of_mod_eq_zero h)
    have hrest : quartersPerOne ≤ k % 10 ^ e * quartersPerOne := Nat.le_mul_of_pos_left _ hmod
    have hleft : k % 10 ^ e * quartersPerOne + quartersPerOne ≤ 10 ^ e * quartersPerOne := by
      rw [← Nat.succ_mul]
      exact Nat.mul_le_mul_right _ (Nat.mod_lt _ hten)
    have hprevious : k / 10 ^ e * (10 ^ e * quartersPerOne) < x.neighbourhood.low := by
      omega
    have hnext : x.neighbourhood.high < (k / 10 ^ e + 1) * (10 ^ e * quartersPerOne) := by
      rw [Nat.add_mul, Nat.one_mul]
      omega
    rw [if_neg hdvd, not_contains_of_outside (.inl hprevious),
      not_contains_of_outside (.inr hnext)]

end

/-! ## Digits -/

open NumberLayout

theorem digitChars_mul_pow {n : Nat} (hn : 0 < n) (j : Nat) :
    digitChars (n * 10 ^ j) = digitChars n ++ List.replicate j '0' := by
  induction j with
  | zero => simp
  | succ j ih =>
    have hpos : 0 < n * 10 ^ j := Nat.mul_pos hn (Nat.pow_pos (by decide))
    have hlast := Nat.toDigits_append_toDigits (b := 10) (d := 0) (by decide) hpos (by decide)
    rw [Nat.pow_succ', Nat.mul_left_comm, ← Nat.add_zero (10 * _), digitChars, ← hlast,
      ← digitChars, ih, List.append_assoc, List.replicate_succ']
    rfl

theorem digitCount_mul_pow {n : Nat} (hn : 0 < n) (j : Nat) :
    Decimal.digitCount (n * 10 ^ j) = Decimal.digitCount n + j := by
  have h := congrArg List.length (digitChars_mul_pow hn j)
  rwa [List.length_append, List.length_replicate] at h

/-- Dropping zeros changes the digits and the exponent, but not what they stand for. -/
theorem exists_dropTrailingZeros (fuel digits : Nat) (k : Int) : ∃ m j : Nat,
    dropTrailingZeros fuel digits k = (m, k + j) ∧ digits = m * 10 ^ j := by
  induction fuel generalizing digits k with
  | zero => exact ⟨digits, 0, by simp [dropTrailingZeros], by simp⟩
  | succ fuel ih =>
    rw [dropTrailingZeros]
    split
    · next hzero =>
      obtain ⟨m, j, heq, hvalue⟩ := ih (digits / 10) (k + 1)
      refine ⟨m, j + 1, ?_, ?_⟩
      · rw [heq]
        exact Prod.ext rfl (by push_cast; omega)
      · rw [Nat.pow_succ, ← Nat.mul_assoc, ← hvalue,
          Nat.div_mul_cancel (Nat.dvd_of_mod_eq_zero hzero)]
    · exact ⟨digits, 0, by simp, by simp⟩

section
variable {x : Binary64} {k : Nat}

theorem leadingPlace_whole (hk : k * unitsPerOne = x.units) (hpos : 0 < k) :
    x.leadingPlace = Decimal.digitCount k := by
  have hcount (n : Nat) : Decimal.digitCount (x.units * Nat.pow 10 n / unitsPerOne) =
      Decimal.digitCount k + n := by
    rw [← hk, Nat.mul_right_comm, Nat.mul_div_cancel _ unitsPerOne_pos, Nat.pow_eq,
      digitCount_mul_pow hpos]
  simp only [leadingPlace, hcount]
  omega

/-- The search ends at the latest on the grid of ones. -/
theorem searchGrids_whole (hk : k * unitsPerOne = x.units) (hpos : 0 < k) (hlt : k < 2 * binade)
    {place fuel count : Nat} (hcount : count ≤ place) (hfuel : place < count + fuel) :
    ∃ m j : Nat, x.searchGrids place fuel count = (m, (j : Int)) ∧ m * 10 ^ j = k := by
  induction fuel generalizing count with
  | zero => omega
  | succ fuel ih =>
    have hexponent : (place : Int) - count = (place - count : Nat) := by omega
    rw [searchGrids, hexponent, gridPoint?_whole hk hpos hlt]
    by_cases hdvd : 10 ^ (place - count) ∣ k
    · rw [if_pos hdvd]
      obtain ⟨m, j, heq, hvalue⟩ := exists_dropTrailingZeros 20 (k / 10 ^ (place - count))
        (place - count : Nat)
      refine ⟨m, place - count + j, heq, ?_⟩
      rw [Nat.pow_add, Nat.mul_left_comm, ← hvalue, Nat.mul_div_cancel' hdvd]
    · rw [if_neg hdvd]
      refine ih (Nat.lt_of_le_of_ne hcount ?_) (by omega)
      rintro rfl
      rw [Nat.sub_self, Nat.pow_zero] at hdvd
      exact hdvd (Nat.one_dvd k)

theorem digitCount_le_of_lt (hlt : k < 2 * binade) : Decimal.digitCount k ≤ 16 := by
  refine Nat.toDigits_length 10 k 16 (by decide) (hlt.trans ?_)
  decide

/-- The shortest digits of a whole number are its own, without the zeros at their end. -/
theorem shortest_whole (hk : k * unitsPerOne = x.units) (hpos : 0 < k) (hlt : k < 2 * binade) :
    ∃ m j : Nat, x.shortest = (m, (j : Int)) ∧ m * 10 ^ j = k := by
  have hcount : 1 ≤ Decimal.digitCount k := Nat.length_toDigits_pos
  have hmax := digitCount_le_of_lt hlt
  rw [shortest, leadingPlace_whole hk hpos]
  exact searchGrids_whole hk hpos hlt hcount (by omega)

theorem not_isZero_of_pos (hk : k * unitsPerOne = x.units) (hpos : 0 < k) :
    ¬x.isZero = true := by
  intro hzero
  have hmagnitude : x.magnitude = 0 := beq_iff_eq.mp hzero
  have hunits : x.units = 0 := by
    rw [units, significand, if_pos (by rw [hmagnitude]; decide), hmagnitude, Nat.zero_shiftLeft]
  exact absurd (hk.trans hunits) (Nat.ne_of_gt (Nat.mul_pos hpos unitsPerOne_pos))

/-- The point of a number of at most 16 digits comes after all of them. -/
theorem magnitudeChars_whole (hk : k * unitsPerOne = x.units) (hpos : 0 < k)
    (hlt : k < 2 * binade) :
    NumberLayout.json.magnitudeChars x.shortest.1 x.shortest.2 = digitChars k ++ ['.', '0'] := by
  obtain ⟨m, j, hshortest, hvalue⟩ := shortest_whole hk hpos hlt
  have hm : 0 < m := Nat.pos_of_ne_zero fun h => by
    rw [h, Nat.zero_mul] at hvalue
    exact absurd hvalue.symm (Nat.ne_of_gt hpos)
  have hpoint : ((digitChars m).length : Int) + j ≤ 16 := by
    have hcount := digitCount_mul_pow hm j
    have hmax := digitCount_le_of_lt hlt
    rw [hvalue] at hcount
    rw [hcount] at hmax
    exact_mod_cast hmax
  rw [hshortest, magnitudeChars, if_pos ⟨Int.natCast_nonneg j, hpoint⟩, Int.toNat_natCast,
    ← digitChars_mul_pow hm, hvalue]
  rfl

/-- In JSON a whole number is written with all its digits and a zero after the point. -/
theorem floatChars_whole (hfinite : x.magnitude < infinityMagnitude)
    (hk : k * unitsPerOne = x.units) (hlt : k < 2 * binade) :
    Json.floatChars x =
      if x.negative then '-' :: (digitChars k ++ ['.', '0']) else digitChars k ++ ['.', '0'] := by
  have hbody : (if x.isZero then '0' :: NumberLayout.json.wholeEnd.toList
      else NumberLayout.json.magnitudeChars x.shortest.1 x.shortest.2) =
        digitChars k ++ ['.', '0'] := by
    rcases Nat.eq_zero_or_pos k with rfl | hpos
    · have hzero : x.isZero = true := units_eq_zero (by rw [← hk, Nat.zero_mul])
      rw [if_pos hzero]
      rfl
    · rw [if_neg (not_isZero_of_pos hk hpos), magnitudeChars_whole hk hpos hlt]
  have hisfinite : x.isFinite = true := decide_eq_true hfinite
  rw [Json.floatChars, if_pos hisfinite, NumberLayout.write, hbody]

end

end Binary64
end MarkupEval
