import Mathlib.Algebra.Order.Field.Power
import MarkupEval.Proofs.Number.Nearest
import MarkupEval.Proofs.Number.Whole

/-!
# The shortest digits of a number

The digits that are found for a finite number and their exponent stand for a real in the interval of
the number (`isShort_shortest`). The search succeeds at the latest at 17 digits, since the grid with
so many places is finer than the interval is wide, or at the exponent -324, since so is that grid.
-/

namespace MarkupEval
namespace Binary64

/-! ## Reals in the interval of a number -/

/-- A real is in an interval, and strictly inside of an open one. -/
structure Neighbourhood.Holds (i : Neighbourhood) (q : ℚ) : Prop where
  low : (i.low : ℚ) ≤ 4 * q
  high : 4 * q ≤ i.high
  strict : i.closed = false → (i.low : ℚ) < 4 * q ∧ 4 * q < i.high

theorem Neighbourhood.holds_iff {i : Neighbourhood} {num den : Nat} (hden : 0 < den) :
    i.Holds (num / den) ↔ i.Bounds num den := by
  have hpos : (0 : ℚ) < den := by exact_mod_cast hden
  have hlow : (i.low : ℚ) ≤ 4 * (num / den) ↔ i.low * den ≤ 4 * num := by
    rw [← mul_div_assoc, le_div_iff₀ hpos]
    norm_cast
  have hhigh : 4 * ((num : ℚ) / den) ≤ i.high ↔ 4 * num ≤ i.high * den := by
    rw [← mul_div_assoc, div_le_iff₀ hpos]
    norm_cast
  have hlow' : (i.low : ℚ) < 4 * (num / den) ↔ i.low * den < 4 * num := by
    rw [← mul_div_assoc, lt_div_iff₀ hpos]
    norm_cast
  have hhigh' : 4 * ((num : ℚ) / den) < i.high ↔ 4 * num < i.high * den := by
    rw [← mul_div_assoc, div_lt_iff₀ hpos]
    norm_cast
  constructor
  · rintro ⟨h, h', hstrict⟩
    exact ⟨hlow.mp h, hhigh.mp h', fun hopen => (hstrict hopen).imp hlow'.mp hhigh'.mp⟩
  · rintro ⟨h, h', hstrict⟩
    exact ⟨hlow.mpr h, hhigh.mpr h', fun hopen => (hstrict hopen).imp hlow'.mpr hhigh'.mpr⟩

/-- The units in a decimal. -/
def decimalUnits (d : Nat) (k : Int) : ℚ := d * 10 ^ k * unitsPerOne

theorem binade_cast : (binade : ℚ) = 4503599627370496 := by
  norm_num [binade]

theorem tenPow_eq (k : Int) : (10 : ℚ) ^ k = (10 ^ k.toNat : Nat) / (10 ^ (-k).toNat : Nat) := by
  rcases Int.le_total 0 k with hk | hk
  · obtain ⟨n, rfl⟩ := Int.eq_ofNat_of_zero_le hk
    simp
  · obtain ⟨n, hn⟩ := Int.eq_ofNat_of_zero_le (Int.neg_nonneg_of_nonpos hk)
    obtain rfl : k = -n := by omega
    simp

theorem decimalUnits_eq (d : Nat) (k : Int) : decimalUnits d k =
    (d * 10 ^ k.toNat * unitsPerOne : Nat) / (10 ^ (-k).toNat : Nat) := by
  rw [decimalUnits, tenPow_eq]
  push_cast
  ring

variable {x : Binary64} {d : Nat} {k : Int}

/-- A decimal is in the interval of a number. -/
def StandsFor (x : Binary64) (d : Nat) (k : Int) : Prop :=
  x.neighbourhood.Holds (decimalUnits d k)

theorem decimalUnits_mul_pow (d j : Nat) (k : Int) :
    decimalUnits (d * 10 ^ j) k = decimalUnits d (k + j) := by
  have hten : (10 : ℚ) ≠ 0 := by norm_num
  rw [decimalUnits, decimalUnits, zpow_add₀ hten, zpow_natCast]
  push_cast
  ring

/-! ## Grid points -/

/-- The last grid point that is not above a number. -/
def gridFloor (x : Binary64) (k : Int) : Nat :=
  x.neighbourhood.centre * 10 ^ (-k).toNat / (quartersPerOne * 10 ^ k.toNat)

theorem mul_quartersPerOne (c n : Nat) :
    c * (quartersPerOne * 10 ^ n) = 4 * (c * 10 ^ n * unitsPerOne) := by
  unfold quartersPerOne
  ring

theorem contains_grid_iff (c : Nat) : x.neighbourhood.contains (10 ^ (-k).toNat)
    (c * (quartersPerOne * 10 ^ k.toNat)) = true ↔ x.StandsFor c k := by
  rw [mul_quartersPerOne, Neighbourhood.bounds_iff, StandsFor, decimalUnits_eq,
    Neighbourhood.holds_iff (Nat.pow_pos (by decide))]

/-- A grid has a point in the interval of a number if one of the two next to the number is. -/
theorem gridPoint?_cases (x : Binary64) (k : Int) :
    (x.gridPoint? k = none ∧ ¬x.StandsFor (x.gridFloor k) k ∧
        ¬x.StandsFor (x.gridFloor k + 1) k) ∨
      ∃ c, x.gridPoint? k = some c ∧ x.StandsFor c k ∧ c ≤ x.gridFloor k + 1 := by
  have hfloor := contains_grid_iff (x := x) (k := k) (x.gridFloor k)
  have hnext := contains_grid_iff (x := x) (k := k) (x.gridFloor k + 1)
  unfold gridPoint?
  dsimp only
  split
  · next h h' =>
    exact .inl ⟨rfl, fun hs => Bool.false_ne_true (h.symm.trans (hfloor.mpr hs)),
      fun hs => Bool.false_ne_true (h'.symm.trans (hnext.mpr hs))⟩
  · next h _ => exact .inr ⟨x.gridFloor k, rfl, hfloor.mp h, Nat.le_succ _⟩
  · next _ h => exact .inr ⟨x.gridFloor k + 1, rfl, hnext.mp h, Nat.le_refl _⟩
  · next h h' =>
    refine .inr ⟨_, rfl, ?_, ?_⟩
    · split
      · exact hfloor.mp h
      · exact hnext.mp h'
    · split
      · exact Nat.le_succ _
      · exact Nat.le_refl _

theorem neighbourhood_centre (x : Binary64) : x.neighbourhood.centre = 4 * x.units := by
  rw [neighbourhood, units, Nat.one_shiftLeft, Nat.shiftLeft_eq, Nat.mul_assoc]

theorem units_eq_mul (x : Binary64) : x.units = x.significand * 2 ^ x.scale :=
  Nat.shiftLeft_eq ..

theorem significand_pos (hx : ¬x.isZero = true) : 0 < x.significand := by
  refine Nat.pos_of_ne_zero fun hzero => hx (units_eq_zero ?_)
  rw [units_eq_mul, hzero, Nat.zero_mul]

theorem units_pos (hx : 0 < x.significand) : 0 < x.units :=
  units_eq_mul x ▸ Nat.mul_pos hx (Nat.two_pow_pos _)

/-- The grid points next to a number have it between them. -/
theorem gridFloor_spec (x : Binary64) (k : Int) :
    decimalUnits (x.gridFloor k) k ≤ x.units ∧
      (x.units : ℚ) < decimalUnits (x.gridFloor k + 1) k := by
  have hunit : 0 < quartersPerOne * 10 ^ k.toNat :=
    Nat.mul_pos quartersPerOne_pos (Nat.pow_pos (by decide))
  have hfactor : (0 : ℚ) < (10 ^ (-k).toNat : Nat) := by exact_mod_cast Nat.pow_pos (by decide)
  have hle := Nat.div_mul_le_self (x.neighbourhood.centre * 10 ^ (-k).toNat)
    (quartersPerOne * 10 ^ k.toNat)
  have hlt := Nat.lt_mul_of_div_lt (Nat.lt_succ_self (x.gridFloor k)) hunit
  rw [← gridFloor, mul_quartersPerOne, neighbourhood_centre, Nat.mul_assoc 4,
    Nat.mul_le_mul_left_iff (by decide)] at hle
  rw [mul_quartersPerOne, neighbourhood_centre, Nat.mul_assoc 4,
    Nat.mul_lt_mul_left (by decide)] at hlt
  rw [decimalUnits_eq, decimalUnits_eq, div_le_iff₀ hfactor, lt_div_iff₀ hfactor]
  exact ⟨by exact_mod_cast hle, by exact_mod_cast hlt⟩

theorem centre_inside (hx : 0 < x.significand) :
    (x.neighbourhood.low : ℚ) < 4 * x.units ∧ (4 * x.units : ℚ) < x.neighbourhood.high := by
  have hpow := Nat.two_pow_pos x.scale
  have hlow : x.neighbourhood.low < 4 * x.units := by
    rw [neighbourhood_low, units_eq_mul, ← Nat.mul_assoc]
    refine (Nat.mul_lt_mul_right hpow).mpr ?_
    split <;> omega
  have hhigh : 4 * x.units < x.neighbourhood.high := by
    rw [neighbourhood_high, units_eq_mul, ← Nat.mul_assoc]
    exact (Nat.mul_lt_mul_right hpow).mpr (by omega)
  exact ⟨by exact_mod_cast hlow, by exact_mod_cast hhigh⟩

/-- A grid that is finer than the interval of a number is wide has a point in it. -/
theorem gridPoint?_ne_none (hx : 0 < x.significand)
    (h : 4 * decimalUnits 1 k < x.neighbourhood.high - x.neighbourhood.low) :
    x.gridPoint? k ≠ none := by
  intro hnone
  obtain ⟨-, hfloor, hnext⟩ | ⟨c, hsome, -⟩ := x.gridPoint?_cases k
  case inr => simp [hnone] at hsome
  obtain ⟨hlow, hhigh⟩ := centre_inside hx
  obtain ⟨hle, hlt⟩ := x.gridFloor_spec k
  have hstep : decimalUnits (x.gridFloor k + 1) k =
      decimalUnits (x.gridFloor k) k + decimalUnits 1 k := by
    unfold decimalUnits
    push_cast
    ring
  have hbelow : 4 * decimalUnits (x.gridFloor k) k ≤ x.neighbourhood.low := by
    by_contra hinside
    exact hfloor ⟨by linarith, by linarith, fun _ => ⟨by linarith, by linarith⟩⟩
  have habove : (x.neighbourhood.high : ℚ) ≤ 4 * decimalUnits (x.gridFloor k + 1) k := by
    by_contra hinside
    exact hnext ⟨by linarith, by linarith, fun _ => ⟨by linarith, by linarith⟩⟩
  linarith

/-! ## The leading place -/

theorem digitCount_spec {n : Nat} (hn : 0 < n) :
    10 ^ (Decimal.digitCount n - 1) ≤ n ∧ n < 10 ^ Decimal.digitCount n := by
  have hpos : 0 < Decimal.digitCount n := Nat.length_toDigits_pos
  refine ⟨?_, (Nat.length_toDigits_le_iff (by decide) hpos).mp (Nat.le_refl _)⟩
  rcases Nat.eq_zero_or_pos (Decimal.digitCount n - 1) with hone | hmore
  · rw [hone]
    exact hn
  · refine Nat.not_lt.mp fun hlt => ?_
    have := (Nat.length_toDigits_le_iff (by decide) hmore).mpr hlt
    rw [← Decimal.digitCount] at this
    omega

/-- The number whose digits are counted. The places that it is scaled by have a name, so that no
step computes the power. -/
theorem exists_leadingPlace_eq (x : Binary64) : ∃ places n : Nat, places = 330 ∧
    n = x.units * 10 ^ places / unitsPerOne ∧
    x.leadingPlace = (Decimal.digitCount n : Nat) - (places : Int) := by
  obtain ⟨scaled, hscaled⟩ : ∃ scaled : Nat → Nat,
      ∀ n, x.units * Nat.pow 10 n / unitsPerOne = scaled n := ⟨_, fun _ => rfl⟩
  have hplace : x.leadingPlace = (Decimal.digitCount (scaled 330) : Nat) - 330 := by
    simp only [leadingPlace, hscaled]
  obtain ⟨places, hplaces⟩ : ∃ places : Nat, places = 330 := ⟨_, rfl⟩
  refine ⟨places, _, hplaces, rfl, ?_⟩
  rw [hplace, ← Nat.pow_eq, hscaled, hplaces, Nat.cast_ofNat]

/-- No place comes before that of the least unit. -/
theorem le_scaledUnits {places : Nat} (hplaces : places = 330) (hx : 0 < x.units) :
    10 ^ 6 ≤ x.units * 10 ^ places / unitsPerOne := by
  have hunits : unitsPerOne * 10 ^ 6 ≤ 10 ^ places := by
    rw [hplaces]
    decide +kernel
  rw [Nat.le_div_iff_mul_le unitsPerOne_pos, Nat.mul_comm]
  exact hunits.trans (Nat.le_mul_of_pos_left _ hx)

theorem leadingPlace_ge (hx : 0 < x.units) : -323 ≤ x.leadingPlace := by
  obtain ⟨places, n, hplaces, rfl, hplace⟩ := x.exists_leadingPlace_eq
  have hlarge := le_scaledUnits hplaces hx
  generalize x.units * 10 ^ places / unitsPerOne = n at hlarge hplace
  have hlt := (digitCount_spec (Nat.lt_of_lt_of_le (by decide) hlarge)).2
  have hcount : 7 ≤ Decimal.digitCount n := by
    by_contra hsmall
    have : 10 ^ Decimal.digitCount n ≤ 10 ^ 6 := Nat.pow_le_pow_right (by decide) (by omega)
    omega
  omega

theorem leadingPlace_spec (hx : 0 < x.units) :
    decimalUnits 1 (x.leadingPlace - 1) ≤ x.units ∧
      (x.units : ℚ) < decimalUnits 1 x.leadingPlace := by
  obtain ⟨places, n, hplaces, hn, hplace⟩ := x.exists_leadingPlace_eq
  have hlarge : 10 ^ 6 ≤ n := hn ▸ le_scaledUnits hplaces hx
  obtain ⟨hle, hlt⟩ := digitCount_spec (Nat.lt_of_lt_of_le (by decide) hlarge)
  have hcount : 0 < Decimal.digitCount n := Nat.length_toDigits_pos
  have hten : (10 : ℚ) ≠ 0 := by norm_num
  have hpos : (0 : ℚ) < 10 ^ places := by positivity
  constructor
  · have hbound : 10 ^ (Decimal.digitCount n - 1) * unitsPerOne ≤ x.units * 10 ^ places :=
      (Nat.mul_le_mul_right _ hle).trans (hn ▸ Nat.div_mul_le_self ..)
    have hexponent : x.leadingPlace - 1 = ((Decimal.digitCount n - 1 : Nat) : Int) - places := by
      omega
    rw [decimalUnits, hexponent, zpow_sub₀ hten, zpow_natCast, zpow_natCast, Nat.cast_one, one_mul,
      div_mul_eq_mul_div, div_le_iff₀ hpos]
    exact_mod_cast hbound
  · have hbound : x.units * 10 ^ places < 10 ^ Decimal.digitCount n * unitsPerOne := by
      rw [← Nat.div_lt_iff_lt_mul unitsPerOne_pos, ← hn]
      exact hlt
    rw [decimalUnits, hplace, zpow_sub₀ hten, zpow_natCast, zpow_natCast, Nat.cast_one, one_mul,
      div_mul_eq_mul_div, lt_div_iff₀ hpos]
    exact_mod_cast hbound

/-! ## The search -/

/-- The interval of a number is as wide as the steps around it, of which the one below a power of
two may be half as long. -/
theorem width_ge (hx : 0 < x.significand) :
    (if x.significand = binade then 3 else 4) * 2 ^ x.scale ≤
      (x.neighbourhood.high : ℚ) - x.neighbourhood.low := by
  have hwidth : (if x.significand = binade then 3 else 4) * 2 ^ x.scale + x.neighbourhood.low ≤
      x.neighbourhood.high := by
    rw [neighbourhood_low, neighbourhood_high, ← Nat.add_mul]
    refine Nat.mul_le_mul_right _ ?_
    have hbinade := binade_pos
    split_ifs <;> omega
  have hcast : ((if x.significand = binade then 3 else 4 : Nat) : ℚ) * 2 ^ x.scale +
      x.neighbourhood.low ≤ x.neighbourhood.high := by exact_mod_cast hwidth
  rw [apply_ite Nat.cast, Nat.cast_ofNat, Nat.cast_ofNat] at hcast
  linarith

/-- The finest grid that the search may come to has a point in the interval. -/
theorem gridPoint?_finest (hx : 0 < x.significand) (hk : k = x.leadingPlace - 17 ∨ k = -324) :
    x.gridPoint? k ≠ none := by
  refine gridPoint?_ne_none hx (lt_of_lt_of_le ?_ (width_ge hx))
  have hpow : (1 : ℚ) ≤ 2 ^ x.scale := one_le_pow₀ (by norm_num)
  rcases hk with rfl | rfl
  · have hunits := units_pos hx
    have hplace := (leadingPlace_spec hunits).1
    have hshift : decimalUnits 1 (x.leadingPlace - 1) =
        decimalUnits 1 (x.leadingPlace - 17) * 10 ^ 16 := by
      have hexponent : x.leadingPlace - 1 = x.leadingPlace - 17 + (16 : Nat) := by omega
      rw [hexponent, ← decimalUnits_mul_pow]
      unfold decimalUnits
      push_cast
      ring
    rw [hshift, units_eq_mul, Nat.cast_mul, Nat.cast_pow, Nat.cast_ofNat] at hplace
    split
    · next h =>
      rw [h, binade_cast] at hplace
      linarith
    · have hlt : (x.significand : ℚ) < 2 * 4503599627370496 := by
        rw [← binade_cast]
        exact_mod_cast x.significand_lt
      have := mul_lt_mul_of_pos_right hlt (zero_lt_one.trans_le hpow)
      linarith
  · have hunits : 4 * unitsPerOne < 3 * 10 ^ 324 := by decide +kernel
    have hstep : 4 * decimalUnits 1 (-324) < 3 := by
      have hten : (0 : ℚ) < 10 ^ 324 := by positivity
      rw [decimalUnits, zpow_neg, Nat.cast_one, one_mul, inv_mul_eq_div, ← mul_div_assoc]
      rw [div_lt_iff₀ (by exact_mod_cast hten)]
      exact_mod_cast hunits
    split <;> linarith

/-- The digits on a grid of a given number of places. -/
theorem gridFloor_lt {count : Nat} (hx : 0 < x.units) :
    x.gridFloor (x.leadingPlace - count) < 10 ^ count := by
  have hlt := (x.gridFloor_spec (x.leadingPlace - count)).1.trans_lt (leadingPlace_spec hx).2
  have hplace : x.leadingPlace = x.leadingPlace - count + count := by omega
  rw [hplace, ← decimalUnits_mul_pow, ← hplace, Nat.one_mul] at hlt
  unfold decimalUnits at hlt
  have hten : (0 : ℚ) < 10 ^ (x.leadingPlace - count) := by positivity
  have hone : (0 : ℚ) < unitsPerOne := by exact_mod_cast unitsPerOne_pos
  have := lt_of_mul_lt_mul_right (lt_of_mul_lt_mul_right hlt hone.le) hten.le
  exact_mod_cast this

/-- Decimal digits and an exponent of which the decimal is in the interval of a number. -/
structure IsShort (x : Binary64) (d : Nat) (k : Int) : Prop where
  standsFor : x.StandsFor d k
  digits_le : d ≤ 10 ^ 17
  exponent_ge : -324 ≤ k

theorem isShort_searchGrids (hx : 0 < x.significand) {fuel count : Nat} (hcount : count ≤ 17)
    (hfuel : count + fuel = 18) (hexponent : -324 ≤ x.leadingPlace - count) :
    x.IsShort (x.searchGrids x.leadingPlace fuel count).1
      (x.searchGrids x.leadingPlace fuel count).2 := by
  have hunits := units_pos hx
  induction fuel generalizing count with
  | zero => omega
  | succ fuel ih =>
    rw [searchGrids]
    obtain ⟨hnone, -⟩ | ⟨c, hsome, hstands, hle⟩ := x.gridPoint?_cases (x.leadingPlace - count)
    · rw [hnone]
      have hfinest : ¬(x.leadingPlace - count = x.leadingPlace - 17 ∨
          x.leadingPlace - count = -324) := fun h => gridPoint?_finest hx h hnone
      exact ih (by omega) (by omega) (by omega)
    · rw [hsome]
      obtain ⟨m, j, heq, rfl⟩ := exists_dropTrailingZeros 20 c (x.leadingPlace - count)
      dsimp only
      rw [heq]
      refine ⟨?_, ?_, by omega⟩
      · rwa [StandsFor, decimalUnits_mul_pow] at hstands
      · have hlt : x.gridFloor (x.leadingPlace - count) < 10 ^ count := gridFloor_lt hunits
        calc m ≤ m * 10 ^ j := Nat.le_mul_of_pos_right _ (Nat.pow_pos (by decide))
          _ ≤ 10 ^ count := hle.trans hlt
          _ ≤ 10 ^ 17 := Nat.pow_le_pow_right (by decide) hcount

theorem isShort_shortest (hx : 0 < x.significand) : x.IsShort x.shortest.1 x.shortest.2 := by
  have hunits := units_pos hx
  have hplace := leadingPlace_ge hunits
  exact isShort_searchGrids hx (by decide) (by decide) (by omega)

/-! ## Sizes -/

theorem scale_le_of_finite (hfinite : x.magnitude < infinityMagnitude) : x.scale ≤ 2045 := by
  have hquotient : x.magnitude / binade < 2047 := (Nat.div_lt_iff_lt_mul binade_pos).mpr hfinite
  unfold scale
  omega

/-- The digits are not zero: the interval of a number that is not zero does not reach down to it. -/
theorem IsShort.digits_pos (h : x.IsShort d k) (hx : 0 < x.significand) : 0 < d := by
  refine Nat.pos_of_ne_zero ?_
  rintro rfl
  have hlow : 0 < x.neighbourhood.low := by
    refine Nat.lt_of_lt_of_le ?_ (low_ge x)
    exact Nat.mul_pos (by omega) (Nat.two_pow_pos _)
  have hle := h.standsFor.low
  rw [decimalUnits, Nat.cast_zero, zero_mul, zero_mul, mul_zero] at hle
  have : (0 : ℚ) < x.neighbourhood.low := by exact_mod_cast hlow
  linarith

theorem IsShort.exponent_le (h : x.IsShort d k) (hx : 0 < x.significand)
    (hfinite : x.magnitude < infinityMagnitude) : k ≤ 308 := by
  by_contra hlarge
  obtain ⟨places, hplaces⟩ : ∃ places : Nat, places = 309 := ⟨_, rfl⟩
  have hten : (10 : ℚ) ^ places ≤ 10 ^ k := by
    rw [← zpow_natCast]
    exact zpow_le_zpow_right₀ (by norm_num) (by omega)
  have hdigits : (1 : ℚ) ≤ d := by exact_mod_cast h.digits_pos hx
  have hone : (0 : ℚ) < unitsPerOne := by exact_mod_cast unitsPerOne_pos
  have hunits : (10 : ℚ) ^ places * unitsPerOne ≤ decimalUnits d k := by
    refine mul_le_mul_of_nonneg_right ?_ hone.le
    calc (10 : ℚ) ^ places ≤ 1 * 10 ^ k := by rwa [one_mul]
      _ ≤ d * 10 ^ k := mul_le_mul_of_nonneg_right hdigits (by positivity)
  obtain ⟨scale, hscale⟩ : ∃ scale, scale = 2045 := ⟨_, rfl⟩
  obtain ⟨top, htop⟩ : ∃ top, top = 8 * binade * 2 ^ scale := ⟨_, rfl⟩
  have hhigh : x.neighbourhood.high ≤ top := by
    have hlt := x.significand_lt
    rw [neighbourhood_high, htop]
    exact Nat.mul_le_mul (by omega)
      (Nat.pow_le_pow_right (by decide) (hscale ▸ scale_le_of_finite hfinite))
  have hlimit : top < 4 * (10 ^ places * unitsPerOne) := by
    rw [htop, hscale, hplaces]
    decide +kernel
  have hfits : (4 * (10 ^ places * unitsPerOne) : Nat) ≤ (top : ℚ) := by
    calc ((4 * (10 ^ places * unitsPerOne) : Nat) : ℚ) = 4 * ((10 : ℚ) ^ places * unitsPerOne) := by
          push_cast
          ring
      _ ≤ 4 * decimalUnits d k := by linarith
      _ ≤ x.neighbourhood.high := h.standsFor.high
      _ ≤ top := by exact_mod_cast hhigh
  exact absurd (by exact_mod_cast hfits) (Nat.not_le.mpr hlimit)

end Binary64
end MarkupEval
