import Mathlib.Tactic.FieldSimp
import MarkupEval.Proofs.Number.ShortestDigits
import MarkupEval.Json.Scalar

/-!
# Scaling by powers of ten

A numeral is read in rounded steps: its digits, a power of ten, and their product or quotient. What
the last step rounds is near the decimal that the numeral stands for (`exists_scaled`), since each
step before is off by half a unit in the last place at most. It is that decimal if the digits have
53 bits and the power of ten is one of those that are exact.
-/

namespace MarkupEval
namespace Binary64

/-! ## Relative errors -/

/-- A share of `b` is the most by which `a` is off. -/
structure Near (ε a b : ℚ) : Prop where
  lower : (1 - ε) * b ≤ a
  upper : a ≤ (1 + ε) * b

section
variable {ε δ η a b c d : ℚ}

theorem Near.nonneg (h : Near ε a b) (hε : ε ≤ 1) (hb : 0 ≤ b) : 0 ≤ a :=
  (mul_nonneg (by linarith) hb).trans h.lower

theorem Near.mono (h : Near ε a b) (hε : ε ≤ δ) (hb : 0 ≤ b) : Near δ a b := by
  have := mul_le_mul_of_nonneg_right hε hb
  exact ⟨by linarith [h.lower], by linarith [h.upper]⟩

theorem Near.scale (h : Near ε a b) (hc : 0 ≤ c) : Near ε (a * c) (b * c) := by
  constructor
  · rw [← mul_assoc]
    exact mul_le_mul_of_nonneg_right h.lower hc
  · rw [← mul_assoc]
    exact mul_le_mul_of_nonneg_right h.upper hc

theorem Near.mul (h : Near ε a b) (h' : Near δ c d) (hε : ε ≤ 1) (hδ : δ ≤ 1) (hε' : 0 ≤ ε)
    (hδ' : 0 ≤ δ) (hb : 0 ≤ b) (hd : 0 ≤ d) : Near (ε + δ + ε * δ) (a * c) (b * d) := by
  have hbd : 0 ≤ b * d := mul_nonneg hb hd
  have hεδ : 0 ≤ ε * δ * (b * d) := mul_nonneg (mul_nonneg hε' hδ') hbd
  constructor
  · calc (1 - (ε + δ + ε * δ)) * (b * d) ≤ (1 - ε) * b * ((1 - δ) * d) := by linarith
      _ ≤ a * c := mul_le_mul h.lower h'.lower (mul_nonneg (by linarith) hd) (h.nonneg hε hb)
  · calc a * c ≤ (1 + ε) * b * ((1 + δ) * d) :=
          mul_le_mul h.upper h'.upper (h'.nonneg hδ hd) (mul_nonneg (by linarith) hb)
      _ = (1 + (ε + δ + ε * δ)) * (b * d) := by ring

theorem Near.div (h : Near ε a b) (h' : Near δ c d) (hη : ε + δ ≤ η * (1 - δ)) (hη' : η ≤ 1)
    (hε : 0 ≤ ε) (hδ : 0 ≤ δ) (hδ' : δ < 1) (hb : 0 ≤ b) (hd : 0 < d) :
    Near η (a / c) (b / d) := by
  have hc : 0 < c := (mul_pos (by linarith) hd).trans_le h'.lower
  have hη₀ : 0 ≤ η := by
    by_contra hneg
    have := mul_neg_of_neg_of_pos (not_le.mp hneg) (show 0 < 1 - δ by linarith)
    linarith
  have hηδ : 0 ≤ η * δ := mul_nonneg hη₀ hδ
  have hquotient : 0 ≤ b / d := div_nonneg hb hd.le
  have hcancel : b / d * d = b := div_mul_cancel₀ b hd.ne'
  constructor
  · rw [le_div_iff₀ hc]
    calc (1 - η) * (b / d) * c ≤ (1 - η) * (b / d) * ((1 + δ) * d) :=
          mul_le_mul_of_nonneg_left h'.upper (mul_nonneg (by linarith) hquotient)
      _ = (1 - η) * (1 + δ) * (b / d * d) := by ring
      _ = (1 - η) * (1 + δ) * b := by rw [hcancel]
      _ ≤ (1 - ε) * b := mul_le_mul_of_nonneg_right (by linarith) hb
      _ ≤ a := h.lower
  · rw [div_le_iff₀ hc]
    calc a ≤ (1 + ε) * b := h.upper
      _ ≤ (1 + η) * (1 - δ) * b := mul_le_mul_of_nonneg_right (by linarith) hb
      _ = (1 + η) * (1 - δ) * (b / d * d) := by rw [hcancel]
      _ = (1 + η) * (b / d) * ((1 - δ) * d) := by ring
      _ ≤ (1 + η) * (b / d) * c :=
          mul_le_mul_of_nonneg_left h'.lower (mul_nonneg (by linarith) hquotient)

end

/-! ## Rounding errors -/

/-- Half a unit in the last of 53 places, as a share. -/
def unitRoundoff : ℚ := 1 / 9007199254740992

theorem unitRoundoff_nonneg : 0 ≤ unitRoundoff := by
  norm_num [unitRoundoff]

theorem unitRoundoff_lt_one : unitRoundoff < 1 := by
  norm_num [unitRoundoff]

/-- What is rounded is off by its own share of half a unit in the last place, or by half the least
unit. -/
theorem exists_error (num : Nat) {den : Nat} (hden : 0 < den) :
    ∃ e : ℚ, (e ≤ unitRoundoff * (num / den) ∨ e = 1 / 2 ∧ num < binade * den) ∧
      (num : ℚ) / den - e ≤ unitsOf (nearestMagnitude num den) ∧
      unitsOf (nearestMagnitude num den) ≤ (num : ℚ) / den + e := by
  obtain ⟨step, hupper, hlower, hstep⟩ := exists_step num hden
  have hpos : (0 : ℚ) < den := by exact_mod_cast hden
  refine ⟨step / 2, ?_, ?_, ?_⟩
  · by_cases hsmall : binade * (step * den) ≤ num
    · left
      rw [unitRoundoff, ← mul_div_assoc, div_le_div_iff₀ (by norm_num) hpos]
      have : ((binade * (step * den) : Nat) : ℚ) ≤ num := by exact_mod_cast hsmall
      rw [Nat.cast_mul, Nat.cast_mul, binade_cast] at this
      linarith
    · obtain rfl := hstep.resolve_left hsmall
      rw [Nat.one_mul] at hsmall
      exact .inr ⟨by norm_num, Nat.not_le.mp hsmall⟩
  · rw [sub_le_iff_le_add, div_le_iff₀ hpos]
    have : ((2 * num : Nat) : ℚ) ≤
        (2 * (unitsOf (nearestMagnitude num den) * den) + step * den : Nat) := by
      exact_mod_cast hlower
    push_cast at this
    linarith
  · have hsum : (num : ℚ) / den + step / 2 = (num + step / 2 * den) / den := by
      rw [add_div, mul_div_cancel_right₀ _ hpos.ne']
    rw [hsum, le_div_iff₀ hpos]
    have : ((2 * (unitsOf (nearestMagnitude num den) * den) : Nat) : ℚ) ≤
        (2 * num + step * den : Nat) := by exact_mod_cast hupper
    push_cast at this
    linarith

theorem near_nearestMagnitude {num den : Nat} (hden : 0 < den) (h : binade * den ≤ num) :
    Near unitRoundoff (unitsOf (nearestMagnitude num den)) (num / den) := by
  obtain ⟨e, he | ⟨-, hlt⟩, hlower, hupper⟩ := exists_error num hden
  · exact ⟨by linarith, by linarith⟩
  · omega

/-! ## Integers and powers of ten -/

section
variable {num den : Nat} (negative : Bool)

theorem ofRatio_eq (h : nearestMagnitude (num * unitsPerOne) den < infinityMagnitude) :
    ∃ hlt, ofRatio negative num den = ⟨negative, nearestMagnitude (num * unitsPerOne) den, hlt⟩ := by
  refine ⟨h.trans (by decide), ?_⟩
  simp only [ofRatio, dif_pos h]

theorem units_ofRatio (h : nearestMagnitude (num * unitsPerOne) den < infinityMagnitude) :
    (ofRatio negative num den).units = unitsOf (nearestMagnitude (num * unitsPerOne) den) := by
  obtain ⟨hlt, heq⟩ := ofRatio_eq negative h
  rw [heq]
  rfl

end

theorem binade_le_unitsPerOne : binade ≤ unitsPerOne := by decide +kernel

theorem unitsPerOne_cast_pos : (0 : ℚ) < unitsPerOne := by exact_mod_cast unitsPerOne_pos

theorem integerUnits_nonneg (n : Nat) : (0 : ℚ) ≤ n * unitsPerOne :=
  mul_nonneg (Nat.cast_nonneg n) unitsPerOne_cast_pos.le

theorem powerUnits_pos (j : Nat) : (0 : ℚ) < 10 ^ j * unitsPerOne :=
  mul_pos (pow_pos (by norm_num) j) unitsPerOne_cast_pos

/-- The exponent of the largest power of ten that is a finite number. -/
def maxPower : Nat := 308

/-- No number up to the largest power of ten is too large. -/
theorem nearestMagnitude_lt_infinity {n : Nat} (h : n ≤ 10 ^ maxPower) :
    nearestMagnitude (n * unitsPerOne) 1 < infinityMagnitude := by
  have hlargest : nearestMagnitude (10 ^ maxPower * unitsPerOne) 1 < infinityMagnitude := by
    decide +kernel
  refine (nearestMagnitude_le (by decide) (by decide) ?_).trans_lt hlargest
  exact Nat.mul_le_mul_right _ (Nat.mul_le_mul_right _ h)

theorem near_ofNat {n : Nat} (hn : 0 < n) (h : n ≤ 10 ^ maxPower) :
    Near unitRoundoff (ofNat n).units (n * unitsPerOne) := by
  have hlarge : binade * 1 ≤ n * unitsPerOne :=
    (Nat.mul_one binade).symm ▸ binade_le_unitsPerOne.trans (Nat.le_mul_of_pos_left _ hn)
  have hnear := near_nearestMagnitude (by decide) hlarge
  rwa [Nat.cast_one, div_one, Nat.cast_mul, ← units_ofRatio false (nearestMagnitude_lt_infinity h)]
    at hnear

theorem near_powerOfTen {j : Nat} (h : j ≤ maxPower) :
    Near unitRoundoff (powerOfTen j).units (10 ^ j * unitsPerOne) := by
  have hnear := near_ofNat (n := 10 ^ j) (Nat.pow_pos (by decide))
    (Nat.pow_le_pow_right (by decide) h)
  rwa [Nat.cast_pow, Nat.cast_ofNat] at hnear

/-- The powers of ten of which the odd part has 53 bits are exact. -/
theorem units_powerOfTen : ∀ j ≤ 22, (powerOfTen j).units = 10 ^ j * unitsPerOne := by
  decide +kernel

/-- The largest power of ten is off by less than half a unit in the last place. -/
theorem near_powerOfTen_maxPower :
    Near (unitRoundoff / 8) (powerOfTen maxPower).units (10 ^ maxPower * unitsPerOne) := by
  have hlower : (8 * 9007199254740992 - 1) * (10 ^ maxPower * unitsPerOne) ≤
      8 * 9007199254740992 * (powerOfTen maxPower).units := by decide +kernel
  have hupper : 8 * 9007199254740992 * (powerOfTen maxPower).units ≤
      (8 * 9007199254740992 + 1) * (10 ^ maxPower * unitsPerOne) := by decide +kernel
  generalize (powerOfTen maxPower).units = p at *
  generalize hten : 10 ^ maxPower * unitsPerOne = t at *
  have htarget : (10 : ℚ) ^ maxPower * unitsPerOne = t := by
    rw [← hten]
    push_cast
    rfl
  have hlower' : (72057594037927935 : ℚ) * t ≤ 72057594037927936 * p := by exact_mod_cast hlower
  have hupper' : (72057594037927936 : ℚ) * p ≤ 72057594037927937 * t := by exact_mod_cast hupper
  rw [htarget]
  constructor
  · rw [unitRoundoff]
    linarith
  · rw [unitRoundoff]
    linarith

/-! ## The last step -/

open Json

/-- The ratio that the last step rounds where `d * 10 ^ k` is read. -/
structure Scaled (d : Nat) (k : Int) (num den : Nat) : Prop where
  den_pos : 0 < den
  lower : (1 - 9 / 4 * unitRoundoff) * decimalUnits d k - 1 / 16 ≤ (num : ℚ) / den
  upper : (num : ℚ) / den ≤ (1 + 9 / 4 * unitRoundoff) * decimalUnits d k + 1 / 16
  exact : d < 2 * binade → k.natAbs ≤ 22 → (num : ℚ) / den = decimalUnits d k
  result : nearestMagnitude num den < infinityMagnitude →
    ∃ hlt, scaleByTen 5 (ofNat d) k = some ⟨false, nearestMagnitude num den, hlt⟩

theorem decimalUnits_nonneg (d : Nat) (k : Int) : 0 ≤ decimalUnits d k := by
  unfold decimalUnits
  positivity

section
variable {d : Nat}

theorem Scaled.of_near {k : Int} {num den : Nat} (hden : 0 < den)
    (hnear : Near (9 / 4 * unitRoundoff) (num / den) (decimalUnits d k))
    (hexact : d < 2 * binade → k.natAbs ≤ 22 → (num : ℚ) / den = decimalUnits d k)
    (hresult : nearestMagnitude num den < infinityMagnitude →
      ∃ hlt, scaleByTen 5 (ofNat d) k = some ⟨false, nearestMagnitude num den, hlt⟩) :
    Scaled d k num den where
  den_pos := hden
  lower := by linarith [hnear.lower]
  upper := by linarith [hnear.upper]
  exact := hexact
  result := hresult

theorem scaleByTen_times (fuel : Nat) (x : Binary64) {j : Nat} (hj : j ≤ maxPower) :
    scaleByTen (fuel + 1) x j = if (x.timesMagnitude (powerOfTen j)).isInfinite then none
      else some (x.timesMagnitude (powerOfTen j)) := by
  have hj : (j : Int).natAbs ≤ 308 := hj
  rw [scaleByTen, if_pos hj, if_pos (Int.natCast_nonneg j), Int.natAbs_natCast]

theorem scaleByTen_divided (fuel : Nat) (x : Binary64) {j : Nat} (hpos : 0 < j)
    (hj : j ≤ maxPower) :
    scaleByTen (fuel + 1) x (-(j : Int)) = some (x.dividedByMagnitude (powerOfTen j)) := by
  have hj : (-(j : Int)).natAbs ≤ 308 := by
    rw [Int.natAbs_neg]
    exact hj
  rw [scaleByTen, if_pos hj, if_neg (by omega), Int.natAbs_neg, Int.natAbs_natCast]

/-- A power beyond the largest one takes two steps. -/
theorem scaleByTen_divided_twice (fuel : Nat) {x : Binary64} (hx : ¬x.isZero = true) {j : Nat}
    (hpos : 0 < j) : scaleByTen (fuel + 1) x (-((maxPower + j : Nat) : Int)) =
      scaleByTen fuel (x.dividedByMagnitude (powerOfTen maxPower)) (-(j : Int)) := by
  have hlarge : ¬(-((maxPower + j : Nat) : Int)).natAbs ≤ 308 := by
    rw [Int.natAbs_neg, Int.natAbs_natCast, maxPower]
    omega
  have hrest : -((maxPower + j : Nat) : Int) + 308 = -(j : Int) := by
    rw [maxPower]
    omega
  rw [scaleByTen, if_neg hlarge, if_neg hx, if_neg (by omega), hrest]
  rfl

theorem scaled_times (hd : 0 < d) (hd' : d ≤ 10 ^ maxPower) {j : Nat} (hj : j ≤ maxPower) :
    Scaled d j ((ofNat d).units * (powerOfTen j).units * unitsPerOne)
      (unitsPerOne * unitsPerOne) := by
  have hone := unitsPerOne_cast_pos
  have hvalue : decimalUnits d j =
      d * unitsPerOne * (10 ^ j * unitsPerOne) * (unitsPerOne : ℚ)⁻¹ := by
    rw [decimalUnits, zpow_natCast]
    field_simp
  have hratio : (((ofNat d).units * (powerOfTen j).units * unitsPerOne : Nat) : ℚ) /
      (unitsPerOne * unitsPerOne : Nat) =
        (ofNat d).units * (powerOfTen j).units * (unitsPerOne : ℚ)⁻¹ := by
    push_cast
    field_simp
  refine .of_near (Nat.mul_pos unitsPerOne_pos unitsPerOne_pos) ?_ ?_ ?_
  · have hnear := (near_ofNat hd hd').mul (near_powerOfTen hj) unitRoundoff_lt_one.le
      unitRoundoff_lt_one.le unitRoundoff_nonneg unitRoundoff_nonneg (integerUnits_nonneg d)
      (powerUnits_pos j).le
    have hvalue_nonneg := mul_nonneg (integerUnits_nonneg d) (powerUnits_pos j).le
    rw [hratio, hvalue]
    exact (hnear.mono (by norm_num [unitRoundoff]) hvalue_nonneg).scale (inv_nonneg.mpr hone.le)
  · intro hsmall hexact
    rw [hratio, hvalue, units_ofNat hsmall, units_powerOfTen j hexact]
    push_cast
    rfl
  · intro hfinite
    obtain ⟨hlt, heq⟩ := ofRatio_eq false hfinite
    refine ⟨hlt, ?_⟩
    have hinfinite : ¬isInfinite ⟨false, _, hlt⟩ = true := by
      rw [isInfinite, beq_iff_eq]
      exact Nat.ne_of_lt hfinite
    rw [scaleByTen_times 4 _ hj, timesMagnitude, heq, if_neg hinfinite]

theorem near_units_pos {ε : ℚ} {n m : Nat} (h : Near ε n (m * unitsPerOne)) (hε : ε < 1)
    (hm : 0 < m) : 0 < n := by
  have hm : (0 : ℚ) < m := by exact_mod_cast hm
  have := (mul_pos (sub_pos.mpr hε) (mul_pos hm unitsPerOne_cast_pos)).trans_le h.lower
  exact_mod_cast this

theorem powerOfTen_pos {j : Nat} (hj : j ≤ maxPower) : 0 < (powerOfTen j).units := by
  have hnear := near_powerOfTen hj
  rw [← Nat.cast_ofNat, ← Nat.cast_pow] at hnear
  exact near_units_pos hnear unitRoundoff_lt_one (Nat.pow_pos (by decide))

theorem decimalUnits_neg (d j : Nat) :
    decimalUnits d (-(j : Int)) = d * unitsPerOne / (10 ^ j * unitsPerOne) * unitsPerOne := by
  have hone := unitsPerOne_cast_pos
  rw [decimalUnits, zpow_neg, zpow_natCast]
  field_simp

/-- The digits divided by a power of ten, before that is rounded. -/
theorem near_quotient (η : ℚ) (hd : 0 < d) (hd' : d ≤ 10 ^ maxPower) {j : Nat} {δ : ℚ}
    (hpower : Near δ (powerOfTen j).units (10 ^ j * unitsPerOne))
    (hη : unitRoundoff + δ ≤ η * (1 - δ)) (hη' : η ≤ 1) (hδ : 0 ≤ δ) (hδ' : δ < 1) :
    Near η (((ofNat d).units * unitsPerOne : Nat) / (powerOfTen j).units)
      (decimalUnits d (-(j : Int))) := by
  have hnear := (near_ofNat hd hd').div hpower hη hη' unitRoundoff_nonneg hδ hδ'
    (integerUnits_nonneg d) (powerUnits_pos j)
  have hratio : (((ofNat d).units * unitsPerOne : Nat) : ℚ) / (powerOfTen j).units =
      (ofNat d).units / (powerOfTen j).units * unitsPerOne := by
    push_cast
    ring
  rw [hratio, decimalUnits_neg]
  exact hnear.scale unitsPerOne_cast_pos.le

theorem scaled_divided (hd : 0 < d) (hd' : d ≤ 10 ^ maxPower) {j : Nat} (hpos : 0 < j)
    (hj : j ≤ maxPower) :
    Scaled d (-(j : Int)) ((ofNat d).units * unitsPerOne) (powerOfTen j).units := by
  refine .of_near (powerOfTen_pos hj) ?_ ?_ ?_
  · exact near_quotient _ hd hd' (near_powerOfTen hj) (by norm_num [unitRoundoff])
      (by norm_num [unitRoundoff]) unitRoundoff_nonneg unitRoundoff_lt_one
  · intro hsmall hexact
    rw [Int.natAbs_neg, Int.natAbs_natCast] at hexact
    rw [decimalUnits_neg, units_ofNat hsmall, units_powerOfTen j hexact]
    push_cast
    ring
  · intro hfinite
    obtain ⟨hlt, heq⟩ := ofRatio_eq false hfinite
    exact ⟨hlt, by rw [scaleByTen_divided 4 _ hpos hj, dividedByMagnitude, heq]⟩

/-! ## Two steps -/

theorem not_isZero_ofNat (hd : 0 < d) (hd' : d ≤ 10 ^ maxPower) : ¬(ofNat d).isZero = true := by
  intro hzero
  have hunits := near_units_pos (near_ofNat hd hd') unitRoundoff_lt_one hd
  rw [units_eq, beq_iff_eq.mp hzero] at hunits
  exact absurd hunits (by decide)

/-- The first step, which may lose places below the least normal number. -/
theorem units_firstStep (hd : 0 < d) (hd' : d ≤ 10 ^ maxPower) :
    ∃ q : ℚ, Near (73 / 64 * unitRoundoff) q (decimalUnits d (-(maxPower : Int))) ∧
      ((ofNat d).dividedByMagnitude (powerOfTen maxPower)).units ≤
        (1 + unitRoundoff) * q + 1 / 2 ∧
      (1 - unitRoundoff) * q - 1 / 2 ≤
        ((ofNat d).dividedByMagnitude (powerOfTen maxPower)).units := by
  have hpower_pos := powerOfTen_pos (Nat.le_refl maxPower)
  have hfinite : nearestMagnitude ((ofNat d).units * unitsPerOne) (powerOfTen maxPower).units <
      infinityMagnitude := by
    have hlarge : unitsPerOne ≤ (powerOfTen maxPower).units := by decide +kernel
    obtain ⟨hlt, heq⟩ := ofRatio_eq false (nearestMagnitude_lt_infinity hd')
    calc nearestMagnitude ((ofNat d).units * unitsPerOne) (powerOfTen maxPower).units
        ≤ nearestMagnitude (ofNat d).units 1 := by
          refine nearestMagnitude_le hpower_pos (by decide) ?_
          rw [Nat.mul_one]
          exact Nat.mul_le_mul_left _ hlarge
      _ = nearestMagnitude (d * unitsPerOne) 1 := by
          rw [nearestMagnitude_units, ofNat, heq]
      _ < infinityMagnitude := nearestMagnitude_lt_infinity hd'
  have hnear := near_quotient (73 / 64 * unitRoundoff) hd hd' near_powerOfTen_maxPower
    (by norm_num [unitRoundoff]) (by norm_num [unitRoundoff]) (by norm_num [unitRoundoff])
    (by norm_num [unitRoundoff])
  obtain ⟨e, he, hlower, hupper⟩ := exists_error ((ofNat d).units * unitsPerOne) hpower_pos
  rw [← units_ofRatio false hfinite, ← dividedByMagnitude] at hlower hupper
  have hquotient := mul_nonneg unitRoundoff_nonneg
    (hnear.nonneg (by norm_num [unitRoundoff]) (decimalUnits_nonneg d _))
  refine ⟨_, hnear, ?_, ?_⟩
  · rcases he with he | ⟨rfl, -⟩ <;> linarith
  · rcases he with he | ⟨rfl, -⟩ <;> linarith

theorem scaled_divided_twice (hd : 0 < d) (hd' : d ≤ 10 ^ maxPower) {j : Nat} (hpos : 0 < j)
    (hj : j ≤ 22) :
    Scaled d (-((maxPower + j : Nat) : Int))
      (((ofNat d).dividedByMagnitude (powerOfTen maxPower)).units * unitsPerOne)
      (powerOfTen j).units := by
  obtain ⟨q, hnear, hupper, hlower⟩ := units_firstStep hd hd'
  have hten : (10 : ℚ) ≤ 10 ^ j := by
    calc (10 : ℚ) = 10 ^ 1 := (pow_one 10).symm
      _ ≤ 10 ^ j := pow_le_pow_right₀ (by norm_num) hpos
  have hten_pos : (0 : ℚ) < 10 ^ j := by positivity
  have hvalue : decimalUnits d (-((maxPower + j : Nat) : Int)) =
      decimalUnits d (-(maxPower : Int)) / 10 ^ j := by
    have hexponent : -((maxPower + j : Nat) : Int) = -(maxPower : Int) - j := by omega
    rw [decimalUnits, decimalUnits, hexponent, zpow_sub₀ (by norm_num), zpow_natCast]
    ring
  have hratio (n : Nat) : ((n * unitsPerOne : Nat) : ℚ) / (powerOfTen j).units = n / 10 ^ j := by
    rw [units_powerOfTen j hj]
    push_cast
    exact mul_div_mul_right _ _ unitsPerOne_cast_pos.ne'
  have hlow := hnear.lower
  have hhigh := hnear.upper
  rw [unitRoundoff] at hlow hhigh hlower hupper
  constructor
  case den_pos => exact powerOfTen_pos (hj.trans (by decide))
  case lower =>
    have hdiv : (1 - 9 / 4 * unitRoundoff) * (decimalUnits d (-(maxPower : Int)) / 10 ^ j) - 1 / 16 =
        ((1 - 9 / 4 * unitRoundoff) * decimalUnits d (-(maxPower : Int)) - 10 ^ j / 16) / 10 ^ j := by
      field_simp
    rw [hratio, hvalue, hdiv, div_le_div_iff_of_pos_right hten_pos, unitRoundoff]
    linarith
  case upper =>
    have hdiv : (1 + 9 / 4 * unitRoundoff) * (decimalUnits d (-(maxPower : Int)) / 10 ^ j) + 1 / 16 =
        ((1 + 9 / 4 * unitRoundoff) * decimalUnits d (-(maxPower : Int)) + 10 ^ j / 16) / 10 ^ j := by
      field_simp
    rw [hratio, hvalue, hdiv, div_le_div_iff_of_pos_right hten_pos, unitRoundoff]
    linarith
  case exact =>
    intro _ hsmall
    rw [Int.natAbs_neg, Int.natAbs_natCast, maxPower] at hsmall
    omega
  case result =>
    intro hfinite
    obtain ⟨hlt, heq⟩ := ofRatio_eq false hfinite
    refine ⟨hlt, ?_⟩
    rw [scaleByTen_divided_twice 4 (not_isZero_ofNat hd hd') hpos,
      scaleByTen_divided 3 _ hpos (hj.trans (by decide))]
    exact congrArg some heq

/-- Where a decimal is read, what the last step rounds is near the decimal. -/
theorem exists_scaled {k : Int} (hd : 0 < d) (hd' : d ≤ 10 ^ maxPower) (hk : -324 ≤ k)
    (hk' : k ≤ 308) : ∃ num den, Scaled d k num den := by
  rcases Int.lt_or_le k 0 with hneg | hnonneg
  · obtain ⟨j, hj⟩ := Int.eq_ofNat_of_zero_le (show 0 ≤ -k by omega)
    obtain rfl : k = -(j : Int) := by omega
    rcases Nat.lt_or_ge maxPower j with hlarge | hsmall
    · obtain ⟨i, rfl⟩ := Nat.exists_eq_add_of_lt hlarge
      rw [maxPower] at hk
      exact ⟨_, _, scaled_divided_twice hd hd' (Nat.succ_pos i) (by omega)⟩
    · exact ⟨_, _, scaled_divided hd hd' (by omega) hsmall⟩
  · obtain ⟨j, rfl⟩ := Int.eq_ofNat_of_zero_le hnonneg
    exact ⟨_, _, scaled_times hd hd' (show j ≤ 308 by omega)⟩

end

end Binary64
end MarkupEval
