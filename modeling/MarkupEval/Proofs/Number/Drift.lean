import Mathlib.Tactic.Positivity
import MarkupEval.Proofs.Number.Scaling

/-!
# How far a number drifts

A decimal in the interval of a number is read as a number at most three magnitudes away
(`drift_le`). Its interval reaches half a step, and the rounded steps of the reader add less than
two and a half; below a power of two, where steps are half as long, the errors are half as large.
-/

namespace MarkupEval
namespace Binary64

variable {x : Binary64} {num den : Nat} {q : ℚ}

/-! ## Neighbours -/

theorem nearestMagnitude_le_of_le {m : Nat} (hden : 0 < den) (hm : m < signUnit)
    (h : (num : ℚ) / den ≤ unitsOf m) : nearestMagnitude num den ≤ m := by
  rw [div_le_iff₀ (by exact_mod_cast hden)] at h
  calc nearestMagnitude num den ≤ nearestMagnitude (unitsOf m) 1 := by
        refine nearestMagnitude_le hden (by decide) ?_
        rw [Nat.mul_one]
        exact_mod_cast h
    _ = m := nearestMagnitude_unitsOf hm

theorem le_nearestMagnitude_of_le {m : Nat} (hden : 0 < den) (hm : m < signUnit)
    (h : (unitsOf m : ℚ) ≤ num / den) : m ≤ nearestMagnitude num den := by
  rw [le_div_iff₀ (by exact_mod_cast hden)] at h
  calc m = nearestMagnitude (unitsOf m) 1 := (nearestMagnitude_unitsOf hm).symm
    _ ≤ nearestMagnitude num den := by
        refine nearestMagnitude_le (by decide) hden ?_
        rw [Nat.mul_one]
        exact_mod_cast h

/-- Steps get no shorter upwards. -/
theorem le_unitsOf_add (x : Binary64) {j : Nat} (hj : j ≤ binade) :
    (x.significand + j) * 2 ^ x.scale ≤ unitsOf (x.magnitude + j) := by
  have hlt := x.significand_lt
  have hlow : binade ≤ x.significand + j ∨ x.scale = 0 := by
    by_cases h : x.scale = 0
    · exact .inr h
    · exact .inl ((binade_le_significand h).trans (Nat.le_add_right ..))
  rcases Nat.lt_or_ge (2 * binade) (x.significand + j) with hcarry | hfits
  · obtain ⟨i, hi⟩ := Nat.exists_eq_add_of_le hcarry.le
    have hsum : x.magnitude + j = (x.scale + 1) * binade + (binade + i) := by
      rw [magnitude_eq, Nat.add_mul]
      omega
    rw [hsum, unitsOf_add (by omega) (.inl (Nat.le_add_right ..)), Nat.pow_succ', ← Nat.mul_assoc]
    exact Nat.mul_le_mul_right _ (by omega)
  · rw [magnitude_eq, Nat.add_assoc, unitsOf_add hfits hlow]

/-- Downwards they stay as long up to the power of two. -/
theorem unitsOf_sub {j : Nat} (hj : j ≤ x.significand)
    (h : binade + j ≤ x.significand ∨ x.scale = 0) :
    unitsOf (x.magnitude - j) = (x.significand - j) * 2 ^ x.scale := by
  have hlt := x.significand_lt
  have hsub : x.magnitude - j = x.scale * binade + (x.significand - j) := by
    rw [magnitude_eq]
    omega
  rw [hsub, unitsOf_add (by omega) (h.imp (by omega) id)]

/-- Below it they are half as long. -/
theorem unitsOf_sub_binade {j : Nat} (hj : j ≤ binade) (hlow : binade ≤ x.significand)
    (hhigh : x.significand ≤ binade + j) (h : x.scale ≠ 0) :
    2 * unitsOf (x.magnitude - j) = (binade + x.significand - j) * 2 ^ x.scale := by
  obtain ⟨e, he⟩ := Nat.exists_eq_add_one_of_ne_zero h
  have hsub : x.magnitude - j = e * binade + (binade + x.significand - j) := by
    rw [magnitude_eq, he, Nat.add_mul]
    omega
  rw [hsub, unitsOf_add (by omega) (.inl (by omega)), he, Nat.pow_succ']
  ring

/-! ## Half a step -/

theorem Neighbourhood.Holds.bounds (h : x.neighbourhood.Holds q) (hx : 0 < x.significand) :
    (x.significand : ℚ) * 2 ^ x.scale - 2 ^ x.scale / 2 ≤ q ∧
      q ≤ (x.significand : ℚ) * 2 ^ x.scale + 2 ^ x.scale / 2 := by
  have hlow : 4 * (x.significand * 2 ^ x.scale) ≤ x.neighbourhood.low + 2 * 2 ^ x.scale := by
    calc 4 * (x.significand * 2 ^ x.scale) ≤ (4 * x.significand - 2 + 2) * 2 ^ x.scale := by
          rw [← Nat.mul_assoc]
          exact Nat.mul_le_mul_right _ (by omega)
      _ ≤ x.neighbourhood.low + 2 * 2 ^ x.scale := by
          rw [Nat.add_mul]
          exact Nat.add_le_add_right (low_ge x) _
  have hlow' : (4 : ℚ) * (x.significand * 2 ^ x.scale) ≤ x.neighbourhood.low + 2 * 2 ^ x.scale := by
    exact_mod_cast hlow
  have hhigh := h.high
  rw [neighbourhood_high] at hhigh
  push_cast at hhigh
  exact ⟨by linarith [h.low], by linarith⟩

/-- Below a power of two the interval reaches a quarter of the step only. -/
theorem Neighbourhood.Holds.ge_of_binade (h : x.neighbourhood.Holds q)
    (hx : x.significand = binade) (hscale : x.scale ≠ 0) :
    (x.significand : ℚ) * 2 ^ x.scale - 2 ^ x.scale / 4 ≤ q := by
  have hlow : x.neighbourhood.low + 2 ^ x.scale = 4 * (x.significand * 2 ^ x.scale) := by
    have hbinade := binade_pos
    rw [neighbourhood_low, if_pos ⟨hx, hscale⟩, ← Nat.mul_assoc, ← Nat.succ_mul]
    congr 1
    omega
  have hlow' : (x.neighbourhood.low : ℚ) + 2 ^ x.scale = 4 * (x.significand * 2 ^ x.scale) := by
    exact_mod_cast hlow
  linarith [h.low]

/-! ## Three magnitudes -/

section
variable {d : Nat} {k : Int}

theorem significand_mul_lt (x : Binary64) :
    (x.significand : ℚ) * 2 ^ x.scale ≤ 9007199254740991 * 2 ^ x.scale := by
  have hlt := x.significand_lt
  have hle : x.significand ≤ 9007199254740991 := by
    rw [binade] at hlt
    omega
  exact mul_le_mul_of_nonneg_right (by exact_mod_cast hle) (by positivity)

theorem drift_up (h : Scaled d k num den) (hx : 0 < x.significand)
    (hfinite : x.magnitude < infinityMagnitude)
    (hstands : x.neighbourhood.Holds (decimalUnits d k)) :
    nearestMagnitude num den ≤ x.magnitude + 3 := by
  have hlimit : infinityMagnitude + 3 < signUnit := by decide
  refine nearestMagnitude_le_of_le h.den_pos (by omega) ?_
  have hsteps : ((x.significand : ℚ) + 3) * 2 ^ x.scale ≤ unitsOf (x.magnitude + 3) := by
    exact_mod_cast le_unitsOf_add x (j := 3) (by decide)
  have hstep : (1 : ℚ) ≤ 2 ^ x.scale := one_le_pow₀ (by norm_num)
  have hsize := significand_mul_lt x
  have hinside := (hstands.bounds hx).2
  have hupper := h.upper
  rw [unitRoundoff] at hupper
  linarith

theorem drift_down (h : Scaled d k num den) (hx : 0 < x.significand)
    (hfinite : x.magnitude < infinityMagnitude)
    (hstands : x.neighbourhood.Holds (decimalUnits d k)) :
    x.magnitude ≤ nearestMagnitude num den + 3 := by
  have hlimit : infinityMagnitude < signUnit := by decide
  rw [← Nat.sub_le_iff_le_add]
  refine le_nearestMagnitude_of_le h.den_pos (by omega) ?_
  have hstep : (1 : ℚ) ≤ 2 ^ x.scale := one_le_pow₀ (by norm_num)
  have hsize := significand_mul_lt x
  have hinside := (hstands.bounds hx).1
  have hlower := h.lower
  rw [unitRoundoff] at hlower
  by_cases hdense : binade + 3 ≤ x.significand ∨ x.scale = 0
  · by_cases hfew : x.significand < 3
    · have hzero : x.magnitude - 3 = 0 := by
        have hscale : x.scale = 0 := hdense.resolve_left (by rw [binade]; omega)
        rw [magnitude_eq, hscale]
        omega
      rw [hzero, show unitsOf 0 = 0 from rfl, Nat.cast_zero]
      positivity
    · have hsub := unitsOf_sub (Nat.not_lt.mp hfew) hdense
      rw [hsub, Nat.cast_mul, Nat.cast_sub (Nat.not_lt.mp hfew)]
      push_cast
      linarith
  · obtain ⟨hnear, hscale⟩ := not_or.mp hdense
    have hbinade := binade_le_significand hscale
    have hhalf := unitsOf_sub_binade (j := 3) (by decide) hbinade (by omega) hscale
    have hcast : (2 : ℚ) * unitsOf (x.magnitude - 3) =
        (binade + x.significand - 3) * 2 ^ x.scale := by
      have hthree : 3 ≤ binade + x.significand := Nat.le_add_right_of_le (by decide)
      have hcast := congrArg (Nat.cast (R := ℚ)) hhalf
      rwa [Nat.cast_mul, Nat.cast_mul, Nat.cast_sub hthree, Nat.cast_add, Nat.cast_pow] at hcast
    rcases Nat.eq_or_lt_of_le hbinade with heq | hlt
    · have hquarter := hstands.ge_of_binade heq.symm hscale
      rw [← heq, binade_cast] at hcast hquarter
      linarith
    · have hle : (x.significand : ℚ) * 2 ^ x.scale ≤ 4503599627370498 * 2 ^ x.scale := by
        have hle : x.significand ≤ binade + 2 := by omega
        refine mul_le_mul_of_nonneg_right ?_ (by positivity)
        exact_mod_cast hle
      have hge : (4503599627370497 : ℚ) * 2 ^ x.scale ≤ x.significand * 2 ^ x.scale := by
        have hge : binade + 1 ≤ x.significand := hlt
        refine mul_le_mul_of_nonneg_right ?_ (by positivity)
        exact_mod_cast hge
      rw [binade_cast] at hcast
      linarith

end

end Binary64
end MarkupEval
