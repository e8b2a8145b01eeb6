import Mathlib.Algebra.Group.Nat.Defs
import MarkupEval.Number.Layout

/-!
# Rounding is exact where it can be

Rounding the units of a finite number gives its magnitude back (`nearestMagnitude_units`). So the
number nearest to the integer that a number is, is that number, up to the sign of zero
(`ofInt_same`).
-/

namespace MarkupEval

theorem roundHalfEven_mul {n d : Nat} (hd : 0 < d) : roundHalfEven (n * d) d = n := by
  simp only [roundHalfEven, Nat.mul_div_cancel _ hd, Nat.mul_mod_left, Nat.mul_zero, if_pos hd]

namespace Binary64

theorem binade_eq : binade = 2 ^ 52 := by decide

theorem significand_lt (x : Binary64) : x.significand < 2 * binade := by
  have hmod := Nat.mod_lt x.magnitude (show 0 < binade by decide)
  unfold significand
  split <;> omega

theorem log2_units {x : Binary64} (h : ¬x.magnitude < binade) : x.units.log2 = x.scale + 52 := by
  have hsignificand : x.significand = binade + x.magnitude % binade := if_neg h
  have hlt := x.significand_lt
  rw [Nat.log2_eq_iff, units, Nat.shiftLeft_eq]
  · rw [binade_eq] at *
    constructor
    · rw [Nat.pow_add, Nat.mul_comm]
      exact Nat.mul_le_mul_right _ (by omega)
    · rw [Nat.add_assoc, Nat.add_comm, Nat.pow_add]
      exact (Nat.mul_lt_mul_right (Nat.two_pow_pos _)).mpr (by omega)
  · rw [units, Nat.shiftLeft_eq]
    have : 0 < x.significand := by
      rw [hsignificand, binade_eq]
      omega
    exact Nat.ne_of_gt (Nat.mul_pos this (Nat.two_pow_pos _))

/-- The units of a number are exactly its own magnitude. -/
theorem nearestMagnitude_units (x : Binary64) : nearestMagnitude x.units 1 = x.magnitude := by
  have hround (m s : Nat) : roundHalfEven (m <<< s) (1 <<< s) = m := by
    rw [Nat.shiftLeft_eq, Nat.shiftLeft_eq, Nat.one_mul]
    exact roundHalfEven_mul (Nat.two_pow_pos s)
  by_cases h : x.magnitude < binade
  · have hscale : x.scale = 0 := by rw [scale, Nat.div_eq_of_lt h]
    have hunits : x.units = x.magnitude := by
      rw [units, hscale, significand, if_pos h, Nat.shiftLeft_zero]
    have hlog : x.magnitude.log2 - 52 = 0 := by
      by_cases hzero : x.magnitude = 0
      · rw [hzero, Nat.log2_zero]
      · have : x.magnitude.log2 < 52 := (Nat.log2_lt hzero).mpr (binade_eq ▸ h)
        omega
    rw [hunits, nearestMagnitude]
    simp only [Nat.div_one, hlog, Nat.zero_mul, Nat.zero_add]
    exact hround x.magnitude 0
  · have hlog : x.units.log2 - 52 = x.scale := by
      rw [log2_units h]
      omega
    rw [nearestMagnitude]
    simp only [Nat.div_one, hlog]
    rw [units, hround, significand, if_neg h, scale]
    have hpos : 1 ≤ x.magnitude / binade :=
      (Nat.one_le_div_iff (by decide)).mpr (Nat.not_lt.mp h)
    have hdiv := Nat.div_add_mod x.magnitude binade
    rw [Nat.sub_mul, Nat.one_mul, Nat.mul_comm]
    have : binade ≤ binade * (x.magnitude / binade) := Nat.le_mul_of_pos_right _ hpos
    omega

theorem units_eq_zero {x : Binary64} (h : x.units = 0) : x.isZero = true := by
  have hmagnitude := nearestMagnitude_units x
  rw [h] at hmagnitude
  rw [isZero, ← hmagnitude]
  rfl

theorem eq_zero_of_isZero {x : Binary64} (h : x.isZero = true) : x = zero x.negative := by
  obtain ⟨negative, magnitude, hlt⟩ := x
  obtain rfl : magnitude = 0 := beq_iff_eq.mp h
  rfl

theorem not_isFinite_of_isNaN {x : Binary64} (h : x.isNaN = true) : x.isFinite = false :=
  decide_eq_false (Nat.lt_asymm (of_decide_eq_true h))

theorem not_isFinite_of_isInfinite {x : Binary64} (h : x.isInfinite = true) : x.isFinite = false :=
  decide_eq_false (beq_iff_eq.mp h ▸ Nat.lt_irrefl _)

theorem isNaN_or_isInfinite {x : Binary64} (h : x.isFinite = false) :
    x.isNaN = true ∨ x.isInfinite = true := by
  have hle : infinityMagnitude ≤ x.magnitude := Nat.not_lt.mp (of_decide_eq_false h)
  rcases Nat.lt_or_eq_of_le hle with hlt | heq
  · exact .inl (decide_eq_true hlt)
  · exact .inr (beq_iff_eq.mpr heq.symm)

/-- A number without a fraction is a multiple of one, with its sign. -/
theorem exists_of_toInt? {x : Binary64} {n : Int} (h : x.toInt? = some n) :
    x.magnitude < infinityMagnitude ∧ ∃ k : Nat, k * unitsPerOne = x.units ∧
      n = if x.negative then -(k : Int) else k := by
  unfold toInt? at h
  split at h
  case isFalse => cases h
  next hint =>
    rw [Bool.and_eq_true, beq_iff_eq] at hint
    obtain ⟨hfinite, hmod⟩ := hint
    exact ⟨of_decide_eq_true hfinite, x.units / unitsPerOne,
      Nat.div_mul_cancel (Nat.dvd_of_mod_eq_zero hmod), (Option.some.inj h).symm⟩

theorem safeInteger?_iff {x : Binary64} {n : Int} :
    x.safeInteger? = some n ↔ x.toInt? = some n ∧ n.natAbs ≤ maxSafeInteger := by
  rw [safeInteger?, Option.bind_eq_bind, Option.bind_eq_some_iff]
  constructor
  · rintro ⟨m, hm, h⟩
    split at h
    · next hsize =>
      cases h
      exact ⟨hm, hsize⟩
    · cases h
  · rintro ⟨hint, hsize⟩
    exact ⟨n, hint, if_pos hsize⟩

/-- The number nearest to the integer that a number is, is the number. -/
theorem ofInt_same {x : Binary64} {n : Int} (h : x.toInt? = some n) : (ofInt n).same x = true := by
  obtain ⟨hlt, k, hk, hn⟩ := exists_of_toInt? h
  have habs : n.natAbs = k := by
    rw [hn]
    split
    · exact Int.natAbs_neg k
    · rfl
  have hof : ofInt n = ⟨n < 0, x.magnitude, x.magnitude_lt⟩ := by
    have hnearest : nearestMagnitude (n.natAbs * unitsPerOne) 1 = x.magnitude := by
      rw [habs, hk, nearestMagnitude_units]
    simp only [ofInt, ofRatio, hnearest, dif_pos hlt]
  by_cases hzero : k = 0
  · have hx : x.isZero = true := units_eq_zero (by rw [← hk, hzero, Nat.zero_mul])
    have hn : (ofInt n).isZero = true := by rwa [hof]
    rw [same, hx, hn]
    simp
  · have hsign : decide (n < 0) = x.negative := by
      cases hx : x.negative with
      | true =>
        rw [hn, hx, if_pos rfl]
        exact decide_eq_true (by omega)
      | false =>
        rw [hn, hx, if_neg Bool.false_ne_true]
        exact decide_eq_false (by omega)
    rw [hof, hsign]
    exact same_refl x

end Binary64
end MarkupEval
