import Mathlib.Tactic.LinearCombination
import MarkupEval.Proofs.Number.Drift

/-!
# Correct rounding

The number nearest to a real is said without regard to how it is found (`IsRounded`): no magnitude
is nearer, infinity counting as the power of two that follows the largest finite number, and of two
that are as near the even one is taken. There is at most one such number (`IsRounded.unique`), and
rounding a ratio finds it (`isRounded_ofRatio`).
-/

namespace MarkupEval
namespace Binary64

/-- How far a magnitude is from a real, in units. -/
def error (m : Nat) (q : ℚ) : ℚ := |(unitsOf m : ℚ) - q * unitsPerOne|

/-- The number of a given sign whose magnitude is nearest to a real, the even one of two. -/
structure IsRounded (negative : Bool) (q : ℚ) (x : Binary64) : Prop where
  negative : x.negative = negative
  le_infinity : x.magnitude ≤ infinityMagnitude
  nearest : ∀ m ≤ infinityMagnitude, error x.magnitude q ≤ error m q
  even : ∀ m ≤ infinityMagnitude, m ≠ x.magnitude → error m q = error x.magnitude q →
    x.magnitude % 2 = 0

variable {x y : Binary64} {q : ℚ} {negative : Bool}

theorem unitsOf_lt {m n : Nat} (hm : m < signUnit) (h : m < n) (hn : n < signUnit) :
    unitsOf m < unitsOf n := by
  by_contra hle
  have hround : nearestMagnitude (unitsOf n) 1 ≤ nearestMagnitude (unitsOf m) 1 :=
    nearestMagnitude_le (by decide) (by decide) (Nat.mul_le_mul_right 1 (Nat.not_lt.mp hle))
  rw [nearestMagnitude_unitsOf hn, nearestMagnitude_unitsOf hm] at hround
  omega

theorem unitsOf_zero : unitsOf 0 = 0 := by decide

theorem unitsOf_one : unitsOf 1 = 1 := by decide

theorem lt_signUnit {m : Nat} (h : m ≤ infinityMagnitude) : m < signUnit :=
  Nat.lt_of_le_of_lt h (by decide)

theorem unitsOf_le {m n : Nat} (h : m ≤ n) (hn : n ≤ infinityMagnitude) :
    unitsOf m ≤ unitsOf n := by
  rcases Nat.eq_or_lt_of_le h with rfl | h
  · exact Nat.le_refl _
  · exact (unitsOf_lt (lt_signUnit (h.le.trans hn)) h (lt_signUnit hn)).le

namespace IsRounded

theorem not_isNaN (h : IsRounded negative q x) : x.isNaN = false :=
  decide_eq_false (Nat.not_lt.mpr h.le_infinity)

/-- A magnitude that is as near lies on the other side, so that the two have an even one between
them if both are even. -/
theorem magnitude_le (hx : IsRounded negative q x) (hy : IsRounded negative q y) :
    x.magnitude ≤ y.magnitude := by
  by_contra hlt
  rw [Nat.not_le] at hlt
  have hsame : error y.magnitude q = error x.magnitude q :=
    le_antisymm (hy.nearest _ hx.le_infinity) (hx.nearest _ hy.le_infinity)
  have hxeven := hx.even _ hy.le_infinity (Nat.ne_of_lt hlt) hsame
  have hyeven := hy.even _ hx.le_infinity (Nat.ne_of_gt hlt) hsame.symm
  have hbetween : y.magnitude + 1 < x.magnitude := by omega
  have hnearest := hx.nearest _ (hbetween.le.trans hx.le_infinity)
  have hlow : (unitsOf y.magnitude : ℚ) < unitsOf (y.magnitude + 1) := by
    exact_mod_cast unitsOf_lt y.magnitude_lt (Nat.lt_succ_self _) (hbetween.trans x.magnitude_lt)
  have hhigh : (unitsOf (y.magnitude + 1) : ℚ) < unitsOf x.magnitude := by
    exact_mod_cast unitsOf_lt (hbetween.trans x.magnitude_lt) hbetween x.magnitude_lt
  unfold error at hsame hnearest
  rcases abs_eq_abs.mp hsame with h | h
  · linarith
  · have hpos : 0 < (unitsOf x.magnitude : ℚ) - q * unitsPerOne := by linarith
    rw [abs_of_pos hpos, le_abs] at hnearest
    rcases hnearest with h' | h' <;> linarith

/-- There is one number of a sign that is nearest. -/
theorem unique (hx : IsRounded negative q x) (hy : IsRounded negative q y) : x = y := by
  have hnegative := hx.negative.trans hy.negative.symm
  have hmagnitude := Nat.le_antisymm (hx.magnitude_le hy) (hy.magnitude_le hx)
  cases x
  cases y
  cases hnegative
  cases hmagnitude
  rfl

end IsRounded

/-! ## Zero and infinity -/

/-- A real up to half a unit is rounded to zero. -/
theorem isRounded_zero (negative : Bool) (h : 0 ≤ q) (hq : 2 * (q * unitsPerOne) ≤ 1) :
    IsRounded negative q (zero negative) where
  negative := rfl
  le_infinity := Nat.zero_le _
  nearest m hm := by
    have hnonneg : 0 ≤ q * unitsPerOne := mul_nonneg h unitsPerOne_cast_pos.le
    have hzero : error 0 q = q * unitsPerOne := by
      rw [error, unitsOf_zero, Nat.cast_zero, zero_sub, abs_neg, abs_of_nonneg hnonneg]
    rcases Nat.eq_zero_or_pos m with rfl | hpos
    · exact le_refl _
    · have hone : (1 : ℚ) ≤ unitsOf m := by
        exact_mod_cast unitsOf_zero ▸ unitsOf_lt (by decide) hpos (lt_signUnit hm)
      refine hzero.le.trans (le_abs.mpr (.inl ?_))
      linarith
  even _ _ _ _ := rfl

/-- A real from the power of two that follows the largest finite number on is rounded to
infinity. -/
theorem isRounded_infinity (negative : Bool)
    (hq : (unitsOf infinityMagnitude : ℚ) ≤ q * unitsPerOne) :
    IsRounded negative q (infinity negative) where
  negative := rfl
  le_infinity := Nat.le_refl _
  nearest m hm := by
    have hle : (unitsOf m : ℚ) ≤ unitsOf infinityMagnitude := by
      exact_mod_cast unitsOf_le hm (Nat.le_refl _)
    change error infinityMagnitude q ≤ error m q
    rw [error, error, abs_of_nonpos (by linarith), abs_of_nonpos (by linarith)]
    linarith
  even _ _ _ _ := show infinityMagnitude % 2 = 0 by decide

/-- Exactly the reals up to half a unit are rounded to zero. -/
theorem IsRounded.isZero_iff (h : IsRounded negative q x) (hq : 0 ≤ q) :
    x.isZero = true ↔ 2 * (q * unitsPerOne) ≤ 1 := by
  constructor
  · intro hzero
    have hnearest := h.nearest 1 (by decide)
    rw [beq_iff_eq.mp hzero] at hnearest
    have hnonneg : 0 ≤ q * unitsPerOne := mul_nonneg hq unitsPerOne_cast_pos.le
    rw [error, error, unitsOf_zero, unitsOf_one, Nat.cast_zero, Nat.cast_one, zero_sub, abs_neg,
      abs_of_nonneg hnonneg, le_abs] at hnearest
    rcases hnearest with hnearest | hnearest <;> linarith
  · intro hsmall
    rw [h.unique (isRounded_zero negative hq hsmall)]
    rfl

/-- Exactly the reals from the middle between the largest finite number and the power of two that
follows are rounded to infinity. -/
theorem IsRounded.isInfinite_iff (h : IsRounded negative q x) : x.isInfinite = true ↔
    (unitsOf (infinityMagnitude - 1) + unitsOf infinityMagnitude : ℚ) ≤ 2 * (q * unitsPerOne) := by
  have hstep : (unitsOf (infinityMagnitude - 1) : ℚ) < unitsOf infinityMagnitude := by
    exact_mod_cast unitsOf_lt (by decide) (by decide) (by decide)
  rw [isInfinite, beq_iff_eq]
  constructor
  · intro hinfinite
    have hnearest := h.nearest (infinityMagnitude - 1) (Nat.sub_le _ _)
    rw [hinfinite, error, error] at hnearest
    rcases le_abs.mp ((le_abs_self _).trans hnearest) with hle | hle <;> linarith
  · intro hlarge
    by_contra hne
    have hlt : x.magnitude ≤ infinityMagnitude - 1 :=
      Nat.le_sub_one_of_lt (Nat.lt_of_le_of_ne h.le_infinity hne)
    have hle : (unitsOf x.magnitude : ℚ) ≤ unitsOf (infinityMagnitude - 1) := by
      exact_mod_cast unitsOf_le hlt (Nat.sub_le _ _)
    have hnearest := h.nearest infinityMagnitude (Nat.le_refl _)
    rw [error, error, abs_of_nonpos (by linarith), le_abs] at hnearest
    rcases hnearest with htie | hfar
    · have hlast : x.magnitude = infinityMagnitude - 1 := by
        by_contra hbelow
        have hless : (unitsOf x.magnitude : ℚ) < unitsOf (infinityMagnitude - 1) := by
          exact_mod_cast unitsOf_lt x.magnitude_lt (Nat.lt_of_le_of_ne hlt hbelow) (by decide)
        linarith
      have hsame : error infinityMagnitude q = error x.magnitude q := by
        rw [hlast] at htie
        rw [error, error, hlast, abs_eq_abs]
        exact .inr (by linarith)
      have heven := h.even infinityMagnitude (Nat.le_refl _) (Ne.symm hne) hsame
      rw [hlast] at heven
      exact absurd heven (by decide)
    · linarith

/-! ## Ratios -/

/-- Of two points that are a step apart at least, the one that is off by half a step at most is the
nearer one. -/
theorem abs_sub_le_of_step {u v step : ℚ} (hup : 2 * q ≤ 2 * u + step)
    (hdown : 2 * u ≤ 2 * q + step) (hfar : u + step ≤ v ∨ v + step ≤ u) :
    |u - q| ≤ |v - q| ∧ (|v - q| = |u - q| → 2 * q = 2 * u + step ∨ 2 * u = 2 * q + step) := by
  have hhalf : |u - q| ≤ step / 2 := abs_le.mpr ⟨by linarith, by linarith⟩
  have hother : step / 2 ≤ |v - q| := by
    rw [le_abs]
    rcases hfar with hfar | hfar
    · exact .inl (by linarith)
    · exact .inr (by linarith)
  refine ⟨hhalf.trans hother, fun hsame => ?_⟩
  have htie : |u - q| = step / 2 := le_antisymm hhalf (hsame ▸ hother)
  have hnonneg : 0 ≤ step / 2 := (abs_nonneg _).trans hhalf
  rcases (abs_eq hnonneg).mp htie with h | h
  · exact .inr (by linarith)
  · exact .inl (by linarith)

section
variable {num den m : Nat}

/-- The magnitudes above what a ratio is rounded to are a step away at least. -/
theorem add_step_le (hden : 0 < den) (h : nearestMagnitude num den < m)
    (hm : m ≤ infinityMagnitude) :
    unitsOf (nearestMagnitude num den) + 2 ^ scaleOf num den ≤ unitsOf m := by
  refine Nat.le_trans ?_ (unitsOf_le h hm)
  have hhigh : roundHalfEven num (den * 2 ^ scaleOf num den) ≤ 2 * binade := roundHalfEven_le hden
  have hlow : binade ≤ roundHalfEven num (den * 2 ^ scaleOf num den) ∨ scaleOf num den = 0 :=
    le_roundHalfEven hden
  rw [unitsOf_nearestMagnitude hden, nearestMagnitude_eq, ← Nat.succ_mul, Nat.succ_eq_add_one,
    Nat.succ_eq_add_one]
  generalize roundHalfEven num (den * 2 ^ scaleOf num den) = r at *
  generalize scaleOf num den = s at *
  rcases Nat.eq_or_lt_of_le hhigh with rfl | hlt
  · have hcarry : s * binade + 2 * binade + 1 = (s + 1) * binade + (binade + 1) := by ring
    rw [hcarry, unitsOf_add (by decide) (.inl (by decide)), Nat.pow_succ', ← Nat.mul_assoc]
    exact Nat.mul_le_mul_right _ (by decide)
  · rw [Nat.add_assoc, unitsOf_add hlt (hlow.imp Nat.le_succ_of_le id)]

/-- So are those below, or else the ratio is not below what it is rounded to. -/
theorem step_le_sub (hden : 0 < den) (h : m < nearestMagnitude num den)
    (hle : nearestMagnitude num den ≤ infinityMagnitude) :
    unitsOf m + 2 ^ scaleOf num den ≤ unitsOf (nearestMagnitude num den) ∨
      unitsOf (nearestMagnitude num den) * den ≤ num := by
  have hhigh : roundHalfEven num (den * 2 ^ scaleOf num den) ≤ 2 * binade := roundHalfEven_le hden
  have hlow : binade ≤ roundHalfEven num (den * 2 ^ scaleOf num den) ∨ scaleOf num den = 0 :=
    le_roundHalfEven hden
  by_cases hleast : roundHalfEven num (den * 2 ^ scaleOf num den) = binade ∧ scaleOf num den ≠ 0
  · refine .inr ?_
    rw [unitsOf_nearestMagnitude hden, hleast.1, Nat.mul_assoc, Nat.mul_comm _ den]
    exact le_of_scaleOf_ne_zero hden hleast.2
  · refine .inl ?_
    have hpred := unitsOf_le (Nat.le_sub_one_of_lt h) ((Nat.sub_le _ _).trans hle)
    refine (Nat.add_le_add_right hpred _).trans ?_
    rw [nearestMagnitude_eq] at h
    rw [unitsOf_nearestMagnitude hden, nearestMagnitude_eq]
    generalize roundHalfEven num (den * 2 ^ scaleOf num den) = r at *
    generalize scaleOf num den = s at *
    have hpos : 0 < r := by
      rcases hlow with hlow | rfl
      · exact binade_pos.trans_le hlow
      · omega
    rw [Nat.add_sub_assoc hpos, unitsOf_add (by omega) (by omega), ← Nat.succ_mul,
      Nat.succ_eq_add_one, Nat.sub_add_cancel hpos]

/-- What a ratio is rounded to is off by half a step at most, and even if it is off by as much. -/
theorem nearestMagnitude_spec (num : Nat) (hden : 0 < den) :
    2 * ((num : ℚ) / den) ≤ 2 * unitsOf (nearestMagnitude num den) + 2 ^ scaleOf num den ∧
      2 * (unitsOf (nearestMagnitude num den) : ℚ) ≤ 2 * (num / den) + 2 ^ scaleOf num den ∧
      (2 * ((num : ℚ) / den) = 2 * unitsOf (nearestMagnitude num den) + 2 ^ scaleOf num den ∨
        2 * (unitsOf (nearestMagnitude num den) : ℚ) = 2 * (num / den) + 2 ^ scaleOf num den →
        nearestMagnitude num den % 2 = 0) := by
  have hden' : (0 : ℚ) < den := by exact_mod_cast hden
  obtain ⟨hupper, hlower, heven⟩ :=
    isNearest_roundHalfEven num (Nat.mul_pos hden (Nat.two_pow_pos (scaleOf num den)))
  rw [unitsOf_nearestMagnitude hden, nearestMagnitude_eq]
  generalize roundHalfEven num (den * 2 ^ scaleOf num den) = r at *
  generalize scaleOf num den = s at *
  have hq : (num : ℚ) / den * den = num := div_mul_cancel₀ _ hden'.ne'
  generalize (num : ℚ) / den = q at *
  push_cast
  have hupper' : (2 : ℚ) * num ≤ (2 * r + 1) * (den * 2 ^ s) := by exact_mod_cast hupper
  have hlower' : (2 : ℚ) * r * (den * 2 ^ s) ≤ 2 * num + den * 2 ^ s := by exact_mod_cast hlower
  refine ⟨?_, ?_, fun htie => ?_⟩
  · refine le_of_mul_le_mul_right ?_ hden'
    linarith
  · refine le_of_mul_le_mul_right ?_ hden'
    linarith
  · have hr : r % 2 = 0 := by
      refine heven (htie.imp (fun h => ?_) fun h => ?_)
      · have : (2 : ℚ) * num = (2 * r + 1) * (den * 2 ^ s) := by
          rw [← hq]
          linear_combination (den : ℚ) * h
        exact_mod_cast this
      · have : (2 : ℚ) * r * (den * 2 ^ s) = 2 * num + den * 2 ^ s := by
          rw [← hq]
          linear_combination (den : ℚ) * h
        exact_mod_cast this
    rw [Nat.add_mod, Nat.mul_mod, hr, show binade % 2 = 0 by decide, Nat.mul_zero]

/-- Rounding a ratio of units gives the nearest magnitude. -/
theorem isRounded_of_magnitude (hden : 0 < den) (hnegative : x.negative = negative)
    (hx : x.magnitude = nearestMagnitude num den) (hle : x.magnitude ≤ infinityMagnitude)
    (hq : q * unitsPerOne = num / den) : IsRounded negative q x := by
  obtain ⟨hup, hdown, heven⟩ := nearestMagnitude_spec num hden
  have hcompare : ∀ m ≤ infinityMagnitude, m ≠ x.magnitude →
      error x.magnitude q ≤ error m q ∧
        (error m q = error x.magnitude q → x.magnitude % 2 = 0) := by
    intro m hm hne
    rw [error, error, hq, hx]
    rw [hx] at hne hle
    rcases Nat.lt_or_gt_of_ne hne with hlt | hgt
    · rcases step_le_sub hden hlt hle with hfar | hfloor
      · have hfar : (unitsOf m : ℚ) + 2 ^ scaleOf num den ≤ unitsOf (nearestMagnitude num den) := by
          exact_mod_cast hfar
        exact (abs_sub_le_of_step hup hdown (.inr hfar)).imp_right (heven ∘ ·)
      -- Below a power of two the magnitudes are less than a step away, but the ratio is above it.
      · have hfloor : (unitsOf (nearestMagnitude num den) : ℚ) ≤ num / den := by
          rw [le_div_iff₀ (by exact_mod_cast hden)]
          exact_mod_cast hfloor
        have hbelow : (unitsOf m : ℚ) < unitsOf (nearestMagnitude num den) := by
          exact_mod_cast unitsOf_lt (lt_signUnit hm) hlt (lt_signUnit hle)
        rw [abs_of_nonpos (by linarith), abs_of_nonpos (by linarith)]
        exact ⟨by linarith, fun hsame => absurd hsame (by linarith)⟩
    · have hfar : (unitsOf (nearestMagnitude num den) : ℚ) + 2 ^ scaleOf num den ≤ unitsOf m := by
        exact_mod_cast add_step_le hden hgt hm
      exact (abs_sub_le_of_step hup hdown (.inl hfar)).imp_right (heven ∘ ·)
  refine ⟨hnegative, hle, fun m hm => ?_, fun m hm hne => (hcompare m hm hne).2⟩
  by_cases hne : m = x.magnitude
  · rw [hne]
  · exact (hcompare m hm hne).1

theorem isRounded_ofRatio (negative : Bool) (num : Nat) (hden : 0 < den) :
    IsRounded negative (num / den) (ofRatio negative num den) := by
  have hq : (num : ℚ) / den * unitsPerOne = (num * unitsPerOne : Nat) / den := by
    rw [Nat.cast_mul, div_mul_eq_mul_div]
  unfold ofRatio
  dsimp only
  split
  · next hlt => exact isRounded_of_magnitude hden rfl rfl hlt.le hq
  · next hge =>
    rcases le_total (unitsOf infinityMagnitude : ℚ) ((num * unitsPerOne : Nat) / den) with h | h
    · exact isRounded_infinity negative (hq.symm ▸ h)
    · have hle := nearestMagnitude_le_of_le hden (by decide) h
      exact isRounded_of_magnitude hden rfl (Nat.le_antisymm (Nat.not_lt.mp hge) hle)
        (Nat.le_refl _) hq

end

end Binary64
end MarkupEval
