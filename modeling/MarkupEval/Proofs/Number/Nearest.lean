import Mathlib.Tactic.Linarith
import Mathlib.Tactic.Ring
import MarkupEval.Proofs.Number.Integers
import MarkupEval.Number.Shortest

/-!
# Rounding to the nearest magnitude

Rounding goes up with what is rounded (`nearestMagnitude_le`), and what it gives is off by half a
step at most (`exists_step`). The reals that round to a number are those of its interval
(`nearestMagnitude_eq_of_bounds`).
-/

namespace MarkupEval

/-! ## Natural numbers -/

/-- A natural number is nearest to a ratio, and even if another one is as near. -/
structure IsNearest (n d t : Nat) : Prop where
  upper : 2 * n ≤ (2 * t + 1) * d
  lower : 2 * t * d ≤ 2 * n + d
  even : 2 * n = (2 * t + 1) * d ∨ 2 * t * d = 2 * n + d → t % 2 = 0

theorem isNearest_roundHalfEven (n : Nat) {d : Nat} (hd : 0 < d) :
    IsNearest n d (roundHalfEven n d) := by
  have hdiv : d * (n / d) + n % d = n := Nat.div_add_mod n d
  have hmod : n % d < d := Nat.mod_lt n hd
  have hcomm : 2 * (n / d) * d = 2 * (d * (n / d)) := by rw [Nat.mul_assoc, Nat.mul_comm (n / d)]
  have hodd : (2 * (n / d) + 1) * d = 2 * (d * (n / d)) + d := by rw [Nat.add_mul, hcomm, Nat.one_mul]
  have hnext : 2 * (n / d + 1) * d = 2 * (d * (n / d)) + 2 * d := by
    rw [Nat.mul_add, Nat.add_mul, hcomm]
  have hnext' : (2 * (n / d + 1) + 1) * d = 2 * (d * (n / d)) + 2 * d + d := by
    rw [Nat.add_mul, hnext, Nat.one_mul]
  unfold roundHalfEven
  dsimp only
  split
  · constructor <;> omega
  split
  · constructor <;> omega
  split
  · constructor <;> omega
  · constructor <;> omega

/-- Of two ratios the larger one has the larger nearest number. -/
theorem IsNearest.le {n d t n' d' t' : Nat} (h : IsNearest n d t) (h' : IsNearest n' d' t')
    (hd : 0 < d) (hd' : 0 < d') (hle : n * d' ≤ n' * d) : t ≤ t' := by
  by_contra hlt
  obtain ⟨j, rfl⟩ : ∃ j, t = t' + 1 + j := Nat.exists_eq_add_of_le (Nat.not_le.mp hlt)
  have hpos : 0 < d * d' := Nat.mul_pos hd hd'
  have hlower := Nat.mul_le_mul_right d' h.lower
  have hupper := Nat.mul_le_mul_right d h'.upper
  have hj : j = 0 := by
    by_contra hj
    have : 1 * (d * d') ≤ j * (d * d') := Nat.mul_le_mul_right _ (Nat.pos_of_ne_zero hj)
    linarith
  subst hj
  -- The ratios are the same and lie in the middle between both numbers, which cannot both be even.
  have htie : 2 * (t' + 1) * d = 2 * n + d := by
    refine Nat.le_antisymm h.lower (Nat.le_of_mul_le_mul_right ?_ hd')
    linarith
  have htie' : 2 * n' = (2 * t' + 1) * d' := by
    refine Nat.le_antisymm h'.upper (Nat.le_of_mul_le_mul_right ?_ hd)
    linarith
  have heven := h.even (.inr htie)
  have heven' := h'.even (.inl htie')
  omega

theorem IsNearest.eq_roundHalfEven {n d t : Nat} (h : IsNearest n d t) (hd : 0 < d) :
    roundHalfEven n d = t :=
  Nat.le_antisymm ((isNearest_roundHalfEven n hd).le h hd hd (Nat.le_refl _))
    (h.le (isNearest_roundHalfEven n hd) hd hd (Nat.le_refl _))

namespace Binary64

/-! ## Magnitudes and their units -/

/-- The units in any magnitude, as if there were no infinity. -/
def unitsOf (m : Nat) : Nat :=
  (if m < binade then m else binade + m % binade) <<< (m / binade - 1)

theorem units_eq (x : Binary64) : x.units = unitsOf x.magnitude := rfl

theorem binade_pos : 0 < binade := by decide

/-- A scale and a significand with its leading bit put together; a significand may carry. -/
theorem unitsOf_add {s r : Nat} (hhigh : r ≤ 2 * binade) (hlow : binade ≤ r ∨ s = 0) :
    unitsOf (s * binade + r) = r * 2 ^ s := by
  have hpos := binade_pos
  have hshape (f e : Nat) (hf : f < binade) :
      unitsOf (f + (e + 1) * binade) = (binade + f) * 2 ^ e := by
    have hnormal : ¬f + (e + 1) * binade < binade := by
      rw [Nat.add_mul]
      omega
    rw [unitsOf, if_neg hnormal, Nat.add_mul_mod_self_right, Nat.mod_eq_of_lt hf,
      Nat.add_mul_div_right _ _ hpos, Nat.div_eq_of_lt hf, Nat.zero_add, Nat.add_sub_cancel,
      Nat.shiftLeft_eq]
  rcases Nat.lt_or_ge r binade with hr | hr
  · obtain rfl : s = 0 := hlow.resolve_left (Nat.not_le.mpr hr)
    rw [Nat.zero_mul, Nat.zero_add, unitsOf, if_pos hr, Nat.div_eq_of_lt hr, Nat.zero_sub,
      Nat.shiftLeft_zero, Nat.pow_zero, Nat.mul_one]
  obtain ⟨f, rfl⟩ := Nat.exists_eq_add_of_le hr
  rcases Nat.lt_or_ge f binade with hf | hf
  · have hsum : s * binade + (binade + f) = f + (s + 1) * binade := by
      rw [Nat.add_mul]
      omega
    rw [hsum, hshape f s hf]
  · obtain rfl : f = binade := by omega
    have hsum : s * binade + (binade + binade) = 0 + (s + 1 + 1) * binade := by
      rw [Nat.add_mul, Nat.add_mul]
      omega
    rw [hsum, hshape 0 (s + 1) hpos, Nat.add_zero, ← Nat.two_mul, Nat.pow_succ',
      Nat.mul_comm 2 binade, Nat.mul_assoc]

theorem nearestMagnitude_unitsOf {m : Nat} (h : m < signUnit) :
    nearestMagnitude (unitsOf m) 1 = m :=
  nearestMagnitude_units ⟨false, m, h⟩

/-! ## Rounding -/

/-- The scale at which a ratio is rounded. -/
def scaleOf (num den : Nat) : Nat := Nat.log2 (num / den) - 52

theorem nearestMagnitude_eq (num den : Nat) : nearestMagnitude num den =
    scaleOf num den * binade + roundHalfEven num (den * 2 ^ scaleOf num den) := by
  rw [nearestMagnitude, scaleOf, Nat.shiftLeft_eq]

section
variable {num den s : Nat}

theorem lt_of_scaleOf (hden : 0 < den) : num < 2 * binade * (den * 2 ^ scaleOf num den) := by
  have hlog : num / den < 2 ^ (53 + scaleOf num den) := by
    by_cases hzero : num / den = 0
    · rw [hzero]
      exact Nat.two_pow_pos _
    · refine (Nat.log2_lt hzero).mp ?_
      unfold scaleOf
      omega
  have htwo : 2 ^ (53 + scaleOf num den) = 2 * binade * 2 ^ scaleOf num den := by
    rw [binade_eq, Nat.pow_add]
    rfl
  rw [htwo] at hlog
  calc num < 2 * binade * 2 ^ scaleOf num den * den := (Nat.div_lt_iff_lt_mul hden).mp hlog
    _ = 2 * binade * (den * 2 ^ scaleOf num den) := by ring

theorem le_of_scaleOf_ne_zero (hden : 0 < den) (h : scaleOf num den ≠ 0) :
    binade * (den * 2 ^ scaleOf num den) ≤ num := by
  have hzero : num / den ≠ 0 := by
    intro hzero
    rw [scaleOf, hzero, Nat.log2_zero] at h
    exact h rfl
  have hlog : 2 ^ (52 + scaleOf num den) ≤ num / den := by
    refine (Nat.le_log2 hzero).mp ?_
    unfold scaleOf at *
    omega
  rw [Nat.pow_add, ← binade_eq] at hlog
  calc binade * (den * 2 ^ scaleOf num den) = binade * 2 ^ scaleOf num den * den := by ring
    _ ≤ num := (Nat.le_div_iff_mul_le hden).mp hlog

theorem scaleOf_eq (hden : 0 < den) (hhigh : num < 2 * binade * (den * 2 ^ s))
    (hlow : binade * (den * 2 ^ s) ≤ num ∨ s = 0) : scaleOf num den = s := by
  have hquotient : num / den < 2 ^ (53 + s) := by
    rw [Nat.div_lt_iff_lt_mul hden, Nat.pow_add]
    calc num < 2 * binade * (den * 2 ^ s) := hhigh
      _ = 2 ^ 53 * 2 ^ s * den := by
        rw [binade_eq]
        ring
  have hlt : (num / den).log2 < 53 + s := by
    by_cases hzero : num / den = 0
    · rw [hzero, Nat.log2_zero]
      omega
    · exact (Nat.log2_lt hzero).mpr hquotient
  rcases hlow with hlow | rfl
  · have hpow : 2 ^ (52 + s) ≤ num / den := by
      rw [Nat.le_div_iff_mul_le hden, Nat.pow_add, ← binade_eq]
      calc binade * 2 ^ s * den = binade * (den * 2 ^ s) := by ring
        _ ≤ num := hlow
    have hzero : num / den ≠ 0 := Nat.ne_of_gt ((Nat.two_pow_pos _).trans_le hpow)
    have hle := (Nat.le_log2 hzero).mpr hpow
    unfold scaleOf
    omega
  · unfold scaleOf
    omega

theorem roundHalfEven_le (hden : 0 < den) :
    roundHalfEven num (den * 2 ^ scaleOf num den) ≤ 2 * binade := by
  have hpos : 0 < den * 2 ^ scaleOf num den := Nat.mul_pos hden (Nat.two_pow_pos _)
  have hlt : num < 2 * binade * (den * 2 ^ scaleOf num den) := lt_of_scaleOf hden
  have hlower := (isNearest_roundHalfEven num hpos).lower
  by_contra hge
  have : (2 * binade + 1) * (den * 2 ^ scaleOf num den) ≤
      roundHalfEven num (den * 2 ^ scaleOf num den) * (den * 2 ^ scaleOf num den) :=
    Nat.mul_le_mul_right _ (by omega)
  linarith

theorem le_roundHalfEven (hden : 0 < den) :
    binade ≤ roundHalfEven num (den * 2 ^ scaleOf num den) ∨ scaleOf num den = 0 := by
  by_cases h : scaleOf num den = 0
  · exact .inr h
  have hpos : 0 < den * 2 ^ scaleOf num den := Nat.mul_pos hden (Nat.two_pow_pos _)
  have hle := le_of_scaleOf_ne_zero hden h
  have hupper := (isNearest_roundHalfEven num hpos).upper
  refine .inl ?_
  by_contra hlt
  have : (roundHalfEven num (den * 2 ^ scaleOf num den) + 1) * (den * 2 ^ scaleOf num den) ≤
      binade * (den * 2 ^ scaleOf num den) := Nat.mul_le_mul_right _ (by omega)
  linarith

theorem unitsOf_nearestMagnitude (hden : 0 < den) :
    unitsOf (nearestMagnitude num den) =
      roundHalfEven num (den * 2 ^ scaleOf num den) * 2 ^ scaleOf num den := by
  rw [nearestMagnitude_eq, unitsOf_add (roundHalfEven_le hden) (le_roundHalfEven hden)]

/-- What is rounded is off by half a step at most, and the step is small beside it unless it is the
least one. -/
theorem exists_step (num : Nat) {den : Nat} (hden : 0 < den) :
    ∃ step, 2 * (unitsOf (nearestMagnitude num den) * den) ≤ 2 * num + step * den ∧
      2 * num ≤ 2 * (unitsOf (nearestMagnitude num den) * den) + step * den ∧
      (binade * (step * den) ≤ num ∨ step = 1) := by
  have hpos : 0 < den * 2 ^ scaleOf num den := Nat.mul_pos hden (Nat.two_pow_pos _)
  obtain ⟨hupper, hlower, -⟩ := isNearest_roundHalfEven num hpos
  refine ⟨2 ^ scaleOf num den, ?_, ?_, ?_⟩
  · rw [unitsOf_nearestMagnitude hden]
    calc _ = 2 * roundHalfEven num (den * 2 ^ scaleOf num den) * (den * 2 ^ scaleOf num den) := by
          ring
      _ ≤ 2 * num + den * 2 ^ scaleOf num den := hlower
      _ = _ := by ring
  · rw [unitsOf_nearestMagnitude hden]
    calc 2 * num ≤ _ := hupper
      _ = _ := by ring
  · by_cases h : scaleOf num den = 0
    · exact .inr (by rw [h, Nat.pow_zero])
    · exact .inl (Nat.mul_comm den _ ▸ le_of_scaleOf_ne_zero hden h)

/-- Rounding goes up with what is rounded. -/
theorem nearestMagnitude_le {num' den' : Nat} (hden : 0 < den) (hden' : 0 < den')
    (h : num * den' ≤ num' * den) : nearestMagnitude num den ≤ nearestMagnitude num' den' := by
  have hquotient : num / den ≤ num' / den' := by
    rw [Nat.le_div_iff_mul_le hden']
    refine Nat.le_of_mul_le_mul_right ?_ hden
    calc num / den * den' * den = num / den * den * den' := Nat.mul_right_comm ..
      _ ≤ num * den' := Nat.mul_le_mul_right _ (Nat.div_mul_le_self ..)
      _ ≤ num' * den := h
  have hscale : scaleOf num den ≤ scaleOf num' den' := by
    have hlog : (num / den).log2 ≤ (num' / den').log2 := by
      by_cases hzero : num / den = 0
      · rw [hzero, Nat.log2_zero]
        exact Nat.zero_le _
      · refine (Nat.le_log2 (Nat.ne_of_gt ?_)).mpr ((Nat.log2_self_le hzero).trans hquotient)
        exact (Nat.pos_of_ne_zero hzero).trans_le hquotient
    unfold scaleOf
    omega
  rw [nearestMagnitude_eq, nearestMagnitude_eq]
  rcases Nat.eq_or_lt_of_le hscale with hscale | hscale
  · have hpow := Nat.two_pow_pos (scaleOf num den)
    have hround : roundHalfEven num (den * 2 ^ scaleOf num den) ≤
        roundHalfEven num' (den' * 2 ^ scaleOf num den) := by
      refine (isNearest_roundHalfEven num (Nat.mul_pos hden hpow)).le
        (isNearest_roundHalfEven num' (Nat.mul_pos hden' hpow)) (Nat.mul_pos hden hpow)
        (Nat.mul_pos hden' hpow) ?_
      rw [← Nat.mul_assoc, ← Nat.mul_assoc]
      exact Nat.mul_le_mul_right _ h
    rw [← hscale]
    exact Nat.add_le_add_left hround _
  · have hhigh : roundHalfEven num (den * 2 ^ scaleOf num den) ≤ 2 * binade :=
      roundHalfEven_le hden
    have hlow : binade ≤ roundHalfEven num' (den' * 2 ^ scaleOf num' den') :=
      (le_roundHalfEven hden').resolve_right (by omega)
    have hgap : (scaleOf num den + 1) * binade ≤ scaleOf num' den' * binade :=
      Nat.mul_le_mul_right _ hscale
    rw [Nat.add_mul] at hgap
    omega

end

/-! ## The interval of a number -/

section
variable {x : Binary64} {num den : Nat}

theorem magnitude_eq (x : Binary64) : x.magnitude = x.scale * binade + x.significand := by
  have hdiv := Nat.div_add_mod x.magnitude binade
  unfold scale significand
  split
  · next h => rw [Nat.div_eq_of_lt h, Nat.zero_sub, Nat.zero_mul, Nat.zero_add]
  · next h =>
    obtain ⟨e, he⟩ := Nat.exists_eq_succ_of_ne_zero
      (Nat.ne_of_gt (Nat.div_pos (Nat.not_lt.mp h) binade_pos))
    rw [he, Nat.mul_comm, Nat.succ_mul] at hdiv
    rw [he, Nat.succ_sub_one]
    omega

theorem binade_le_significand (h : x.scale ≠ 0) : binade ≤ x.significand := by
  unfold significand
  split
  · next hsmall => exact absurd (by rw [scale, Nat.div_eq_of_lt hsmall]) h
  · exact Nat.le_add_right ..

/-- What lies in the interval of a number, and strictly inside where the significand is odd. -/
structure Neighbourhood.Bounds (i : Neighbourhood) (num den : Nat) : Prop where
  low : i.low * den ≤ 4 * num
  high : 4 * num ≤ i.high * den
  strict : i.closed = false → i.low * den < 4 * num ∧ 4 * num < i.high * den

theorem Neighbourhood.bounds_iff {i : Neighbourhood} :
    i.contains den (4 * num) = true ↔ i.Bounds num den := by
  unfold contains
  split
  · next hclosed =>
    rw [Bool.and_eq_true, decide_eq_true_eq, decide_eq_true_eq]
    exact ⟨fun h => ⟨h.1, h.2, fun hopen => by simp [hclosed] at hopen⟩, fun h => ⟨h.low, h.high⟩⟩
  · next hclosed =>
    rw [Bool.and_eq_true, decide_eq_true_eq, decide_eq_true_eq]
    exact ⟨fun h => ⟨h.1.le, h.2.le, fun _ => h⟩, fun h => h.strict (Bool.not_eq_true _ ▸ hclosed)⟩

theorem neighbourhood_low (x : Binary64) : x.neighbourhood.low =
    (if x.significand = binade ∧ x.scale ≠ 0 then 4 * x.significand - 1
      else 4 * x.significand - 2) * 2 ^ x.scale := by
  rw [neighbourhood, Nat.one_shiftLeft]

theorem neighbourhood_high (x : Binary64) :
    x.neighbourhood.high = (4 * x.significand + 2) * 2 ^ x.scale := by
  rw [neighbourhood, Nat.one_shiftLeft]

theorem low_ge (x : Binary64) :
    (4 * x.significand - 2) * 2 ^ x.scale ≤ x.neighbourhood.low := by
  rw [neighbourhood_low]
  refine Nat.mul_le_mul_right _ ?_
  split <;> omega

/-- What lies in the interval of a number above its power of two has the number as its nearest
one. -/
theorem isNearest_of_bounds (hden : 0 < den) (h : x.neighbourhood.Bounds num den) :
    IsNearest num (den * 2 ^ x.scale) x.significand := by
  obtain ⟨hlow, hhigh, hstrict⟩ := h
  have hstep : 0 < den * 2 ^ x.scale := Nat.mul_pos hden (Nat.two_pow_pos _)
  have hlow' := (Nat.mul_le_mul_right den (low_ge x)).trans hlow
  have hbelow : (4 * x.significand - 2) * 2 ^ x.scale * den =
      (4 * x.significand - 2) * (den * 2 ^ x.scale) := by ring
  have habove : x.neighbourhood.high * den = (4 * x.significand + 2) * (den * 2 ^ x.scale) := by
    rw [neighbourhood_high]
    ring
  rw [hbelow] at hlow'
  rw [habove] at hhigh hstrict
  generalize den * 2 ^ x.scale = step at *
  have hsub : 4 * x.significand * step ≤ (4 * x.significand - 2) * step + 2 * step := by
    rw [← Nat.add_mul]
    exact Nat.mul_le_mul_right _ (by omega)
  constructor
  · linarith
  · linarith
  · intro htie
    by_contra hodd
    have hopen : x.neighbourhood.closed = false := beq_eq_false_iff_ne.mpr hodd
    obtain ⟨hlt, hgt⟩ := hstrict hopen
    have hlt' := (Nat.mul_le_mul_right den (low_ge x)).trans_lt hlt
    rw [hbelow] at hlt'
    rcases htie with htie | htie
    · linarith
    · linarith

/-- The ratios in the interval of a number are rounded to it. -/
theorem nearestMagnitude_eq_of_bounds (hden : 0 < den) (h : x.neighbourhood.Bounds num den) :
    nearestMagnitude num den = x.magnitude := by
  have hstep : 0 < den * 2 ^ x.scale := Nat.mul_pos hden (Nat.two_pow_pos _)
  have hlt := x.significand_lt
  have hhigh := h.high
  rw [neighbourhood_high] at hhigh
  by_cases hlow : binade * (den * 2 ^ x.scale) ≤ num ∨ x.scale = 0
  · have hscale : scaleOf num den = x.scale := by
      refine scaleOf_eq hden ?_ hlow
      have : (4 * x.significand + 2) * 2 ^ x.scale * den ≤
          (8 * binade - 2) * 2 ^ x.scale * den :=
        Nat.mul_le_mul_right _ (Nat.mul_le_mul_right _ (by omega))
      have hbound : (8 * binade - 2) * 2 ^ x.scale * den < 4 * (2 * binade * (den * 2 ^ x.scale)) :=
        calc (8 * binade - 2) * 2 ^ x.scale * den = (8 * binade - 2) * (den * 2 ^ x.scale) := by ring
          _ < 8 * binade * (den * 2 ^ x.scale) :=
            (Nat.mul_lt_mul_right hstep).mpr (by decide)
          _ = _ := by ring
      omega
    rw [nearestMagnitude_eq, hscale,
      (isNearest_of_bounds hden h).eq_roundHalfEven hstep, ← magnitude_eq]
  -- Below a power of two the numbers lie twice as dense.
  · obtain ⟨hsmall, hscale⟩ := not_or.mp hlow
    obtain ⟨e, he⟩ := Nat.exists_eq_add_one_of_ne_zero hscale
    have hge := binade_le_significand hscale
    have hlow := h.low
    have hbinade : x.significand = binade := by
      by_contra hne
      have := (Nat.mul_le_mul_right den (low_ge x)).trans hlow
      have : (4 * binade + 2) * (den * 2 ^ x.scale) ≤
          (4 * x.significand - 2) * (den * 2 ^ x.scale) := Nat.mul_le_mul_right _ (by omega)
      linarith
    rw [neighbourhood_low, if_pos ⟨hbinade, hscale⟩, hbinade] at hlow
    have hhalf : den * 2 ^ x.scale = 2 * (den * 2 ^ e) := by
      rw [he, Nat.pow_succ']
      ring
    have hlow' : (8 * binade - 2) * (den * 2 ^ e) ≤ 4 * num := by
      have hdouble : 8 * binade - 2 = (4 * binade - 1) * 2 := rfl
      calc (8 * binade - 2) * (den * 2 ^ e) = (4 * binade - 1) * (2 * (den * 2 ^ e)) := by
            rw [hdouble, Nat.mul_assoc]
        _ = (4 * binade - 1) * 2 ^ x.scale * den := by
          rw [← hhalf]
          ring
        _ ≤ 4 * num := hlow
    rw [hhalf] at hsmall
    have hpos : 0 < den * 2 ^ e := Nat.mul_pos hden (Nat.two_pow_pos _)
    have hdense : (8 * binade - 2) * (den * 2 ^ e) + 2 * (den * 2 ^ e) =
        8 * binade * (den * 2 ^ e) := by
      rw [← Nat.add_mul]
      rfl
    have hone : 1 * (den * 2 ^ e) ≤ binade * (den * 2 ^ e) := Nat.mul_le_mul_right _ (by decide)
    have hscale' : scaleOf num den = e := by
      refine scaleOf_eq hden ?_ (.inl ?_)
      · linarith
      · linarith
    have hnearest : IsNearest num (den * 2 ^ e) (2 * binade) := by
      constructor
      · linarith
      · linarith
      · exact fun _ => by decide
    rw [nearestMagnitude_eq, hscale', hnearest.eq_roundHalfEven hpos, magnitude_eq, hbinade, he]
    ring

end

end Binary64
end MarkupEval
