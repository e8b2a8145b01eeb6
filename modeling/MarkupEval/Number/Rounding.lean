import MarkupEval.Number.Binary64

/-! # Rounding to the nearest number

A ratio of natural numbers is rounded to the nearest binary number, and to the one with the even
significand when two are equally near. What rounds up past the largest finite number is infinite,
and what is nearer to zero than to the least unit is zero. -/

namespace MarkupEval

/-- The natural number nearest to `n / d`, the even one of two that are equally near. -/
def roundHalfEven (n d : Nat) : Nat :=
  let q := n / d
  let r := n % d
  if 2 * r < d then q
  else if d < 2 * r then q + 1
  else if q % 2 = 0 then q else q + 1

namespace Binary64

/-- The magnitude nearest to `num / den` units, not yet cut off at infinity. The scale is chosen so
that the rounded significand has 53 bits, or fewer at the least scale; a significand that rounds up
to a power of two carries into the scale by the addition. -/
def nearestMagnitude (num den : Nat) : Nat :=
  let scale := Nat.log2 (num / den) - 52
  scale * binade + roundHalfEven num (den <<< scale)

/-- The number of a given sign nearest to the ratio `num / den`. -/
def ofRatio (negative : Bool) (num den : Nat) : Binary64 :=
  let m := nearestMagnitude (num * unitsPerOne) den
  if h : m < infinityMagnitude then ⟨negative, m, Nat.lt_trans h (by decide)⟩ else infinity negative

def ofNat (n : Nat) : Binary64 := ofRatio false n 1

/-- The number nearest to an integer. -/
def ofInt (n : Int) : Binary64 := ofRatio (n < 0) n.natAbs 1

/-- The product of two finite magnitudes, rounded once. -/
def timesMagnitude (x y : Binary64) : Binary64 :=
  ofRatio false (x.units * y.units) (unitsPerOne * unitsPerOne)

/-- The quotient of two finite magnitudes, rounded once; the divisor is not zero. -/
def dividedByMagnitude (x y : Binary64) : Binary64 := ofRatio false x.units y.units

/-- The correctly rounded power of ten. -/
def powerOfTen (k : Nat) : Binary64 := ofNat (Nat.pow 10 k)

/-- The whole number that a finite number is, if it has no fraction. -/
def toInt? (x : Binary64) : Option Int :=
  if x.isFinite && x.units % unitsPerOne == 0 then
    let n : Int := (x.units / unitsPerOne : Nat)
    some (if x.negative then -n else n)
  else none

end Binary64
end MarkupEval
