import MarkupEval.Number.Decimal

/-! # The fewest digits that read back

The reals that round to a finite number form an interval around it; its ends belong to it when the
significand is even. On each decimal grid, from the coarsest on, the two grid points next to the
number are tested. The first grid with a point in the interval gives the digits; of two points the
nearer wins, and of two equally near ones the even. -/

namespace MarkupEval
namespace Binary64

/-- The interval that rounds to `x`, and `x` itself, in quarters of a unit. -/
structure Neighbourhood where
  low : Nat
  centre : Nat
  high : Nat
  closed : Bool

/-- Below a power of two the numbers lie twice as dense, except at the least scale. -/
def neighbourhood (x : Binary64) : Neighbourhood :=
  let m := x.significand
  let step := 1 <<< x.scale
  { low := (if m = binade ∧ x.scale ≠ 0 then 4 * m - 1 else 4 * m - 2) * step
    centre := 4 * m * step
    high := (4 * m + 2) * step
    closed := m % 2 == 0 }

/-- The quarters of a unit that make one. -/
def quartersPerOne : Nat := 4 * unitsPerOne

def Neighbourhood.contains (i : Neighbourhood) (factor point : Nat) : Bool :=
  if i.closed then i.low * factor ≤ point && point ≤ i.high * factor
  else i.low * factor < point && point < i.high * factor

/-- The grid point that stands for `x` on the grid of multiples of `10 ^ k`, if one does. -/
def gridPoint? (x : Binary64) (k : Int) : Option Nat :=
  let i := x.neighbourhood
  let factor := Nat.pow 10 (-k).toNat
  let unit := quartersPerOne * Nat.pow 10 k.toNat
  let c := i.centre * factor / unit
  let below := i.centre * factor % unit
  match i.contains factor (c * unit), i.contains factor ((c + 1) * unit) with
  | false, false => none
  | true, false => some c
  | false, true => some (c + 1)
  | true, true =>
    some (if 2 * below < unit ∨ (2 * below = unit ∧ c % 2 = 0) then c else c + 1)

/-- The `k` with `10 ^ (k - 1) ≤ x < 10 ^ k`, for a finite number that is not zero. -/
def leadingPlace (x : Binary64) : Int :=
  (Decimal.digitCount (x.units * Nat.pow 10 330 / unitsPerOne) : Nat) - 330

/-- Moves trailing zeros of the digits into the exponent. -/
def dropTrailingZeros : Nat → Nat → Int → Nat × Int
  | 0, digits, exponent => (digits, exponent)
  | fuel + 1, digits, exponent =>
    if digits % 10 = 0 then dropTrailingZeros fuel (digits / 10) (exponent + 1)
    else (digits, exponent)

/-- Tests the grids with `count` digits and more, at most `fuel` of them. -/
def searchGrids (x : Binary64) (place : Int) : Nat → Nat → Nat × Int
  | 0, count => (x.units * Nat.pow 10 (count - place).toNat / unitsPerOne, place - count)
  | fuel + 1, count =>
    match x.gridPoint? (place - count) with
    | some c => dropTrailingZeros 20 c (place - count)
    | none => searchGrids x place fuel (count + 1)

/-- The digits, without trailing zeros, and the exponent of ten of a finite number that is not
zero. Seventeen digits always suffice. -/
def shortest (x : Binary64) : Nat × Int := searchGrids x x.leadingPlace 17 1

end Binary64
end MarkupEval
