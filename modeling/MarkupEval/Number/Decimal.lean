import MarkupEval.Number.Rounding
import MarkupEval.Text.Ascii

/-! # Decimal numerals

A numeral is an optional sign, then digits with at most one point among or around them, then
optionally `e` or `E`, a sign and digits. It is read as an exact `Decimal` and rounded once. -/

namespace MarkupEval

/-- The real number `± digits * 10 ^ exponent`. -/
structure Decimal where
  negative : Bool
  digits : Nat
  exponent : Int
deriving DecidableEq, Repr

namespace Decimal

open Text

/-- The number of decimal digits of a natural number; zero has one. -/
def digitCount (n : Nat) : Nat := (Nat.toDigits 10 n).length

/-- The digits of the integer part and of the fraction, at least one in all, and what follows. -/
def splitMantissa? (cs : List Char) : Option (List Char × List Char × List Char) :=
  let whole := cs.takeWhile isDigit
  match cs.dropWhile isDigit with
  | '.' :: r =>
    let fraction := r.takeWhile isDigit
    if whole.isEmpty && fraction.isEmpty then none
    else some (whole, fraction, r.dropWhile isDigit)
  | r => if whole.isEmpty then none else some (whole, [], r)

/-- Digits and nothing else, at least one. -/
def readExponentDigits? (cs : List Char) : Option Int :=
  if !cs.isEmpty && cs.all isDigit then some (decimalValue cs : Nat) else none

/-- What may follow the mantissa: nothing, or an exponent. -/
def readExponent? : List Char → Option Int
  | [] => some 0
  | c :: r =>
    if c = 'e' ∨ c = 'E' then
      match r with
      | '+' :: ds => readExponentDigits? ds
      | '-' :: ds => (readExponentDigits? ds).map (- ·)
      | ds => readExponentDigits? ds
    else none

/-- A numeral without its sign. -/
def readUnsigned? (negative : Bool) (cs : List Char) : Option Decimal := do
  let (whole, fraction, rest) ← splitMantissa? cs
  let exponent ← readExponent? rest
  return ⟨negative, decimalValue (whole ++ fraction), exponent - fraction.length⟩

def read? : List Char → Option Decimal
  | '+' :: r => readUnsigned? false r
  | '-' :: r => readUnsigned? true r
  | r => readUnsigned? false r

/-- The exact magnitude as a ratio of natural numbers. -/
def ratio (d : Decimal) : Nat × Nat :=
  if 0 ≤ d.exponent then (d.digits * Nat.pow 10 d.exponent.toNat, 1)
  else (d.digits, Nat.pow 10 (-d.exponent).toNat)

/-- The nearest binary number. A magnitude of `10 ^ 310` and more is infinite and one below
`10 ^ (-330)` is zero whatever its digits, so no power beyond those is ever computed. -/
def toBinary64 (d : Decimal) : Binary64 :=
  let size := d.exponent + digitCount d.digits
  if d.digits = 0 ∨ size < -330 then .zero d.negative
  else if 311 < size then .infinity d.negative
  else .ofRatio d.negative d.ratio.1 d.ratio.2

end Decimal
end MarkupEval
