import MarkupEval.Number.Shortest

/-! # Written numbers

How a finite number is written from its shortest digits. A record of choices says which numbers are
written with all their places and how the others show their exponent. -/

namespace MarkupEval

/-- The choices of a number format. With `n` digits and the exponent `k` of the last one, `n + k` is
the place of the point, counted from the first digit. -/
structure NumberLayout where
  /-- Numbers whose point lies after the digits, at this place at most, are written out. -/
  wholeUpTo : Int
  /-- Numbers below one are written out when their point lies after this place. -/
  zerosDownTo : Int
  /-- What ends a number without a fraction. -/
  wholeEnd : String
  exponentMark : Char
deriving Repr

namespace NumberLayout

def digitChars (n : Nat) : List Char := Nat.toDigits 10 n

def intChars (n : Int) : List Char :=
  if n < 0 then '-' :: digitChars n.natAbs else digitChars n.natAbs

/-- A magnitude from its digits and the exponent of the last one. -/
def magnitudeChars (l : NumberLayout) (digits : Nat) (k : Int) : List Char :=
  let ds := digitChars digits
  let point := ds.length + k
  if 0 ≤ k ∧ point ≤ l.wholeUpTo then
    ds ++ List.replicate k.toNat '0' ++ l.wholeEnd.toList
  else if 0 < point ∧ point ≤ l.wholeUpTo then
    ds.take point.toNat ++ '.' :: ds.drop point.toNat
  else if l.zerosDownTo < point ∧ point ≤ 0 then
    '0' :: '.' :: List.replicate (-point).toNat '0' ++ ds
  else
    match ds with
    | [] => []
    | d :: fraction =>
      d :: (if fraction.isEmpty then [] else '.' :: fraction) ++
        l.exponentMark :: intChars (point - 1)

/-- A finite number with its sign; negative zero keeps it. -/
def write (l : NumberLayout) (x : Binary64) : List Char :=
  let body :=
    if x.isZero then '0' :: l.wholeEnd.toList
    else l.magnitudeChars x.shortest.1 x.shortest.2
  if x.negative then '-' :: body else body

/-- The layout of floating point numbers in JSON: up to 16 places are written out, below one down
to four zeros after the point, and a whole number ends in `.0`. -/
def json : NumberLayout := ⟨16, -5, ".0", 'e'⟩

end NumberLayout

namespace Binary64

/-- The largest whole number up to which every whole number is a binary number of its own. -/
def maxSafeInteger : Nat := 9007199254740991

/-- The integer that a number is written as: it has no fraction and is of safe size. -/
def safeInteger? (x : Binary64) : Option Int := do
  let n ← x.toInt?
  if n.natAbs ≤ maxSafeInteger then some n else none

/-- The text of a finite number: safe integers as such, all others by the JSON layout. -/
def finiteText (x : Binary64) : List Char :=
  match x.safeInteger? with
  | some n => NumberLayout.intChars n
  | none => NumberLayout.json.write x

/-- The text of any number; those that are not finite have names. -/
def text (x : Binary64) : String :=
  if x.isNaN then "NaN"
  else if x.isInfinite then (if x.negative then "-Infinity" else "Infinity")
  else String.ofList x.finiteText

end Binary64
end MarkupEval
