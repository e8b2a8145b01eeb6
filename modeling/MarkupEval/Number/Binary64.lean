/-! # Binary floating point numbers of 64 bits

A number is a sign and a magnitude below `2 ^ 63`, the bit pattern without the sign bit. The finite
magnitudes are in the order of the reals that they stand for; above them come infinity and the
not-a-numbers. A finite magnitude stands for `significand * 2 ^ scale` units of `2 ^ (-1074)`, so
all arithmetic on finite numbers is arithmetic of natural numbers. -/

namespace MarkupEval

/-- The bit of the sign in a bit pattern, `2 ^ 63`. -/
def Binary64.signUnit : Nat := 0x8000000000000000

structure Binary64 where
  negative : Bool
  magnitude : Nat
  magnitude_lt : magnitude < Binary64.signUnit
deriving DecidableEq

namespace Binary64

/-- How many magnitudes share a scale, `2 ^ 52`, which is also the leading bit of the significand of
a normal number. -/
def binade : Nat := 0x10000000000000

/-- The magnitude of infinity: a full exponent field and an empty fraction. -/
def infinityMagnitude : Nat := 0x7FF * binade

/-- The number with a given bit pattern, of which the low 64 bits count. -/
def ofBits (bits : Nat) : Binary64 where
  negative := bits / signUnit % 2 == 1
  magnitude := bits % signUnit
  magnitude_lt := Nat.mod_lt _ (by decide)

def toBits (x : Binary64) : Nat := (if x.negative then signUnit else 0) + x.magnitude

def isNaN (x : Binary64) : Bool := infinityMagnitude < x.magnitude

def isInfinite (x : Binary64) : Bool := x.magnitude == infinityMagnitude

def isFinite (x : Binary64) : Bool := x.magnitude < infinityMagnitude

def isZero (x : Binary64) : Bool := x.magnitude == 0

def zero (negative : Bool) : Binary64 := ⟨negative, 0, by decide⟩

def infinity (negative : Bool) : Binary64 := ⟨negative, infinityMagnitude, by decide⟩

/-- A quiet not-a-number. -/
def nan : Binary64 := ⟨false, infinityMagnitude + binade / 2, by decide⟩

def neg (x : Binary64) : Binary64 := { x with negative := !x.negative }

/-- The whole significand, with the leading bit that a normal number leaves out. -/
def significand (x : Binary64) : Nat :=
  if x.magnitude < binade then x.magnitude else binade + x.magnitude % binade

/-- How often the significand is doubled; subnormal numbers share the least scale with the first
normal ones. -/
def scale (x : Binary64) : Nat := x.magnitude / binade - 1

/-- The units of `2 ^ (-1074)` in the magnitude of a finite number. -/
def units (x : Binary64) : Nat := x.significand <<< x.scale

/-- How many units make one. -/
def unitsPerOne : Nat := 1 <<< 1074

/-- Equality of numbers as data: the two zeros are equal, and so are all not-a-numbers. -/
def same (x y : Binary64) : Bool :=
  x == y || (x.isZero && y.isZero) || (x.isNaN && y.isNaN)

/-- Zero and not-a-number count as false. -/
def isTruthy (x : Binary64) : Bool := !x.isZero && !x.isNaN

@[simp] theorem same_refl (x : Binary64) : x.same x = true := by simp [same]

theorem toBits_lt (x : Binary64) : x.toBits < 2 * signUnit := by
  have := x.magnitude_lt
  unfold toBits
  split <;> omega

theorem ofBits_toBits (x : Binary64) : ofBits x.toBits = x := by
  obtain ⟨negative, magnitude, h⟩ := x
  have hdiv := Nat.div_eq_of_lt h
  have hmod := Nat.mod_eq_of_lt h
  have hpos : 0 < signUnit := by decide
  cases negative <;> simp [ofBits, toBits, hdiv, hmod, Nat.add_div_left _ hpos]

end Binary64
end MarkupEval
