import MarkupEval.Proofs.Json.WrittenFloats

/-!
# Whole numbers read back as floating point numbers

A floating point number is read in two steps: all digits, those after the point too, give a whole
number, which is then divided by a power of ten. Both steps round. They are exact for a whole number
that is written with a zero after its point, as long as the digits without the point have 53 bits
(`readNumber_whole`).
-/

namespace MarkupEval
namespace Json

open Text NumberLayout Binary64

/-- The largest whole number to which a decimal place can be added within the integers that are
exact: a tenth of them. -/
def maxTenth : Nat := 900719925474099

theorem mul_ten_lt {k : Nat} (h : k ≤ maxTenth) : k * 10 < 2 * binade := by
  have hmax : maxTenth * 10 < 2 * binade := by decide
  exact (Nat.mul_le_mul_right 10 h).trans_lt hmax

/-- A whole number of which the point is followed by a zero. -/
theorem approximate?_tenths (negative : Bool) {k : Nat} (h : k ≤ maxTenth) :
    approximate? negative (k * 10) (-1) = some { Binary64.ofNat k with negative } := by
  have hten : powerOfTen 1 = Binary64.ofNat 10 := rfl
  have hquotient : (Binary64.ofNat (k * 10)).dividedByMagnitude (Binary64.ofNat 10) =
      Binary64.ofNat k :=
    dividedByMagnitude_ofNat (by decide) (mul_ten_lt h) (by decide)
  change (some ((Binary64.ofNat (k * 10)).dividedByMagnitude (powerOfTen 1))).map _ = _
  rw [hten, hquotient]
  rfl

theorem readNumber_whole (negative : Bool) {k : Nat} (h : k ≤ maxTenth) {rest : List Char}
    (hrest : Delimited rest) :
    readNumber negative (digitChars k ++ ['.', '0'] ++ rest) =
      .ok (.float { Binary64.ofNat k with negative }, rest) := by
  have hfits : k * 10 ≤ maxSignificand := (mul_ten_lt h).le.trans (by decide)
  rw [readNumber_tenths negative hfits hrest]
  simp only [finishFloat, approximate?_tenths negative h]

end Json

end MarkupEval
