import MarkupEval.Text.Ascii

/-! # Indexes written as text

An index is a natural number below `2 ^ 64` in decimal digits, optionally after one `+`. Leading
zeros are allowed. -/

namespace MarkupEval
namespace Text

/-- The bound that an index stays below. -/
def indexBound : Nat := 0x10000000000000000

/-- An unsigned index: at least one digit, nothing else, and below the bound. -/
def readDigits? (ds : List Char) : Option Nat :=
  if !ds.isEmpty && ds.all isDigit && decimalValue ds < indexBound then some (decimalValue ds)
  else none

def readIndex? : List Char → Option Nat
  | '+' :: ds => readDigits? ds
  | ds => readDigits? ds

theorem decimalValue_toDigits (n : Nat) : decimalValue (Nat.toDigits 10 n) = n := by
  have hfold : decimalValue (Nat.toDigits 10 n) = Nat.ofDigitChars 10 (Nat.toDigits 10 n) 0 := by
    simp only [decimalValue, Nat.ofDigitChars, digitValue, Nat.mul_comm]
  rw [hfold, Nat.ofDigitChars_ten_toDigits]

/-- An index reads back from its digits. -/
theorem readIndex?_toDigits {n : Nat} (h : n < indexBound) :
    readIndex? (Nat.toDigits 10 n) = some n := by
  have hdigits : readDigits? (Nat.toDigits 10 n) = some n := by
    have hall : (Nat.toDigits 10 n).all isDigit = true :=
      List.all_eq_true.mpr fun _ => isDigit_of_mem_toDigits
    simp [readDigits?, hall, decimalValue_toDigits, h]
  unfold readIndex?
  split
  · next ds heq =>
    have hplus : isDigit '+' = true := isDigit_of_mem_toDigits (heq ▸ List.mem_cons_self ..)
    exact absurd hplus (by decide)
  · exact hdigits

end Text
end MarkupEval
