/-! # ASCII letters

Tag and attribute names compare without regard to the case of ASCII letters; all other characters
stand for themselves. -/

namespace MarkupEval
namespace Text

def isAsciiUpper (c : Char) : Bool := 'A' ≤ c && c ≤ 'Z'

def isAsciiLower (c : Char) : Bool := 'a' ≤ c && c ≤ 'z'

def isAsciiLetter (c : Char) : Bool := isAsciiUpper c || isAsciiLower c

def isDigit (c : Char) : Bool := '0' ≤ c && c ≤ '9'

def isAsciiAlphanumeric (c : Char) : Bool := isAsciiLetter c || isDigit c

/-- The lower-case form of an ASCII letter; every other character as it is. -/
def lowerChar (c : Char) : Char :=
  if isAsciiUpper c then Char.ofNat (c.toNat + 32) else c

def lower (s : String) : String := s.map lowerChar

/-- Whether a text starts with a word, the case of ASCII letters ignored. -/
def startsWithIgnoringCase : List Char → List Char → Bool
  | [], _ => true
  | _ :: _, [] => false
  | w :: ws, c :: cs => lowerChar w == lowerChar c && startsWithIgnoringCase ws cs

/-- The value of a decimal digit. -/
def digitValue (c : Char) : Nat := c.toNat - '0'.toNat

/-- The value of a hexadecimal digit in either case. -/
def hexValue? (c : Char) : Option Nat :=
  if isDigit c then some (digitValue c)
  else if 'a' ≤ c && c ≤ 'f' then some (c.toNat - 'a'.toNat + 10)
  else if 'A' ≤ c && c ≤ 'F' then some (c.toNat - 'A'.toNat + 10)
  else none

/-- The digits of a run of decimal digits, read in base ten. -/
def decimalValue (ds : List Char) : Nat := ds.foldl (fun n c => n * 10 + digitValue c) 0

/-- A lower-case hexadecimal digit. -/
def hexDigit (n : Nat) : Char := if n < 10 then Char.ofNat (48 + n) else Char.ofNat (87 + n)

/-- A natural number in hexadecimal. -/
def hexDigits (n : Nat) : List Char :=
  if n < 16 then [hexDigit n] else hexDigits (n / 16) ++ [hexDigit (n % 16)]

theorem lowerChar_of_not_isAsciiUpper {c : Char} (h : isAsciiUpper c = false) :
    lowerChar c = c := by
  simp [lowerChar, h]

theorem isAsciiLower_lowerChar {c : Char} (h : isAsciiUpper c = true) :
    isAsciiLower (lowerChar c) = true := by
  have hrange : 65 ≤ c.toNat ∧ c.toNat ≤ 90 := by
    simpa [isAsciiUpper, Char.le_def, UInt32.le_iff_toNat_le] using h
  have hvalid : (c.toNat + 32).isValidChar := .inl (by omega)
  have hvalue : (lowerChar c).toNat = c.toNat + 32 := by
    rw [lowerChar, if_pos h, Char.ofNat, dif_pos hvalid]
    rfl
  have hlower : 97 ≤ (lowerChar c).toNat ∧ (lowerChar c).toNat ≤ 122 := by omega
  simpa [isAsciiLower, Char.le_def, UInt32.le_iff_toNat_le] using hlower

/-- A lower-case form that is no letter is that of the character itself. -/
theorem eq_of_lowerChar_eq {c d : Char} (h : lowerChar c = d) (hd : isAsciiLower d = false) :
    c = d := by
  cases hupper : isAsciiUpper c with
  | true =>
    have hlower := isAsciiLower_lowerChar hupper
    rw [h, hd] at hlower
    cases hlower
  | false => rwa [lowerChar_of_not_isAsciiUpper hupper] at h

theorem startsWithIgnoringCase_iff {ws cs : List Char} :
    startsWithIgnoringCase ws cs = true ↔ ws.map lowerChar <+: cs.map lowerChar := by
  induction ws generalizing cs with
  | nil => simp [startsWithIgnoringCase]
  | cons w ws ih =>
    cases cs with
    | nil => simp [startsWithIgnoringCase]
    | cons c cs => simp [startsWithIgnoringCase, ih, List.cons_prefix_cons]

theorem isDigit_of_mem_toDigits {c : Char} {n : Nat} (h : c ∈ Nat.toDigits 10 n) :
    isDigit c = true := by
  have := Nat.isDigit_of_mem_toDigits (by decide) (by decide) h
  simpa [Char.isDigit, isDigit, Char.le_def] using this

end Text
end MarkupEval
