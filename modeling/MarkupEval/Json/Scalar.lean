import MarkupEval.Json.Problem
import MarkupEval.Text.Ascii

/-! # Reading words, strings and numbers

Each reader takes what is left of the text and returns what it read and the rest. Numbers with a
fraction, an exponent or too many digits are read in a few rounded steps: the first 64 bits of
digits, then one multiplication or division by a power of ten. -/

namespace MarkupEval
namespace Json

open Text

def isBlankByte (c : Char) : Bool := c == ' ' || c == '\n' || c == '\t' || c == '\r'

def skipBlanks (cs : List Char) : List Char := cs.dropWhile isBlankByte

/-- The rest of a word whose first letters are read. -/
def readWord : List Char → List Char → Except Failure (List Char)
  | [], cs => .ok cs
  | _ :: _, [] => .error (.here .endInValue [])
  | w :: ws, c :: cs => if c = w then readWord ws cs else .error (.next .expectedIdent (c :: cs))

/-! ## Strings -/

/-- Four hexadecimal digits. -/
def hex4? (a b c d : Char) : Option Nat := do
  let a ← hexValue? a
  let b ← hexValue? b
  let c ← hexValue? c
  let d ← hexValue? d
  return a * 4096 + b * 256 + c * 16 + d

/-- The bytes of a text. -/
def utf8Length (cs : List Char) : Nat := cs.foldl (fun n c => n + c.utf8Size) 0

/-- The code unit of a `\u` escape. Four bytes are taken whatever they are. -/
def readHex (cs : List Char) : Except Failure (Nat × List Char) :=
  if utf8Length cs < 4 then .error (.here .endInString [])
  else
    match cs with
    | a :: b :: c :: d :: r =>
      match hex4? a b c d with
      | some n => .ok (n, r)
      | none => .error ⟨.invalidEscape, cs, 4, true⟩
    | _ => .error ⟨.invalidEscape, cs, 4, true⟩

def isLeading (n : Nat) : Bool := 0xD800 ≤ n && n ≤ 0xDBFF

def isTrailing (n : Nat) : Bool := 0xDC00 ≤ n && n ≤ 0xDFFF

/-- The character that a surrogate pair stands for. -/
def joinSurrogates (high low : Nat) : Char :=
  Char.ofNat (0x10000 + (high - 0xD800) * 0x400 + (low - 0xDC00))

/-- A character of the text that must come next in an escape for the second half of a pair. -/
def expectInPair (c : Char) : List Char → Except Failure (List Char)
  | [] => .error (.here .endInString [])
  | d :: r => if d = c then .ok r else .error (.next .endOfSurrogatePair (d :: r))

/-- A `\u` escape after its letter, with its second half if it is the first of a pair. -/
def readUnicodeEscape (cs : List Char) : Except Failure (Char × List Char) := do
  let (n, r) ← readHex cs
  if isTrailing n then throw (.here .loneSurrogate r)
  if isLeading n then
    let r ← expectInPair '\\' r
    let r ← expectInPair 'u' r
    let (m, r) ← readHex r
    if isTrailing m then return (joinSurrogates n m, r) else throw (.here .loneSurrogate r)
  else return (Char.ofNat n, r)

/-- An escape after its backslash. -/
def readEscape : Reader Char
  | [] => .error (.here .endInString [])
  | c :: r =>
    match c with
    | '"' => .ok ('"', r)
    | '\\' => .ok ('\\', r)
    | '/' => .ok ('/', r)
    | 'b' => .ok ('\x08', r)
    | 'f' => .ok ('\x0c', r)
    | 'n' => .ok ('\n', r)
    | 'r' => .ok ('\r', r)
    | 't' => .ok ('\t', r)
    | 'u' => readUnicodeEscape r
    | c => .error (.next .invalidEscape (c :: r))

/-- The characters of a string up to its closing quote; each step takes at least one. -/
def readChars : Nat → List Char → Except Failure (List Char × List Char)
  | _, [] => .error (.here .endInString [])
  | 0, cs => .error (.here .endInString cs)
  | fuel + 1, c :: r =>
    if c = '"' then .ok ([], r)
    else if c = '\\' then do
      let (x, r) ← readEscape r
      let (xs, r) ← readChars fuel r
      return (x :: xs, r)
    else if c.toNat < 0x20 then .error (.next .controlCharacter (c :: r))
    else do
      let (xs, r) ← readChars fuel r
      return (c :: xs, r)

/-- A string after its opening quote. -/
def readString (cs : List Char) : Except Failure (String × List Char) := do
  let (xs, r) ← readChars (cs.length + 1) cs
  return (String.ofList xs, r)

/-! ## Numbers -/

/-- The largest significand, of 64 bits: digits are dropped before it is passed. -/
def maxSignificand : Nat := 0xFFFFFFFFFFFFFFFF

/-- The digits so far, and whether one did not fit any more. -/
structure Significand where
  value : Nat
  full : Bool
  exponent : Int

namespace Significand

/-- A digit before the point. One that does not fit counts as a power of ten, and so do all later
ones. -/
def pushWhole (s : Significand) (c : Char) : Significand :=
  let v := s.value * 10 + digitValue c
  if s.full || maxSignificand < v then { s with full := true, exponent := s.exponent + 1 }
  else { s with value := v }

/-- A digit after the point. One that does not fit is dropped, and so are all later ones. -/
def pushFraction (s : Significand) (c : Char) : Significand :=
  let v := s.value * 10 + digitValue c
  if s.full || maxSignificand < v then { s with full := true }
  else { s with value := v, exponent := s.exponent - 1 }

end Significand

/-- A number times a power of ten: steps of `10 ^ 308` as long as the power is larger, then one
rounded operation. Three steps bring every significand to zero. -/
def scaleByTen : Nat → Binary64 → Int → Option Binary64
  | 0, x, _ => some x
  | fuel + 1, x, k =>
    if k.natAbs ≤ 308 then
      if 0 ≤ k then
        let y := x.timesMagnitude (.powerOfTen k.natAbs)
        if y.isInfinite then none else some y
      else some (x.dividedByMagnitude (.powerOfTen k.natAbs))
    else if x.isZero then some x
    else if 0 ≤ k then none
    else scaleByTen fuel (x.dividedByMagnitude (.powerOfTen 308)) (k + 308)

/-- The number of a significand and an exponent of ten; none if it is too large. -/
def approximate? (negative : Bool) (significand : Nat) (k : Int) : Option Binary64 :=
  (scaleByTen 5 (.ofNat significand) k).map fun x => { x with negative }

def finishFloat (negative : Bool) (s : Significand) : Reader Json := fun rest =>
  match approximate? negative s.value s.exponent with
  | some x => .ok (.float x, rest)
  | none => .error (.here .numberOutOfRange rest)

/-- The largest exponent that is taken as it is written. -/
def maxExponent : Nat := 0x7FFFFFFF

/-- The digits of an exponent, from the value of those before; none if they pass the largest
exponent, together with what follows the digit that does. -/
def readExponentDigits (value : Nat) : List Char → Option Nat × List Char
  | [] => (some value, [])
  | c :: r =>
    if isDigit c then
      let v := value * 10 + digitValue c
      if maxExponent < v then (none, r) else readExponentDigits v r
    else (some value, c :: r)

/-- The sign of an exponent and what follows it. -/
def readExponentSign : List Char → Bool × List Char
  | '+' :: r => (false, r)
  | '-' :: r => (true, r)
  | r => (false, r)

/-- The exponent after its mark. -/
def readExponent (negative : Bool) (s : Significand) : Reader Json := fun cs =>
  let (negativeExponent, r) := readExponentSign cs
  match r with
  | [] => .error (.here .endInValue [])
  | c :: r' =>
    if isDigit c then
      match readExponentDigits (digitValue c) r' with
      | (some e, rest) =>
        let e : Int := if negativeExponent then -(e : Nat) else (e : Nat)
        finishFloat negative { s with exponent := s.exponent + e } rest
      | (none, rest) =>
        if s.value != 0 && !negativeExponent then .error (.here .numberOutOfRange rest)
        else .ok (.float (.zero negative), rest.dropWhile isDigit)
    else .error (.next .invalidNumber (c :: r'))

/-- What may follow the digits of a floating point number. -/
def readFloatEnd (negative : Bool) (s : Significand) : Reader Json
  | c :: r =>
    if c = 'e' ∨ c = 'E' then readExponent negative s r else finishFloat negative s (c :: r)
  | [] => finishFloat negative s []

/-- The fraction after the point. -/
def readFraction (negative : Bool) (s : Significand) : Reader Json := fun cs =>
  let digits := cs.takeWhile isDigit
  let rest := cs.dropWhile isDigit
  if digits.isEmpty then
    match rest with
    | [] => .error (.here .endInValue [])
    | r => .error (.next .invalidNumber r)
  else readFloatEnd negative (digits.foldl .pushFraction { s with full := false }) rest

/-- The largest magnitude of a negative integer of 64 bits. -/
def maxNegative : Nat := 0x8000000000000000

/-- The value of digits without fraction and exponent: an integer of 64 bits if it is one. The
negative zero is a floating point number. -/
def wholeNumber (negative : Bool) (n : Nat) : Json :=
  if negative then
    if n = 0 ∨ maxNegative < n then .float (.ofRatio true n 1) else .integer (-(n : Int))
  else .integer n

/-- A number after its sign. -/
def readNumber (negative : Bool) : Reader Json
  | [] => .error (.here .endInValue [])
  | c :: r =>
    if !isDigit c then .error (.next .invalidNumber (c :: r))
    else
      let digits := if c = '0' then [] else r.takeWhile isDigit
      let rest := if c = '0' then r else r.dropWhile isDigit
      let s := digits.foldl .pushWhole ⟨digitValue c, false, 0⟩
      match rest with
      | '.' :: r' => readFraction negative s r'
      | d :: r' =>
        if c = '0' && isDigit d then .error (.next .invalidNumber (d :: r'))
        else if d = 'e' ∨ d = 'E' then readExponent negative s r'
        else if s.full then finishFloat negative s rest
        else .ok (wholeNumber negative s.value, rest)
      | [] =>
        if s.full then finishFloat negative s rest else .ok (wholeNumber negative s.value, rest)

end Json
end MarkupEval
