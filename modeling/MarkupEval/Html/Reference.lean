import MarkupEval.Html.NamedReference
import MarkupEval.Text.Ascii

/-! # Character references

An ampersand may start a reference to a character by its number or by its name. `read?` reads what
follows the ampersand; `decode` replaces all references of a text in one pass, so that what a
reference stands for is never read again. -/

namespace MarkupEval
namespace Html
namespace Reference

/-- The character that stands for everything that cannot be written. -/
def replacement : Char := '\uFFFD'

/-! ## By number -/

/-- What the numbers 128 to 159 stand for, all of them control characters otherwise: the printable
characters that an old eight-bit set has there. Zero marks a number that has none. -/
def oldSet : List Nat :=
  [0x20AC, 0, 0x201A, 0x0192, 0x201E, 0x2026, 0x2020, 0x2021, 0x02C6, 0x2030, 0x0160, 0x2039,
   0x0152, 0, 0x017D, 0, 0, 0x2018, 0x2019, 0x201C, 0x201D, 0x2022, 0x2013, 0x2014, 0x02DC, 0x2122,
   0x0161, 0x203A, 0x0153, 0, 0x017E, 0x0178]

/-- The number that is meant by a number. -/
def renumber (n : Nat) : Nat :=
  if n < 0x80 then n
  else
    match oldSet[n - 0x80]? with
    | some 0 => n
    | some m => m
    | none => n

/-- The character with a number. Zero, the surrogates and what lies past the last code point have
none. -/
def ofNumber (n : Nat) : Char :=
  if n = 0 then replacement
  else if (renumber n).isValidChar then Char.ofNat (renumber n)
  else replacement

/-- The number that a run of digits stands for. -/
def number (base : Nat) (digits : List Char) : Nat :=
  digits.foldl (fun n c => n * base + (Text.hexValue? c).getD 0) 0

/-- Reads digits and a semicolon that may be missing; `skipped` characters come before them. -/
def readDigits? (base skipped : Nat) (isDigit : Char → Bool) (cs : List Char) :
    Option (List Char × Nat) :=
  match cs.takeWhile isDigit with
  | [] => none
  | digits =>
    let length := skipped + digits.length
    some ([ofNumber (number base digits)],
      if (cs.drop digits.length).head? = some ';' then length + 1 else length)

def readNumber? : List Char → Option (List Char × Nat)
  | 'x' :: cs => readDigits? 16 2 (fun c => (Text.hexValue? c).isSome) cs
  | 'X' :: cs => readDigits? 16 2 (fun c => (Text.hexValue? c).isSome) cs
  | cs => readDigits? 10 1 Text.isDigit cs

/-! ## By name -/

/-- The longest name at the start of a word that needs no semicolon. The word is tried with so many
characters first. -/
def longestOpenName? (word : List Char) : Nat → Option (List Char)
  | 0 => none
  | n + 1 =>
    let name := word.take (n + 1)
    if NamedReference.openNames.contains (String.ofList name) then some name
    else longestOpenName? word n

/-- Whether a character after a name without a semicolon shows that no reference was meant. -/
def deniesName (c : Char) : Bool := c == '=' || Text.isAsciiAlphanumeric c

def readName? (inAttribute : Bool) (cs : List Char) : Option (List Char × Nat) :=
  let word := cs.takeWhile Text.isAsciiAlphanumeric
  match (cs.drop word.length).head?, NamedReference.text? word with
  | some ';', some s => some (s.toList, word.length + 1)
  | _, _ =>
    match longestOpenName? word word.length with
    | none => none
    | some name =>
      if inAttribute && (cs.drop name.length).head?.any deniesName then none
      else (NamedReference.text? name).map fun s => (s.toList, name.length)

/-! ## References in a text -/

/-- Reads a reference after its ampersand: what it stands for and how many characters it takes. -/
def read? (inAttribute : Bool) : List Char → Option (List Char × Nat)
  | '#' :: cs => readNumber? cs
  | cs => readName? inAttribute cs

/-- Decodes what is left of a text, of which the first `skip` characters belong to a reference that
is already decoded. -/
def decodeFrom (inAttribute : Bool) : Nat → List Char → List Char
  | _, [] => []
  | skip + 1, _ :: cs => decodeFrom inAttribute skip cs
  | 0, c :: cs =>
    if c = '&' then
      match read? inAttribute cs with
      | some (out, n) => out ++ decodeFrom inAttribute n cs
      | none => c :: decodeFrom inAttribute 0 cs
    else c :: decodeFrom inAttribute 0 cs

def decode (inAttribute : Bool) (cs : List Char) : List Char := decodeFrom inAttribute 0 cs

end Reference
end Html
end MarkupEval
