import MarkupEval.Json.Basic
import MarkupEval.Text.Ascii

/-! # Writing JSON

The compact text of a value: no blanks, members in their given order. In strings only the quote,
the backslash and the control characters below the space are escaped. -/

namespace MarkupEval
namespace Json

/-- The text of a character inside a string. -/
def escapeChar (c : Char) : List Char :=
  if c = '"' then ['\\', '"']
  else if c = '\\' then ['\\', '\\']
  else if c.toNat < 0x20 then
    if c = '\x08' then ['\\', 'b']
    else if c = '\t' then ['\\', 't']
    else if c = '\n' then ['\\', 'n']
    else if c = '\x0c' then ['\\', 'f']
    else if c = '\r' then ['\\', 'r']
    else ['\\', 'u', '0', '0', Text.hexDigit (c.toNat / 16), Text.hexDigit (c.toNat % 16)]
  else [c]

def quote (s : String) : List Char := '"' :: s.toList.flatMap escapeChar ++ ['"']

/-- JSON has no text for a number that is not finite; it is written as null. -/
def floatChars (x : Binary64) : List Char :=
  if x.isFinite then NumberLayout.json.write x else "null".toList

mutual

def chars : Json → List Char
  | .null => "null".toList
  | .bool true => "true".toList
  | .bool false => "false".toList
  | .integer n => NumberLayout.intChars n
  | .float x => floatChars x
  | .string s => quote s
  | .list [] => ['[', ']']
  | .list (j :: r) => '[' :: chars j ++ tailChars r
  | .object [] => ['{', '}']
  | .object ((k, j) :: r) => '{' :: quote k ++ ':' :: chars j ++ memberTailChars r

/-- The items after the first, and the end of the list. -/
def tailChars : List Json → List Char
  | [] => [']']
  | j :: r => ',' :: chars j ++ tailChars r

/-- The members after the first, and the end of the object. -/
def memberTailChars : List (String × Json) → List Char
  | [] => ['}']
  | (k, j) :: r => ',' :: quote k ++ ':' :: chars j ++ memberTailChars r

end

def text (j : Json) : String := String.ofList j.chars

end Json
end MarkupEval
