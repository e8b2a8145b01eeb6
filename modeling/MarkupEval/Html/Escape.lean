import MarkupEval.Text.Ascii

/-! # Escaping

Characters that would end or open something where they stand are written as character references.
The content of a script cannot have references; there a backslash keeps an end tag from closing
the script. -/

namespace MarkupEval
namespace Html

/-- Where a text is written. -/
inductive EscapeMode
  | text
  | escapable
  | attribute
deriving DecidableEq

def escapeChar (m : EscapeMode) (c : Char) : List Char :=
  if c = '&' then "&amp;".toList
  else if c = '<' then "&lt;".toList
  else if c = '>' ∧ m ≠ .escapable then "&gt;".toList
  else if c = '"' ∧ m = .attribute then "&quot;".toList
  else [c]

def escape (m : EscapeMode) (cs : List Char) : List Char := cs.flatMap (escapeChar m)

/-- The start of an end tag that closes a script. -/
def scriptEnd : List Char := "</script".toList

/-- Breaks up the ends of scripts in what is left of a text, of which the first `skip` characters
belong to one that is already broken up. -/
def escapeScriptFrom : Nat → List Char → List Char
  | _, [] => []
  | skip + 1, _ :: r => escapeScriptFrom skip r
  | 0, c :: r =>
    if Text.startsWithIgnoringCase scriptEnd (c :: r) then
      "<\\/script".toList ++ escapeScriptFrom (scriptEnd.length - 1) r
    else c :: escapeScriptFrom 0 r

def escapeScript (cs : List Char) : List Char := escapeScriptFrom 0 cs

end Html
end MarkupEval
