import MarkupEval.Text.Ascii
import MarkupEval.Text.Hidden

/-! # Quoted text for messages

A text between double quotes, as diagnostics show it: quotes and backslashes are escaped, the usual
control characters have a letter, and all other hidden characters show their code point. -/

namespace MarkupEval
namespace Text

def quotedChar (c : Char) : List Char :=
  match c with
  | '"' => ['\\', '"']
  | '\\' => ['\\', '\\']
  | '\n' => ['\\', 'n']
  | '\r' => ['\\', 'r']
  | '\t' => ['\\', 't']
  | c =>
    if c.toNat = 0 then ['\\', '0']
    else if isHidden c then '\\' :: 'u' :: '\x7b' :: hexDigits c.toNat ++ ['\x7d']
    else [c]

def quoted (s : String) : String := String.ofList ('"' :: s.toList.flatMap quotedChar ++ ['"'])

end Text
end MarkupEval
