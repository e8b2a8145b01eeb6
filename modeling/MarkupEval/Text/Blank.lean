/-! # White space

The characters with the Unicode property White_Space, and trimming by it. -/

namespace MarkupEval
namespace Text

/-- Unicode White_Space. The zero-width characters and the byte order mark do not have it. -/
def isBlank (c : Char) : Bool :=
  let n := c.toNat
  (0x09 ≤ n && n ≤ 0x0D) || n == 0x20 || n == 0x85 || n == 0xA0 || n == 0x1680 ||
    (0x2000 ≤ n && n ≤ 0x200A) || n == 0x2028 || n == 0x2029 || n == 0x202F || n == 0x205F ||
    n == 0x3000

/-- Drops blanks at both ends. -/
def trim (cs : List Char) : List Char :=
  ((cs.dropWhile isBlank).reverse.dropWhile isBlank).reverse

def trimString (s : String) : String := String.ofList (trim s.toList)

/-- Blanks only; the empty text counts. -/
def isLayout (s : String) : Bool := s.toList.all isBlank

end Text
end MarkupEval
