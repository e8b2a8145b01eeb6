/-! # Literal substitution

Every occurrence of a pattern, found from left to right and without overlaps, gives way to a
replacement. What a replacement brings in is not searched again. -/

namespace MarkupEval
namespace Text

/-- Substitutes in what is left of a text, of which the first `skip` characters belong to an
occurrence that is already replaced. -/
def substituteFrom (pattern replacement : List Char) : Nat → List Char → List Char
  | _, [] => []
  | skip + 1, _ :: r => substituteFrom pattern replacement skip r
  | 0, c :: r =>
    if pattern.isPrefixOf (c :: r) then
      replacement ++ substituteFrom pattern replacement (pattern.length - 1) r
    else c :: substituteFrom pattern replacement 0 r

/-- Replaces the occurrences of a pattern that has at least one character. -/
def substitute (pattern replacement text : List Char) : List Char :=
  substituteFrom pattern replacement 0 text

def substituteString (pattern replacement text : String) : String :=
  String.ofList (substitute pattern.toList replacement.toList text.toList)

end Text
end MarkupEval
