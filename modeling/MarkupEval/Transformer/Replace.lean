import MarkupEval.Text.Substitution
import MarkupEval.Value.Basic

/-! # Replacing in a value

Substitutes in every string, text and markup text of a value. Keys, tags and attributes stay, and
so does every other scalar. -/

namespace MarkupEval

mutual

def Node.replace (pattern replacement : String) : Node → Node
  | .text s => .text (Text.substituteString pattern replacement s)
  | .element tag attrs children =>
    .element tag attrs (Node.replaceList pattern replacement children)

def Node.replaceList (pattern replacement : String) : List Node → List Node
  | [] => []
  | n :: ns => Node.replace pattern replacement n :: Node.replaceList pattern replacement ns

end

namespace Value

mutual

def replace (pattern replacement : String) : Value → Value
  | .string s => .string (Text.substituteString pattern replacement s)
  | .text s => .text (Text.substituteString pattern replacement s)
  | .element e => .element { e with children := Node.replaceList pattern replacement e.children }
  | .nodes ns => .nodes (Node.replaceList pattern replacement ns)
  | .array items => .array (replaceItems pattern replacement items)
  | .record entries => .record (replaceEntries pattern replacement entries)
  | v => v

def replaceItems (pattern replacement : String) : List Value → List Value
  | [] => []
  | v :: vs => replace pattern replacement v :: replaceItems pattern replacement vs

def replaceEntries (pattern replacement : String) : List (String × Value) → List (String × Value)
  | [] => []
  | (k, v) :: es =>
    (k, replace pattern replacement v) :: replaceEntries pattern replacement es

end

end Value
end MarkupEval
