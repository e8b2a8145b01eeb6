import MarkupEval.Number.Layout
import MarkupEval.Sorted

/-! # JSON values

An object keeps its members as a list in the order of the text, repeated names included. Reading
decides about shapes only; `sorted` is the form of an object as a map: ascending names, and of
members with one name the last. -/

namespace MarkupEval

inductive Json
  | null
  | bool (b : Bool)
  | integer (n : Int)
  /-- A number with a fraction or an exponent, or too large for an integer. -/
  | float (x : Binary64)
  | string (s : String)
  | list (items : List Json)
  | object (members : List (String × Json))

namespace Json

mutual

/-- Every object of the value as a map. -/
def sorted : Json → Json
  | .list items => .list (sortedItems items)
  | .object members => .object (Sorted.ofPairs (sortedMembers members))
  | j => j

def sortedItems : List Json → List Json
  | [] => []
  | j :: r => sorted j :: sortedItems r

def sortedMembers : List (String × Json) → List (String × Json)
  | [] => []
  | (k, j) :: r => (k, sorted j) :: sortedMembers r

end

/-- The number that a value is, if it is one. -/
def toBinary64? : Json → Option Binary64
  | .integer n => some (.ofInt n)
  | .float x => some x
  | _ => none

end Json
end MarkupEval
