import MarkupEval.Text.Index
import MarkupEval.Text.Segments

/-! # Keys and paths

A child is known to its parent by a position or by a name, and a node by the keys on the way from
the root. A path text is cut at slashes; a segment of digits is a position first and a name if
there is no such position. -/

namespace MarkupEval

inductive Key
  /-- The index among the children without a name. -/
  | position (i : Nat)
  | name (s : String)
deriving DecidableEq, Repr

/-- The keys from the root down. -/
abbrev Path := List Key

namespace Key

def isName : Key → Bool
  | .name _ => true
  | .position _ => false

def name? : Key → Option String
  | .name s => some s
  | .position _ => none

def text : Key → String
  | .position i => toString i
  | .name s => s

end Key

namespace Path

/-- A slash before each key; the root is a slash alone. -/
def text (p : Path) : String :=
  match p with
  | [] => "/"
  | p => String.join (p.map fun k => "/" ++ k.text)

/-- The segments of a path text. Leading, trailing and doubled slashes do not count. -/
def segments (text : String) : List String :=
  (Text.segmentStrings '/' text).filter fun s => !s.isEmpty

/-- The keys that a segment may stand for, the first one that there is counts. -/
def candidates (segment : String) : List Key :=
  match Text.readIndex? segment.toList with
  | some i => [.position i, .name segment]
  | none => [.name segment]

end Path
end MarkupEval
