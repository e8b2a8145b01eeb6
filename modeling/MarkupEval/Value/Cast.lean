import MarkupEval.Html.Writer
import MarkupEval.Json.Writer
import MarkupEval.Value.Basic

/-! # Casts

Every value has a best answer in every kind, so no cast fails. -/

namespace MarkupEval

/-- The JSON of a number: an integer where it is one of safe size, null where it is not finite. -/
def Binary64.toJson (x : Binary64) : Json :=
  match x.safeInteger? with
  | some n => .integer n
  | none => if x.isFinite then .float x else .null

namespace Value

/-- The tag of the element that content without one is put into. -/
def containerTag : String := "div"

/-- Null, false, zero, not-a-number and all empty texts, lists and records count as false. -/
def isTruthy : Value → Bool
  | .null => false
  | .boolean b => b
  | .number x => x.isTruthy
  | .string s => !s.isEmpty
  | .text s => !s.isEmpty
  | .element _ => true
  | .nodes ns => !ns.isEmpty
  | .array items => !items.isEmpty
  | .record entries => !entries.isEmpty
  | .transformer .. => true

/-- The number that a text spells between blanks, and zero if it is no decimal numeral. -/
def parseNumber (s : String) : Binary64 :=
  match Decimal.read? (Text.trim s.toList) with
  | some d => d.toBinary64
  | none => .zero false

def toNumber : Value → Binary64
  | .number x => x
  | .string s => parseNumber s
  | .text s => parseNumber s
  | _ => .zero false

/-- The contents of texts as they are, and the HTML of elements. -/
def markupText (ns : List Node) : String :=
  String.join (ns.map fun n =>
    match n with
    | .text s => s
    | .element tag attrs children => (Node.element tag attrs children).html)

def transformerText (name : String) : String := "[transformer " ++ name ++ "]"

mutual

/-- A value as plain JSON, in which markup is its text. -/
def plainJson : Value → Json
  | .null => .null
  | .boolean b => .bool b
  | .number x => x.toJson
  | .string s => .string s
  | .text s => .string s
  | .element e => .string e.html
  | .nodes ns => .string (markupText ns)
  | .array items => .list (plainItems items)
  | .record entries => .object (Sorted.ofPairs (plainEntries entries))
  | .transformer name _ _ => .string (transformerText name)

def plainItems : List Value → List Json
  | [] => []
  | v :: vs => plainJson v :: plainItems vs

def plainEntries : List (String × Value) → List (String × Json)
  | [] => []
  | (k, v) :: es => (k, plainJson v) :: plainEntries es

end

/-- The text of a value. -/
def stringOf : Value → String
  | .null => "null"
  | .boolean true => "true"
  | .boolean false => "false"
  | .number x => x.text
  | .string s => s
  | .text s => s
  | .element e => e.html
  | .nodes ns => markupText ns
  | .array items => (plainJson (.array items)).text
  | .record entries => (plainJson (.record entries)).text
  | .transformer name _ _ => transformerText name

/-- A value as an element: an element is itself, other markup becomes the content of a container,
an array or record gives an empty container and anything else one around its text. -/
def toElement : Value → Element
  | .element e => e
  | .text s => ⟨containerTag, ∅, [.text s]⟩
  | .nodes ns => ⟨containerTag, ∅, ns⟩
  | .array _ => ⟨containerTag, ∅, []⟩
  | .record _ => ⟨containerTag, ∅, []⟩
  | v => ⟨containerTag, ∅, [.text v.stringOf]⟩

mutual

/-- A value as sibling nodes. Null, transformers and the empty string give none. -/
def nodesOf : Value → List Node
  | .null => []
  | .boolean b => [.text (stringOf (.boolean b))]
  | .number x => [.text x.text]
  | .string s => if s.isEmpty then [] else [.text s]
  | .text s => [.text s]
  | .element e => [e.toNode]
  | .nodes ns => ns
  | .array items => nodesOfItems items
  | .record entries => [.text (stringOf (.record entries))]
  | .transformer .. => []

def nodesOfItems : List Value → List Node
  | [] => []
  | v :: vs => nodesOf v ++ nodesOfItems vs

end

@[simp] theorem nodesOf_ofNode (n : Node) : (ofNode n).nodesOf = [n] := by
  cases n <;> simp [ofNode, nodesOf, Element.toNode]

def toItems : Value → List Value
  | .array items => items
  | .nodes ns => ns.map ofNode
  | v => [v]

def toEntries : Value → List (String × Value)
  | .record entries => entries
  | _ => []

/-- The cast that a node of a kind ends with. An element node puts its own element around the
content and a transformer node builds its transformer, so neither has one. -/
def castTo? (v : Value) : Kind → Option Value
  | .null => some .null
  | .boolean => some (.boolean v.isTruthy)
  | .number => some (.number v.toNumber)
  | .string => some (.string v.stringOf)
  | .text => some (.text v.stringOf)
  | .nodes => some (.nodes v.nodesOf)
  | .array => some (.array v.toItems)
  | .record => some (.record v.toEntries)
  | .element => none
  | .transformer => none

/-- A value in any kind but that of transformers, in which it stays as it is. -/
def convert (v : Value) : Kind → Value
  | .element => .element v.toElement
  | k => (v.castTo? k).getD v

end Value
end MarkupEval
