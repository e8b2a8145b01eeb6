import MarkupEval.Json.Basic
import MarkupEval.Text.Quoted

/-! # What can be wrong with a JSON text

A text can end too early, break the grammar, or be well formed so far and have the wrong shape. A
failure says where reading stopped: the text that was left, and how many bytes more the position
counts. -/

namespace MarkupEval
namespace Json

/-- The kind of value that was met where another was expected. -/
inductive Found
  | null
  | bool (b : Bool)
  | integer (n : Int)
  | float (x : Binary64)
  | string (s : String)
  | sequence
  | map

inductive Problem
  | endInValue
  | endInList
  | endInObject
  | endInString
  | expectedColon
  | expectedCommaInList
  | expectedCommaInObject
  | expectedValue
  | expectedIdent
  | controlCharacter
  | invalidEscape
  | loneSurrogate
  | endOfSurrogatePair
  | invalidNumber
  | numberOutOfRange
  | keyNotString
  | trailingComma
  | trailingCharacters
  | nestedTooDeep
  | missingField (name : String)
  | duplicateField (name : String)
  | unknownVariant (name : String)
  | invalidLength (found : Nat) (expected : String)
  | invalidType (found : Found) (expected : String)
  | noVariant (union : String)

/-- The text ended, it is not JSON, or it is JSON of the wrong shape. -/
inductive Category
  | eof
  | grammar
  | data
deriving DecidableEq

def Problem.category : Problem → Category
  | .endInValue | .endInList | .endInObject | .endInString => .eof
  | .missingField _ | .duplicateField _ | .unknownVariant _ | .invalidLength .. | .invalidType .. |
    .noVariant _ => .data
  | _ => .grammar

def Found.message : Found → String
  | .null => "null"
  | .bool b => "boolean `" ++ (if b then "true" else "false") ++ "`"
  | .integer n => "integer `" ++ String.ofList (NumberLayout.intChars n) ++ "`"
  | .float x => "floating point `" ++ String.ofList (NumberLayout.json.write x) ++ "`"
  | .string s => "string " ++ Text.quoted s
  | .sequence => "sequence"
  | .map => "map"

def Problem.message : Problem → String
  | .endInValue => "EOF while parsing a value"
  | .endInList => "EOF while parsing a list"
  | .endInObject => "EOF while parsing an object"
  | .endInString => "EOF while parsing a string"
  | .expectedColon => "expected `:`"
  | .expectedCommaInList => "expected `,` or `]`"
  | .expectedCommaInObject => "expected `,` or `\x7d`"
  | .expectedValue => "expected value"
  | .expectedIdent => "expected ident"
  | .controlCharacter => "control character (\\u0000-\\u001F) found while parsing a string"
  | .invalidEscape => "invalid escape"
  | .loneSurrogate => "lone leading surrogate in hex escape"
  | .endOfSurrogatePair => "unexpected end of hex escape"
  | .invalidNumber => "invalid number"
  | .numberOutOfRange => "number out of range"
  | .keyNotString => "key must be a string"
  | .trailingComma => "trailing comma"
  | .trailingCharacters => "trailing characters"
  | .nestedTooDeep => "recursion limit exceeded"
  | .missingField name => "missing field `" ++ name ++ "`"
  | .duplicateField name => "duplicate field `" ++ name ++ "`"
  | .unknownVariant name => "unknown variant `" ++ name ++ "`"
  | .invalidLength found expected =>
    "invalid length " ++ toString found ++ ", expected " ++ expected
  | .invalidType found expected => "invalid type: " ++ found.message ++ ", expected " ++ expected
  | .noVariant union => "data did not match any variant of untagged enum " ++ union

/-! ## Positions -/

/-- A line, from one on, and the bytes since its start. -/
structure Position where
  line : Nat
  column : Nat
deriving DecidableEq, Repr

namespace Position

def start : Position := ⟨1, 0⟩

def advance (p : Position) (c : Char) : Position :=
  if c = '\n' then ⟨p.line + 1, 0⟩ else ⟨p.line, p.column + c.utf8Size⟩

/-- Moves over a number of bytes, at most to the end of the text. -/
def advanceBytes (p : Position) : Nat → List Char → Position
  | 0, _ => p
  | _, [] => p
  | n, c :: r =>
    if n < c.utf8Size then ⟨p.line, p.column + n⟩ else advanceBytes (p.advance c) (n - c.utf8Size) r

end Position

/-- A failure with the text that was left. `placed` is false while it is still open at which
bracket the failure will be reported. -/
structure Failure where
  problem : Problem
  rest : List Char
  ahead : Nat
  placed : Bool

namespace Failure

/-- A failure at the point that is reached. -/
def here (p : Problem) (rest : List Char) : Failure := ⟨p, rest, 0, true⟩

/-- A failure one byte past the point that is reached. -/
def next (p : Problem) (rest : List Char) : Failure := ⟨p, rest, 1, true⟩

/-- A wrong shape, reported when the enclosing list or object is left. -/
def shape (p : Problem) (rest : List Char) : Failure := ⟨p, rest, 0, false⟩

/-- The position of a failure in the text that was read. -/
def position (f : Failure) (text : List Char) : Position :=
  let consumed := text.take (text.length - f.rest.length)
  (consumed.foldl Position.advance .start).advanceBytes f.ahead f.rest

def message (f : Failure) (text : List Char) : String :=
  let p := f.position text
  f.problem.message ++ " at line " ++ toString p.line ++ " column " ++ toString p.column

end Failure

/-- Takes something from the front of a text: what is read and the text that is left, or a
failure. -/
abbrev Reader (α : Type) := List Char → Except Failure (α × List Char)

end Json
end MarkupEval
