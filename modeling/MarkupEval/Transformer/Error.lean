import MarkupEval.Value.Basic

/-! # Failures of transformers

A failed transformer does not stop an evaluation: its error becomes a record that is merged like
any other value. -/

namespace MarkupEval

inductive TagError
  | mainValue (tag expected : String) (found : Kind)
  | arity (tag expected : String) (found : Nat)
  | argument (tag : String) (position : Nat) (expected : String) (found : Kind)
  | outOfRange (tag path : String) (index length : Nat)
  | notNumeric (tag path segment : String)
  | notTraversable (tag path : String) (found : Kind)
  | missingKey (tag path key : String)
  | invalid (tag message : String)
deriving DecidableEq, Repr

namespace TagError

/-- The tag that failed. -/
def tag : TagError → String
  | .mainValue tag .. => tag
  | .arity tag .. => tag
  | .argument tag .. => tag
  | .outOfRange tag .. => tag
  | .notNumeric tag .. => tag
  | .notTraversable tag .. => tag
  | .missingKey tag .. => tag
  | .invalid tag _ => tag

/-- The name of the kind of failure. -/
def kind : TagError → String
  | .mainValue .. => "main-value"
  | .arity .. => "arity"
  | .argument .. => "arg-type"
  | .outOfRange .. => "out-of-range"
  | .notNumeric .. => "not-numeric"
  | .notTraversable .. => "not-traversable"
  | .missingKey .. => "missing-key"
  | .invalid .. => "invalid"

/-- What went wrong, without the tag. -/
def detail : TagError → String
  | .mainValue _ expected found => "main value must be " ++ expected ++ ", found " ++ found.name
  | .arity _ expected found => "expected " ++ expected ++ " argument(s), found " ++ toString found
  | .argument _ position expected found =>
    "argument " ++ toString position ++ " must be " ++ expected ++ ", found " ++ found.name
  | .outOfRange _ path index length =>
    "index " ++ toString index ++ " is out of range at `" ++ path ++ "` (length " ++
      toString length ++ ")"
  | .notNumeric _ path segment =>
    "segment `" ++ segment ++ "` of `" ++ path ++ "` must be a non-negative integer"
  | .notTraversable _ path found => "cannot descend into " ++ found.name ++ " at `" ++ path ++ "`"
  | .missingKey _ path key => "no key `" ++ key ++ "` at `" ++ path ++ "`"
  | .invalid _ message => message

def message (e : TagError) : String := "<" ++ e.tag ++ ">: " ++ e.detail

/-- A count as a number of the value language. -/
def count (n : Nat) : Value := .number (.ofNat n)

/-- The entries that only some kinds of failure have. -/
def extras : TagError → List (String × Value)
  | .mainValue _ expected found =>
    [("expected", .string expected), ("found", .string found.name)]
  | .arity _ expected found => [("expected", .string expected), ("found", count found)]
  | .argument _ position expected found =>
    [("position", count position), ("expected", .string expected), ("found", .string found.name)]
  | .outOfRange _ _ index length => [("index", count index), ("length", count length)]
  | _ => []

/-- The record of a failure. -/
def toValue (e : TagError) : Value :=
  .record ([("error", .string e.message), ("tag", .string e.tag), ("kind", .string e.kind)] ++
    e.extras)

end TagError
end MarkupEval
