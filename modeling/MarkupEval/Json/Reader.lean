import MarkupEval.Json.Scalar

/-! # Reading JSON

Lists and objects are read by combinators that take the reader of an item, so that the same rules
for brackets, commas and the places of failures hold for JSON values of any shape and for texts
that must have a given one. -/

namespace MarkupEval
namespace Json

/-- How many lists and objects may lie inside each other. -/
def maxDepth : Nat := 127

/-! ## Brackets -/

/-- Takes the end of a list. -/
def closeList (cs : List Char) : Except Failure (List Char) :=
  match skipBlanks cs with
  | [] => .error (.here .endInList [])
  | ']' :: r => .ok r
  | ',' :: r =>
    match skipBlanks r with
    | ']' :: r' => .error (.next .trailingComma (']' :: r'))
    | r' => .error (.next .trailingCharacters r')
  | r => .error (.next .trailingCharacters r)

/-- Takes the end of an object. -/
def closeObject (cs : List Char) : Except Failure (List Char) :=
  match skipBlanks cs with
  | [] => .error (.here .endInObject [])
  | '}' :: r => .ok r
  | ',' :: r => .error (.next .trailingComma (',' :: r))
  | r => .error (.next .trailingCharacters r)

/-- Where a list is left when its shape is wrong: after its bracket if that comes next, else after
a comma if one does. -/
def leaveList (cs : List Char) : List Char :=
  match skipBlanks cs with
  | ']' :: r => r
  | ',' :: r => skipBlanks r
  | r => r

/-- Where an object is left when its shape is wrong. -/
def leaveObject (cs : List Char) : List Char :=
  match skipBlanks cs with
  | '}' :: r => r
  | r => r

/-- Reads what is between the brackets and the closing one; a failure whose place is still open is
placed where the brackets are left. -/
def enclose {α : Type} (close : List Char → Except Failure (List Char))
    (leave : List Char → List Char) (body : Reader α) : Reader α := fun cs =>
  match body cs with
  | .ok (x, r) =>
    match close r with
    | .ok r' => .ok (x, r')
    | .error f => .error f
  | .error f => if f.placed then .error f else .error (.here f.problem (leave f.rest))

def inList {α : Type} : Reader α → Reader α := enclose closeList leaveList

def inObject {α : Type} : Reader α → Reader α := enclose closeObject leaveObject

/-! ## Items and members -/

/-- Moves to the next item of a list, if there is one; the first needs no comma. -/
def nextItem (first : Bool) (cs : List Char) : Except Failure (Bool × List Char) :=
  match skipBlanks cs with
  | [] => .error (.here .endInList [])
  | ']' :: r => .ok (false, ']' :: r)
  | c :: r =>
    if first then .ok (true, c :: r)
    else if c = ',' then
      match skipBlanks r with
      | [] => .error (.here .endInValue [])
      | ']' :: r' => .error (.next .trailingComma (']' :: r'))
      | r' => .ok (true, r')
    else .error (.next .expectedCommaInList (c :: r))

/-- The opening quote of a key. -/
def openKey : List Char → Except Failure (List Char)
  | [] => .error (.here .endInValue [])
  | '"' :: r => .ok r
  | '}' :: r => .error (.next .trailingComma ('}' :: r))
  | r => .error (.next .keyNotString r)

/-- The name of the next member of an object, if there is one. -/
def nextKey (first : Bool) : Reader (Option String) := fun cs =>
  match skipBlanks cs with
  | [] => .error (.here .endInObject [])
  | '}' :: r => .ok (none, '}' :: r)
  | c :: r => do
    let start ←
      if first then openKey (c :: r)
      else if c = ',' then openKey (skipBlanks r)
      else throw (.next .expectedCommaInObject (c :: r))
    let (k, r) ← readString start
    return (some k, r)

/-- The colon between the name of a member and its value. -/
def readColon (cs : List Char) : Except Failure (List Char) :=
  match skipBlanks cs with
  | [] => .error (.here .endInObject [])
  | ':' :: r => .ok r
  | r => .error (.next .expectedColon r)

/-- All items up to the closing bracket, which stays. Each takes at least one character. -/
def readItems {α : Type} (item : Reader α) : Nat → Bool → Reader (List α)
  | 0, _, cs => .error (.here .endInList cs)
  | fuel + 1, first, cs => do
    match ← nextItem first cs with
    | (false, r) => return ([], r)
    | (true, r) =>
      let (x, r) ← item r
      let (xs, r) ← readItems item fuel false r
      return (x :: xs, r)

/-- All members up to the closing brace, which stays. -/
def readMembers {α : Type} (value : Reader α) : Nat → Bool → Reader (List (String × α))
  | 0, _, cs => .error (.here .endInObject cs)
  | fuel + 1, first, cs => do
    match ← nextKey first cs with
    | (none, r) => return ([], r)
    | (some k, r) =>
      let r ← readColon r
      let (x, r) ← value r
      let (xs, r) ← readMembers value fuel false r
      return ((k, x) :: xs, r)

def readList {α : Type} (item : Reader α) : Reader (List α) := fun cs =>
  inList (readItems item (cs.length + 1) true) cs

def readObject {α : Type} (value : Reader α) : Reader (List (String × α)) := fun cs =>
  inObject (readMembers value (cs.length + 1) true) cs

/-! ## Values -/

/-- A value in which `depth` lists and objects may lie inside each other. -/
def readValue : Nat → List Char → Except Failure (Json × List Char)
  | depth, cs =>
    match skipBlanks cs with
    | [] => .error (.here .endInValue [])
    | 'n' :: r => do return (.null, ← readWord "ull".toList r)
    | 't' :: r => do return (.bool true, ← readWord "rue".toList r)
    | 'f' :: r => do return (.bool false, ← readWord "alse".toList r)
    | '"' :: r => do
      let (s, r) ← readString r
      return (.string s, r)
    | '-' :: r => readNumber true r
    | '[' :: r =>
      match depth with
      | 0 => .error (.next .nestedTooDeep ('[' :: r))
      | depth + 1 => do
        let (xs, r) ← readList (readValue depth) r
        return (.list xs, r)
    | '{' :: r =>
      match depth with
      | 0 => .error (.next .nestedTooDeep ('{' :: r))
      | depth + 1 => do
        let (xs, r) ← readObject (readValue depth) r
        return (.object xs, r)
    | c :: r =>
      if Text.isDigit c then readNumber false (c :: r)
      else .error (.next .expectedValue (c :: r))

/-- Only blanks may follow what is read from a whole text. -/
def readAll {α : Type} (reader : Reader α) (cs : List Char) : Except Failure α := do
  let (x, r) ← reader cs
  match skipBlanks r with
  | [] => return x
  | r => throw (.next .trailingCharacters r)

def read (cs : List Char) : Except Failure Json := readAll (readValue maxDepth) cs

end Json
end MarkupEval
