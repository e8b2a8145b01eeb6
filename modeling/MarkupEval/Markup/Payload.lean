import MarkupEval.Json.Skip
import MarkupEval.Json.Writer
import MarkupEval.Markup.Node

/-! # Markup as JSON

A text is a JSON string and an element an object with a tag, a list of attribute pairs and a list
of children. The written form is an `Outline`, in which attributes are still pairs: a text that is
read may repeat a name. An element may also be given as a list of its three parts.

An element is read part by part, so that a wrong shape is reported where it is met. A child is
first read as any JSON value and then taken for a text or an element; what is wrong inside it is
one problem of the child as a whole. -/

namespace MarkupEval

inductive Outline
  | text (content : String)
  | element (tag : String) (attrs : List (String × String)) (children : List Outline)

structure ElementOutline where
  tag : String
  attrs : List (String × String)
  children : List Outline

namespace Outline

mutual

def ofNode : Node → Outline
  | .text s => .text s
  | .element tag attrs children => .element tag attrs.entries (ofNodes children)

def ofNodes : List Node → List Outline
  | [] => []
  | n :: ns => ofNode n :: ofNodes ns

end

mutual

def toNode : Outline → Node
  | .text s => .text s
  | .element tag attrs children => .element tag (.ofPairs attrs) (toNodes children)

def toNodes : List Outline → List Node
  | [] => []
  | o :: os => toNode o :: toNodes os

end

/-! ## Writing -/

def pairJson (p : String × String) : Json := .list [.string p.1, .string p.2]

mutual

def toJson : Outline → Json
  | .text s => .string s
  | .element tag attrs children =>
    .object [("tag", .string tag), ("attrs", .list (attrs.map pairJson)),
      ("children", .list (toJsonList children))]

def toJsonList : List Outline → List Json
  | [] => []
  | o :: os => toJson o :: toJsonList os

end

/-! ## The shape of a child -/

def string? : Json → Option String
  | .string s => some s
  | _ => none

def pair? : Json → Option (String × String)
  | .list [.string k, .string v] => some (k, v)
  | _ => none

def pairs? : Json → Option (List (String × String))
  | .list items => items.mapM pair?
  | _ => none

/-- The only value under a name; a member that occurs twice has none. -/
def onlyMember? (name : String) (ms : List (String × Json)) : Option Json :=
  match ms.filter (·.1 == name) with
  | [(_, j)] => some j
  | _ => none

/-- The parts of an element that is given in full. -/
structure Parts where
  tag : Json
  attrs : Json
  children : Json

/-- An element is a list of its parts or an object with them; other members are ignored. -/
def parts? : Json → Option Parts
  | .list [tag, attrs, children] => some ⟨tag, attrs, children⟩
  | .object ms => do
    return ⟨← onlyMember? "tag" ms, ← onlyMember? "attrs" ms, ← onlyMember? "children" ms⟩
  | _ => none

/-- The child that a JSON value is, looked for at most `depth` levels down. -/
def ofJson? : Nat → Json → Option Outline
  | _, .string s => some (.text s)
  | 0, _ => none
  | depth + 1, j => do
    let parts ← parts? j
    let tag ← string? parts.tag
    let attrs ← pairs? parts.attrs
    match parts.children with
    | .list items => return .element tag attrs (← items.mapM (ofJson? depth))
    | _ => none

/-! ## Reading -/

open Json

/-- The failure of a value that is not of the expected kind. A scalar is read first. -/
def wrongKind (expected : String) (cs : List Char) : Failure :=
  let scalar (found : Found) : Except Failure (List Char) → Failure
    | .ok r => .here (.invalidType found expected) r
    | .error f => f
  let number : Except Failure (Json × List Char) → Failure
    | .ok (.integer n, r) => .here (.invalidType (.integer n) expected) r
    | .ok (.float x, r) => .here (.invalidType (.float x) expected) r
    | .ok (_, r) => .here .expectedValue r
    | .error f => f
  match cs with
  | 'n' :: r => scalar .null (readWord "ull".toList r)
  | 't' :: r => scalar (.bool true) (readWord "rue".toList r)
  | 'f' :: r => scalar (.bool false) (readWord "alse".toList r)
  | '-' :: r => number (readNumber true r)
  | '"' :: r =>
    match readString r with
    | .ok (s, r) => .here (.invalidType (.string s) expected) r
    | .error f => f
  | '[' :: r => .here (.invalidType .sequence expected) ('[' :: r)
  | '{' :: r => .here (.invalidType .map expected) ('{' :: r)
  | c :: r =>
    if Text.isDigit c then number (readNumber false (c :: r)) else .next .expectedValue (c :: r)
  | [] => .here .endInValue []

def readStringValue : Reader String := fun cs =>
  match skipBlanks cs with
  | [] => .error (.here .endInValue [])
  | '"' :: r => readString r
  | r => .error (wrongKind "a string" r)

/-- A list, in which `depth` lists and objects may lie inside each other. -/
def readSequence {α : Type} (expected : String) (depth : Nat) (body : Nat → Reader α) : Reader α :=
  fun cs =>
    match skipBlanks cs with
    | [] => .error (.here .endInValue [])
    | '[' :: r =>
      match depth with
      | 0 => .error (.next .nestedTooDeep ('[' :: r))
      | depth + 1 => inList (body depth) r
    | r => .error (wrongKind expected r)

/-- The item at a place of a list of fixed length. -/
def readPart {α : Type} (place : Nat) (expected : String) (item : Reader α) : Reader α :=
  fun cs => do
  match ← nextItem (place == 0) cs with
  | (true, r) => item r
  | (false, r) => throw (.shape (.invalidLength place expected) r)

def readPair (depth : Nat) : Reader (String × String) :=
  let expected := "a tuple of size 2"
  readSequence expected depth fun _ cs => do
    let (k, r) ← readPart 0 expected readStringValue cs
    let (v, r) ← readPart 1 expected readStringValue r
    return ((k, v), r)

def readPairs (depth : Nat) : Reader (List (String × String)) :=
  readSequence "a sequence" depth fun depth cs => readItems (readPair depth) (cs.length + 1) true cs

/-- The name by which messages call the shape of a child. -/
def childUnion : String := "SerializedNode"

def readChild (depth : Nat) : Reader Outline := fun cs => do
  let (j, r) ← readValue depth cs
  match ofJson? (depth + 1) j with
  | some o => return (o, r)
  | none => throw (.shape (.noVariant childUnion) r)

def readChildren (depth : Nat) : Reader (List Outline) :=
  readSequence "a sequence" depth fun depth cs =>
    readItems (readChild depth) (cs.length + 1) true cs

/-- The name by which messages call the shape of an element. -/
def elementStruct : String := "struct SerializedElement"

/-- The three parts of an element in order. -/
def readElementParts (depth : Nat) : Reader ElementOutline := fun cs => do
  let expected := elementStruct ++ " with 3 elements"
  let (tag, r) ← readPart 0 expected readStringValue cs
  let (attrs, r) ← readPart 1 expected (readPairs depth) r
  let (children, r) ← readPart 2 expected (readChildren depth) r
  return (⟨tag, attrs, children⟩, r)

/-- The members of an element that are read so far. -/
structure Gathered where
  tag : Option String := none
  attrs : Option (List (String × String)) := none
  children : Option (List Outline) := none

/-- All parts, or the first that is missing. -/
def Gathered.finish (g : Gathered) (rest : List Char) : Except Failure ElementOutline :=
  match g.tag, g.attrs, g.children with
  | none, _, _ => .error (.shape (.missingField "tag") rest)
  | _, none, _ => .error (.shape (.missingField "attrs") rest)
  | _, _, none => .error (.shape (.missingField "children") rest)
  | some tag, some attrs, some children => .ok ⟨tag, attrs, children⟩

/-- The value of a member that was not there before. -/
def readMember {α : Type} (name : String) (before : Option α) (value : Reader α) : Reader α :=
  fun cs => do
    if before.isSome then throw (.shape (.duplicateField name) cs)
    value (← readColon cs)

/-- The members of an element up to the closing brace; each takes at least one character. -/
def readElementMembers (depth : Nat) : Nat → Bool → Gathered → Reader ElementOutline
  | 0, _, _, cs => .error (.here .endInObject cs)
  | fuel + 1, first, g, cs => do
    match ← nextKey first cs with
    | (none, r) => return (← g.finish r, r)
    | (some "tag", r) =>
      let (tag, r) ← readMember "tag" g.tag readStringValue r
      readElementMembers depth fuel false { g with tag := some tag } r
    | (some "attrs", r) =>
      let (attrs, r) ← readMember "attrs" g.attrs (readPairs depth) r
      readElementMembers depth fuel false { g with attrs := some attrs } r
    | (some "children", r) =>
      let (children, r) ← readMember "children" g.children (readChildren depth) r
      readElementMembers depth fuel false { g with children := some children } r
    | (some _, r) => readElementMembers depth fuel false g (← skipValue (← readColon r))

/-- An element, given as an object or as a list of its parts. -/
def readElement (depth : Nat) : Reader ElementOutline := fun cs =>
  match skipBlanks cs with
  | [] => .error (.here .endInValue [])
  | '[' :: r =>
    match depth with
    | 0 => .error (.next .nestedTooDeep ('[' :: r))
    | depth + 1 => inList (readElementParts depth) r
  | '{' :: r =>
    match depth with
    | 0 => .error (.next .nestedTooDeep ('{' :: r))
    | depth + 1 => inObject (fun cs => readElementMembers depth (cs.length + 1) true {} cs) r
  | r => .error (wrongKind elementStruct r)

end Outline

def ElementOutline.toElement (o : ElementOutline) : Element :=
  ⟨o.tag, .ofPairs o.attrs, Outline.toNodes o.children⟩

def ElementOutline.ofElement (e : Element) : ElementOutline :=
  ⟨e.tag, e.attrs.entries, Outline.ofNodes e.children⟩

def ElementOutline.toJson (o : ElementOutline) : Json :=
  Outline.toJson (.element o.tag o.attrs o.children)

end MarkupEval
