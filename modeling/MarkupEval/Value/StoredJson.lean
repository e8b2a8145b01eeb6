import MarkupEval.Value.Stored

/-! # Stored values as JSON

A stored value is an object with its type and its content, where null has no content. A record is a
list of pairs and a transformer an object with its name. Numbers are always written as floating
point numbers.

The content may come before the type, and the two may be given as a list. When the type comes
first the content is read as that type, so that a wrong shape is found where it is met; when it
comes last the content is read as any JSON value and then taken for what the type says. -/

namespace MarkupEval
namespace Stored

open Json Outline

/-! ## Writing -/

def tagged (type : String) (content : Json) : Json :=
  .object [("type", .string type), ("value", content)]

mutual

def toJson : Stored → Json
  | .null => .object [("type", .string "null")]
  | .boolean b => tagged "boolean" (.bool b)
  | .number x => tagged "number" (.float x)
  | .string s => tagged "string" (.string s)
  | .text s => tagged "text" (.string s)
  | .element e => tagged "element" e.toJson
  | .nodes os => tagged "nodelist" (.list (Outline.toJsonList os))
  | .array items => tagged "array" (.list (toJsonItems items))
  | .record entries => tagged "record" (.list (toJsonEntries entries))
  | .transformer name => tagged "transformer" (.object [("name", .string name)])

def toJsonItems : List Stored → List Json
  | [] => []
  | s :: ss => toJson s :: toJsonItems ss

def toJsonEntries : List (String × Stored) → List Json
  | [] => []
  | (k, s) :: es => .list [.string k, toJson s] :: toJsonEntries es

end

/-! ## Taking a JSON value for a stored one -/

/-- The kind of a value with its content, of which the nested values are still to be read. -/
inductive Shape
  | leaf (s : Stored)
  | array (items : List Json)
  | record (entries : List (String × Json))

def element? (depth : Nat) (j : Json) : Option ElementOutline :=
  match parts? j with
  | none => none
  | some parts =>
    match Outline.ofJson? depth (.list [parts.tag, parts.attrs, parts.children]) with
    | some (.element tag attrs children) => some ⟨tag, attrs, children⟩
    | _ => none

def entry? : Json → Option (String × Json)
  | .list [.string k, j] => some (k, j)
  | _ => none

/-- What a content is for a type. -/
def shape? (depth : Nat) (type : String) (content : Json) : Option Shape :=
  match type, content with
  | "null", .null => some (.leaf .null)
  | "boolean", .bool b => some (.leaf (.boolean b))
  | "number", .integer n => some (.leaf (.number (.ofInt n)))
  | "number", .float x => some (.leaf (.number x))
  | "string", .string s => some (.leaf (.string s))
  | "text", .string s => some (.leaf (.text s))
  | "element", j => (element? depth j).map fun e => .leaf (.element e)
  | "nodelist", .list items =>
    (items.mapM (Outline.ofJson? depth)).map fun os => .leaf (.nodes os)
  | "array", .list items => some (.array items)
  | "record", .list items => (items.mapM entry?).map .record
  | "transformer", .object ms =>
    match onlyMember? "name" ms with
    | some (.string name) => some (.leaf (.transformer name))
    | _ => none
  | _, _ => none

/-- The types that there are. -/
def typeNames : List String :=
  ["null", "boolean", "number", "string", "text", "element", "nodelist", "array", "record",
   "transformer"]

/-- A type is a string, or an object whose only member has its name and nothing in it. -/
def type? : Json → Option String
  | .string s => some s
  | .object [(k, .null)] => some k
  | .object [(k, .object [])] => some k
  | _ => none

/-- The type and the content of a value that is given in full; null may do without content. -/
def typed? : Json → Option (String × Json)
  | .list [type, content] => do return (← type? type, content)
  | .object ms => do
    let type ← type? (← onlyMember? "type" ms)
    match ms.filter (·.1 == "value") with
    | [] => if type = "null" then some (type, .null) else none
    | [(_, content)] => some (type, content)
    | _ => none
  | _ => none

/-- The stored value that a JSON value is, looked for at most `depth` levels down. -/
def ofJson? : Nat → Json → Option Stored
  | 0, _ => none
  | depth + 1, j => do
    let (type, content) ← typed? j
    match ← shape? (depth + 1) type content with
    | .leaf s => return s
    | .array items => return .array (← items.mapM (ofJson? depth))
    | .record entries =>
      return .record (← entries.mapM fun e => do return (e.1, ← ofJson? depth e.2))

/-! ## Reading -/

/-- The union that all stored values belong to, in messages. -/
def union : String := "adjacently tagged enum Serialized"

/-- The null inside an object that stands for a type. -/
def readNull : Reader Unit := fun cs =>
  match skipBlanks cs with
  | [] => .error (.here .endInValue [])
  | 'n' :: r => do return ((), ← readWord "ull".toList r)
  | r => .error (wrongKind "unit" r)

/-- The name of a type that there is. -/
def knownType (name : String) (rest : List Char) : Except Failure (String × List Char) :=
  if name ∈ typeNames then .ok (name, rest) else .error (.here (.unknownVariant name) rest)

/-- A type: its name, or an object with the name and a null. -/
def readType (depth : Nat) : Reader String := fun cs =>
  match skipBlanks cs with
  | [] => .error (.here .endInValue [])
  | '"' :: r => do
    let (s, r) ← readString r
    knownType s r
  | '{' :: r =>
    match depth with
    | 0 => .error (.next .nestedTooDeep ('{' :: r))
    | _ + 1 =>
      match skipBlanks r with
      | [] => .error (.here .endInValue [])
      | '"' :: r => do
        let (s, r) ← readString r
        let (s, r) ← knownType s r
        let (_, r) ← readNull (← readColon r)
        match skipBlanks r with
        | '}' :: r => return (s, r)
        | [] => throw (.here .endInObject [])
        | r => throw (.here .expectedValue r)
      | r => .error (wrongKind "variant identifier" r)
  | r => .error (.next .expectedValue r)

def readBoolean : Reader Bool := fun cs =>
  match skipBlanks cs with
  | [] => .error (.here .endInValue [])
  | 't' :: r => do return (true, ← readWord "rue".toList r)
  | 'f' :: r => do return (false, ← readWord "alse".toList r)
  | r => .error (wrongKind "a boolean" r)

/-- A number, whose sign may not stand alone. -/
def readBinary64 : Reader Binary64 := fun cs =>
  let number : Except Failure (Json × List Char) → Except Failure (Binary64 × List Char)
    | .ok (j, r) => .ok (j.toBinary64?.getD .nan, r)
    | .error f => .error f
  match skipBlanks cs with
  | [] => .error (.here .endInValue [])
  | '-' :: r => number (readNumber true r)
  | c :: r =>
    if Text.isDigit c then number (readNumber false (c :: r)) else .error (wrongKind "f64" (c :: r))

/-- The members of a transformer up to the closing brace; each takes at least one character. -/
def readNameMember : Nat → Bool → Option String → Reader String
  | 0, _, _, cs => .error (.here .endInObject cs)
  | fuel + 1, first, name, cs => do
    match ← nextKey first cs with
    | (none, r) =>
      match name with
      | some name => return (name, r)
      | none => throw (.shape (.missingField "name") r)
    | (some "name", r) =>
      let (s, r) ← readMember "name" name readStringValue r
      readNameMember fuel false (some s) r
    | (some _, r) => readNameMember fuel false name (← skipValue (← readColon r))

/-- The content of a transformer: an object with its name. -/
def readTransformer (depth : Nat) : Reader String := fun cs =>
  match skipBlanks cs with
  | '{' :: r =>
    match depth with
    | 0 => .error (.next .nestedTooDeep ('{' :: r))
    | _ + 1 => inObject (fun cs => readNameMember (cs.length + 1) true none cs) r
  | '[' :: r =>
    match depth with
    | 0 => .error (.next .nestedTooDeep ('[' :: r))
    | _ + 1 => .error (.here (.invalidType .sequence union) r)
  | r => do
    let (_, r) ← readValue 0 r
    throw (.here (.noVariant union) r)

/-- The content of null: any scalar is read, but only null is right. -/
def readNullContent (depth : Nat) : Reader Unit := fun cs =>
  match skipBlanks cs with
  | 'n' :: r => do return ((), ← readWord "ull".toList r)
  | '[' :: r =>
    match depth with
    | 0 => .error (.next .nestedTooDeep ('[' :: r))
    | _ + 1 => .error (.here (.invalidType .sequence union) r)
  | '{' :: r =>
    match depth with
    | 0 => .error (.next .nestedTooDeep ('{' :: r))
    | _ + 1 => .error (.here (.invalidType .map union) r)
  | r => do
    let (_, r) ← readValue 0 r
    throw (.here (.noVariant union) r)

/-- A pair of a key and a value. -/
def readEntry (value : Reader Stored) : Reader (String × Stored) := fun cs => do
  let expected := "a tuple of size 2"
  let (k, r) ← readPart 0 expected readStringValue cs
  let (v, r) ← readPart 1 expected value r
  return ((k, v), r)

/-- The content of a type. `value` reads a stored value one level further down. -/
def readContent (value : Nat → Reader Stored) (depth : Nat) (type : String) : Reader Stored :=
  fun cs =>
    match type with
    | "null" => do
      let (_, r) ← readNullContent depth cs
      return (.null, r)
    | "boolean" => do
      let (b, r) ← readBoolean cs
      return (.boolean b, r)
    | "number" => do
      let (x, r) ← readBinary64 cs
      return (.number x, r)
    | "string" => do
      let (s, r) ← readStringValue cs
      return (.string s, r)
    | "text" => do
      let (s, r) ← readStringValue cs
      return (.text s, r)
    | "element" => do
      let (e, r) ← readElement depth cs
      return (.element e, r)
    | "nodelist" => do
      let (os, r) ← readChildren depth cs
      return (.nodes os, r)
    | "array" => do
      let items := fun d cs => readItems (value d) (cs.length + 1) true cs
      let (xs, r) ← readSequence "a sequence" depth items cs
      return (.array xs, r)
    | "record" => do
      let entry := fun d => readSequence "a tuple of size 2" d fun d => readEntry (value d)
      let entries := fun d cs => readItems (entry d) (cs.length + 1) true cs
      let (es, r) ← readSequence "a sequence" depth entries cs
      return (.record es, r)
    | _ => do
      let (name, r) ← readTransformer depth cs
      return (.transformer name, r)

/-- The next member that is a type or a content; others are passed over. -/
def nextTagOrContent : Nat → Bool → Reader (Option String)
  | 0, _, cs => .error (.here .endInObject cs)
  | fuel + 1, first, cs => do
    match ← nextKey first cs with
    | (none, r) => return (none, r)
    | (some k, r) =>
      if k = "type" ∨ k = "value" then return (some k, r)
      else nextTagOrContent fuel false (← skipValue (← readColon r))

/-- After type and content neither may come again. -/
def readNoMore (cs : List Char) : Except Failure (List Char) := do
  match ← nextTagOrContent (cs.length + 1) false cs with
  | (none, r) => return r
  | (some k, r) => throw (.shape (.duplicateField k) r)

/-- The members of a stored value up to the closing brace. -/
def readTagged (value : Nat → Reader Stored) (depth : Nat) : Reader Stored := fun cs => do
  match ← nextTagOrContent (cs.length + 1) true cs with
  | (none, r) => throw (.shape (.missingField "type") r)
  | (some "type", r) =>
    let (type, r) ← readType depth (← readColon r)
    match ← nextTagOrContent (r.length + 1) false r with
    | (none, r) =>
      if type = "null" then return (.null, r) else throw (.shape (.missingField "value") r)
    | (some "type", r) => throw (.shape (.duplicateField "type") r)
    | (some _, r) =>
      let (s, r) ← readContent value depth type (← readColon r)
      return (s, ← readNoMore r)
  | (some _, r) =>
    let (content, r) ← readValue depth (← readColon r)
    match ← nextTagOrContent (r.length + 1) false r with
    | (none, r) => throw (.shape (.missingField "type") r)
    | (some "value", r) => throw (.shape (.duplicateField "value") r)
    | (some _, r) =>
      let (type, r) ← readType depth (← readColon r)
      match ofJson? (maxDepth + 1) (.list [.string type, content]) with
      | some s => return (s, ← readNoMore r)
      | none => throw (.shape (.noVariant union) r)

/-- The type and the content as the items of a list. -/
def readTaggedPair (value : Nat → Reader Stored) (depth : Nat) : Reader Stored := fun cs => do
  let (type, r) ← readPart 0 union (readType depth) cs
  readPart 1 union (readContent value depth type) r

/-- A stored value in which `depth` lists and objects may lie inside each other; `fuel` bounds the
values inside each other. -/
def readStored : Nat → Nat → Reader Stored
  | 0, _, cs => .error (.next .nestedTooDeep cs)
  | fuel + 1, depth, cs =>
    match skipBlanks cs with
    | [] => .error (.here .endInValue [])
    | '[' :: r =>
      match depth with
      | 0 => .error (.next .nestedTooDeep ('[' :: r))
      | depth + 1 => inList (readTaggedPair (readStored fuel) depth) r
    | '{' :: r =>
      match depth with
      | 0 => .error (.next .nestedTooDeep ('{' :: r))
      | depth + 1 => inObject (readTagged (readStored fuel) depth) r
    | r => .error (wrongKind union r)

/-- The stored value of a whole JSON text. -/
def read (text : String) : Except Failure Stored :=
  readAll (readStored (maxDepth + 1) maxDepth) text.toList

end Stored
end MarkupEval
