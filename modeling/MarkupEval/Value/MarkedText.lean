import MarkupEval.Markup.Payload
import MarkupEval.Transformer.Error
import MarkupEval.Value.Cast

/-! # Marked text

A text form of values that keeps markup. It is compact JSON in which markup is a string that starts
with a marker: a text follows its marker as it is, elements and lists of nodes follow theirs as
JSON. A string that starts like a marker gets one of its own, so that it is not mistaken for
markup. Transformers have no text and become null. -/

namespace MarkupEval
namespace MarkedText

def markerStart : List Char := "%%-".toList

def textMarker : List Char := "%%-text-%%".toList

def elementMarker : List Char := "%%-element-%%".toList

def nodesMarker : List Char := "%%-nodelist-%%".toList

def stringMarker : List Char := "%%-string-%%".toList

/-! ## Encoding -/

def marked (marker : List Char) (content : List Char) : Json :=
  .string (String.ofList (marker ++ content))

def encodeString (s : String) : Json :=
  if markerStart.isPrefixOf s.toList then marked stringMarker s.toList else .string s

def encodeElement (e : Element) : Json :=
  marked elementMarker (ElementOutline.ofElement e).toJson.chars

def encodeNodes (ns : List Node) : Json :=
  marked nodesMarker (Json.list (Outline.toJsonList (Outline.ofNodes ns))).chars

mutual

def encode : Value → Json
  | .null => .null
  | .boolean b => .bool b
  | .number x => x.toJson
  | .string s => encodeString s
  | .text s => marked textMarker s.toList
  | .element e => encodeElement e
  | .nodes ns => encodeNodes ns
  | .array items => .list (encodeItems items)
  | .record entries => .object (Sorted.ofPairs (encodeEntries entries))
  | .transformer .. => .null

def encodeItems : List Value → List Json
  | [] => []
  | v :: vs => encode v :: encodeItems vs

def encodeEntries : List (String × Value) → List (String × Json)
  | [] => []
  | (k, v) :: es => (k, encode v) :: encodeEntries es

end

/-- The marked text of a value. -/
def stringify (v : Value) : String := (encode v).text

/-! ## Decoding -/

/-- The tag that errors of reading name. -/
def parseTag : String := "parse"

/-- What follows a prefix of a text. -/
def afterPrefix? : List Char → List Char → Option (List Char)
  | [], cs => some cs
  | _ :: _, [] => none
  | p :: ps, c :: cs => if p = c then afterPrefix? ps cs else none

def payloadError (payload : List Char) (f : Json.Failure) : TagError :=
  .invalid parseTag ("malformed markup payload: " ++ f.message payload)

def decodeElement (payload : List Char) : Except TagError Value :=
  match Json.readAll (Outline.readElement Json.maxDepth) payload with
  | .ok o => .ok (.element o.toElement)
  | .error f => .error (payloadError payload f)

def decodeNodes (payload : List Char) : Except TagError Value :=
  match Json.readAll (Outline.readChildren Json.maxDepth) payload with
  | .ok os => .ok (.nodes (Outline.toNodes os))
  | .error f => .error (payloadError payload f)

/-- A string is what its marker says, and itself if it has none. -/
def decodeString (s : String) : Except TagError Value :=
  match afterPrefix? textMarker s.toList with
  | some content => .ok (.text (String.ofList content))
  | none =>
    match afterPrefix? elementMarker s.toList with
    | some payload => decodeElement payload
    | none =>
      match afterPrefix? nodesMarker s.toList with
      | some payload => decodeNodes payload
      | none =>
        match afterPrefix? stringMarker s.toList with
        | some content => .ok (.string (String.ofList content))
        | none => .ok (.string s)

mutual

/-- The value of a JSON value whose objects are maps. The first markup that cannot be read, in the
order of the text, is the error. -/
def decode : Json → Except TagError Value
  | .null => .ok .null
  | .bool b => .ok (.boolean b)
  | .integer n => .ok (.number (.ofInt n))
  | .float x => .ok (.number x)
  | .string s => decodeString s
  | .list items => do return .array (← decodeItems items)
  | .object members => do return .record (← decodeMembers members)

def decodeItems : List Json → Except TagError (List Value)
  | [] => .ok []
  | j :: js => do
    let v ← decode j
    return v :: (← decodeItems js)

def decodeMembers : List (String × Json) → Except TagError (List (String × Value))
  | [] => .ok []
  | (k, j) :: ms => do
    let v ← decode j
    return (k, v) :: (← decodeMembers ms)

end

/-- The value of a marked text. -/
def parse (text : String) : Except TagError Value :=
  match Json.read text.toList with
  | .ok j => decode j.sorted
  | .error f => .error (.invalid parseTag ("malformed input: " ++ f.message text.toList))

end MarkedText
end MarkupEval
