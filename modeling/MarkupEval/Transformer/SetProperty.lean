import MarkupEval.Text.Index
import MarkupEval.Transformer.Error
import MarkupEval.Value.Cast

/-! # Setting a property

Rebuilds a value with a new value at a path. Arrays, records, the children of an element and the
items of a list of nodes can be walked through; at the end of a path a string or text is addressed
by character. At the end an index may be the length, which appends. -/

namespace MarkupEval
namespace Value

/-- The tag that errors name. -/
def propertyTag : String := "setproperty"

/-- The segments of a path up to the one that is being looked at. -/
def walkedPath (walked : List String) (segment : String) : String :=
  String.intercalate "." (walked ++ [segment])

/-- The index that a segment gives, at most the length. -/
def indexAt (walked : List String) (segment : String) (length : Nat) : Except TagError Nat :=
  match Text.readIndex? segment.toList with
  | none => .error (.notNumeric propertyTag (walkedPath walked segment) segment)
  | some i =>
    if length < i then .error (.outOfRange propertyTag (walkedPath walked segment) i length)
    else .ok i

/-- The item that a segment inside a path goes through. -/
def itemAt {α : Type} (walked : List String) (segment : String) (items : List α) :
    Except TagError (Nat × α) := do
  let i ← indexAt walked segment items.length
  match items[i]? with
  | some x => return (i, x)
  | none => throw (.outOfRange propertyTag (walkedPath walked segment) i items.length)

/-- Puts new items in the place of one item, or after all. -/
def splice {α : Type} (items : List α) (i : Nat) (new : List α) : List α :=
  items.take i ++ new ++ items.drop (i + 1)

/-- Sets characters of a text. -/
def spliceText (s : String) (i : Nat) (new : String) : String :=
  String.ofList (splice s.toList i new.toList)

def notTraversable (walked : List String) (segment : String) (v : Value) : TagError :=
  .notTraversable propertyTag (walkedPath walked segment) v.kind

/-- Sets at the last segment of a path. -/
def setLast (w : Value) (walked : List String) (segment : String) : Value → Except TagError Value
  | .array items => do
    let i ← indexAt walked segment items.length
    return .array (splice items i [w])
  | .record entries => return .record (Assoc.insert segment w entries)
  | .element e => do
    let i ← indexAt walked segment e.children.length
    return .element { e with children := splice e.children i w.nodesOf }
  | .nodes ns => do
    let i ← indexAt walked segment ns.length
    return .nodes (splice ns i w.nodesOf)
  | .string s => do
    let i ← indexAt walked segment s.length
    return .string (spliceText s i w.stringOf)
  | .text s => do
    let i ← indexAt walked segment s.length
    return .text (spliceText s i w.stringOf)
  | v => throw (notTraversable walked segment v)

/-- Sets along the segments that are left of a path; `walked` are those before. -/
def setAlong (w : Value) (walked : List String) : List String → Value → Except TagError Value
  | [], _ => .ok w
  | [segment], v => setLast w walked segment v
  | segment :: rest, v =>
    let inside := setAlong w (walked ++ [segment]) rest
    match v with
    | .array items => do
      let (i, x) ← itemAt walked segment items
      return .array (splice items i [← inside x])
    | .record entries =>
      match Assoc.get? segment entries with
      | none => throw (.missingKey propertyTag (walkedPath walked segment) segment)
      | some x => do return .record (Assoc.insert segment (← inside x) entries)
    | .element e => do
      let (i, n) ← itemAt walked segment e.children
      return .element { e with children := splice e.children i (← inside (ofNode n)).nodesOf }
    | .nodes ns => do
      let (i, n) ← itemAt walked segment ns
      return .nodes (splice ns i (← inside (ofNode n)).nodesOf)
    | v => throw (notTraversable walked segment v)

/-- Sets the value at a path. -/
def setProperty (v : Value) (path : List String) (w : Value) : Except TagError Value :=
  setAlong w [] path v

end Value
end MarkupEval
