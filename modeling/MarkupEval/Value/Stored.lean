import MarkupEval.Markup.Payload
import MarkupEval.Value.Basic

/-! # Stored values

The form in which results are kept. It is plain data: markup is an outline, a record is a list of
pairs, and of a transformer only the name is left, since an operation cannot be stored. Restoring
sets attributes and record entries one after the other and gives null for a transformer. -/

namespace MarkupEval

inductive Stored
  | null
  | boolean (b : Bool)
  | number (x : Binary64)
  | string (s : String)
  | text (s : String)
  | element (e : ElementOutline)
  | nodes (os : List Outline)
  | array (items : List Stored)
  | record (entries : List (String × Stored))
  | transformer (name : String)

namespace Stored

mutual

def ofValue : Value → Stored
  | .null => .null
  | .boolean b => .boolean b
  | .number x => .number x
  | .string s => .string s
  | .text s => .text s
  | .element e => .element (.ofElement e)
  | .nodes ns => .nodes (Outline.ofNodes ns)
  | .array items => .array (ofItems items)
  | .record entries => .record (ofEntries entries)
  | .transformer name _ _ => .transformer name

def ofItems : List Value → List Stored
  | [] => []
  | v :: vs => ofValue v :: ofItems vs

def ofEntries : List (String × Value) → List (String × Stored)
  | [] => []
  | (k, v) :: es => (k, ofValue v) :: ofEntries es

end

mutual

def toValue : Stored → Value
  | .null => .null
  | .boolean b => .boolean b
  | .number x => .number x
  | .string s => .string s
  | .text s => .text s
  | .element e => .element e.toElement
  | .nodes os => .nodes (Outline.toNodes os)
  | .array items => .array (toItems items)
  | .record entries => .record (Assoc.ofPairs (toEntries entries))
  | .transformer _ => .null

def toItems : List Stored → List Value
  | [] => []
  | s :: ss => toValue s :: toItems ss

def toEntries : List (String × Stored) → List (String × Value)
  | [] => []
  | (k, s) :: es => (k, toValue s) :: toEntries es

end

mutual

/-- Whether a transformer was stored, alone or inside an array or record. -/
def isOpaque : Stored → Bool
  | .transformer _ => true
  | .array items => anyOpaque items
  | .record entries => anyEntryOpaque entries
  | _ => false

def anyOpaque : List Stored → Bool
  | [] => false
  | s :: ss => isOpaque s || anyOpaque ss

def anyEntryOpaque : List (String × Stored) → Bool
  | [] => false
  | (_, s) :: es => isOpaque s || anyEntryOpaque es

end

end Stored
end MarkupEval
