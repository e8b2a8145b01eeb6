import MarkupEval.Assoc
import MarkupEval.Markup.Node
import MarkupEval.Number.Layout

/-! # Values

What a markup tree evaluates to. Besides the scalars, arrays and records of any data language there
are three shapes of markup (a text, an element and a list of sibling nodes) and transformers, the
named operations that edit what is accumulated instead of adding to it. -/

namespace MarkupEval

/-- The shapes of values, by which nodes of a tree are classified too. -/
inductive Kind
  | null
  | boolean
  | number
  | string
  | text
  | element
  | nodes
  | array
  | record
  | transformer
deriving DecidableEq, Repr

namespace Kind

def name : Kind → String
  | .null => "null"
  | .boolean => "boolean"
  | .number => "number"
  | .string => "string"
  | .text => "text"
  | .element => "element"
  | .nodes => "nodelist"
  | .array => "array"
  | .record => "record"
  | .transformer => "transformer"

/-- The kinds that a tag of their name forces on a node. -/
def typers : List Kind := [.null, .boolean, .number, .string, .text, .nodes, .array, .record]

/-- The kind that a tag in lower case forces. -/
def ofTyperTag? (tag : String) : Option Kind := typers.find? (·.name == tag)

theorem name_injective {k l : Kind} (h : k.name = l.name) : k = l := by
  cases k <;> cases l <;> first | rfl | exact absurd h (by decide)

end Kind

/-- Smart tags: operations that check their main value, then their arguments, and then compute. -/
inductive SmartTag
  | replace
  | setAttribute
  | setProperty
  | stringify
  | parse
  | suffix
deriving DecidableEq, Repr

/-- What a transformer does. The first four groups are the operations of markup documents; the
diagnostic ones reach outcomes that those never have. -/
inductive Operation
  /-- Converts the accumulator to a kind. -/
  | convert (target : Kind)
  /-- Merges the value at the path that the first argument gives. -/
  | reference
  | smart (tag : SmartTag)
  /-- Leaves the accumulator as it is. -/
  | idle
  /-- Merges the first argument. -/
  | mergeFirst
  /-- Replaces the accumulator by the first argument. -/
  | emitFirst
  /-- Fails with the text of the first argument. -/
  | failWithFirst
  /-- Replaces the accumulator by an array that holds it and a transformer. -/
  | wrapOpaque
  /-- Merges the first argument twice, by position and by name. -/
  | mergeTwice
  /-- Replaces the accumulator by the value at the path that the first argument spells. -/
  | peekFirst
  /-- Replaces the accumulator by the number of arguments. -/
  | countArguments
deriving DecidableEq, Repr

inductive Value
  | null
  | boolean (b : Bool)
  | number (x : Binary64)
  | string (s : String)
  /-- A text of markup. -/
  | text (s : String)
  | element (e : Element)
  /-- Sibling nodes in order. -/
  | nodes (ns : List Node)
  | array (items : List Value)
  /-- Entries in the order of their first insertion. -/
  | record (entries : List (String × Value))
  | transformer (name : String) (args : List Value) (operation : Operation)

instance : Inhabited Value := ⟨.null⟩

/-- A named operation with its arguments. -/
structure Transformer where
  name : String
  args : List Value
  operation : Operation

def Transformer.toValue (t : Transformer) : Value := .transformer t.name t.args t.operation

namespace Value

def kind : Value → Kind
  | .null => .null
  | .boolean _ => .boolean
  | .number _ => .number
  | .string _ => .string
  | .text _ => .text
  | .element _ => .element
  | .nodes _ => .nodes
  | .array _ => .array
  | .record _ => .record
  | .transformer .. => .transformer

/-- A text, an element or a list of nodes. -/
def isMarkup : Value → Bool
  | .text _ | .element _ | .nodes _ => true
  | _ => false

def ofNode : Node → Value
  | .text s => .text s
  | .element tag attrs children => .element ⟨tag, attrs, children⟩

@[simp] theorem isMarkup_ofNode (n : Node) : (ofNode n).isMarkup = true := by cases n <;> rfl

def string? : Value → Option String
  | .string s => some s
  | _ => none

def array? : Value → Option (List Value)
  | .array items => some items
  | _ => none

def record? : Value → Option (List (String × Value))
  | .record entries => some entries
  | _ => none

def transformer? : Value → Option Transformer
  | .transformer name args operation => some ⟨name, args, operation⟩
  | _ => none

/-- The record that setting the pairs one after the other gives. -/
def ofPairs (ps : List (String × Value)) : Value := .record (Assoc.ofPairs ps)

/-! ## Equality -/

mutual

/-- Equality as data: records are compared without regard to the order of their keys and elements
without regard to the order of their attributes; not-a-numbers are equal to each other, and so are
the zeros. A transformer is equal to nothing. -/
def same : Value → Value → Bool
  | .null, .null => true
  | .boolean a, .boolean b => a == b
  | .number x, .number y => x.same y
  | .string s, .string t => s == t
  | .text s, .text t => s == t
  | .element a, .element b => a.same b
  | .nodes ns, .nodes ms => Node.sameList ns ms
  | .array xs, .array ys => sameItems xs ys
  | .record es, .record fs => es.length == fs.length && sameEntries es fs
  | _, _ => false

def sameItems : List Value → List Value → Bool
  | [], [] => true
  | x :: xs, y :: ys => same x y && sameItems xs ys
  | _, _ => false

/-- Each entry has an equal partner under its key. -/
def sameEntries : List (String × Value) → List (String × Value) → Bool
  | [], _ => true
  | (k, v) :: es, fs =>
    (match Assoc.get? k fs with
      | some w => same v w
      | none => false) && sameEntries es fs

end

instance : BEq Value := ⟨same⟩

/-! ## Well-formed values -/

mutual

/-- No record holds a key twice, at any depth. -/
def WellFormed : Value → Prop
  | .array items => AllWellFormed items
  | .record entries => (Assoc.keys entries).Nodup ∧ EntriesWellFormed entries
  | .transformer _ args _ => AllWellFormed args
  | _ => True

def AllWellFormed : List Value → Prop
  | [] => True
  | v :: vs => WellFormed v ∧ AllWellFormed vs

def EntriesWellFormed : List (String × Value) → Prop
  | [] => True
  | (_, v) :: es => WellFormed v ∧ EntriesWellFormed es

end

end Value
end MarkupEval
