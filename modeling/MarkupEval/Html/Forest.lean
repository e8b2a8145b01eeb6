import MarkupEval.Html.ElementName
import MarkupEval.Markup.Node

/-! # The forest of a document in the making

While a document is read its nodes stand in numbered slots that are linked in both directions: a
slot knows its parent and its children. Nodes are created apart from the others, put in, moved and
taken out; a text that lands right after a text extends it. The first slot is the document. At the
end the tree below a slot is read off as a `Node`. -/

namespace MarkupEval
namespace Html

inductive SlotContent
  | document
  | element (name : ElementName) (attrs : Attributes)
  | text (content : String)
  /-- A comment: it keeps texts apart and is no part of the result. -/
  | comment

structure Slot where
  content : SlotContent
  parent : Option Nat := none
  children : List Nat := []

structure Forest where
  slots : Array Slot

/-- What is put into a forest: a node that has a slot, or a text that may not need one. -/
inductive Piece
  | node (slot : Nat)
  | text (content : String)

/-- Where a piece is put. -/
inductive Place
  | lastIn (parent : Nat)
  /-- Before the table, or last in the element around it if the table is not in the tree. -/
  | aroundTable (table outer : Nat)

namespace Forest

/-- The document alone. -/
def empty : Forest := ⟨#[{ content := .document }]⟩

def slot? (f : Forest) (i : Nat) : Option Slot := f.slots[i]?

def parent? (f : Forest) (i : Nat) : Option Nat := (f.slot? i).bind Slot.parent

def children (f : Forest) (i : Nat) : List Nat := ((f.slot? i).map Slot.children).getD []

def modify (f : Forest) (i : Nat) (change : Slot → Slot) : Forest := ⟨f.slots.modify i change⟩

/-- Gives a new node a slot of its own; it has no parent yet. -/
def create (f : Forest) (content : SlotContent) : Nat × Forest :=
  (f.slots.size, ⟨f.slots.push { content }⟩)

/-! ## Putting in and taking out -/

/-- Takes a node from its parent. -/
def detach (f : Forest) (i : Nat) : Forest :=
  match f.parent? i with
  | none => f
  | some p =>
    (f.modify i fun s => { s with parent := none }).modify p
      fun s => { s with children := s.children.filter (· != i) }

/-- The position before a sibling; the last one if there is no such sibling. -/
def position (children : List Nat) : Option Nat → Nat
  | some sibling => children.idxOf sibling
  | none => children.length

/-- Links a node without a parent under a parent. -/
def link (f : Forest) (parent : Nat) (before : Option Nat) (i : Nat) : Forest :=
  (f.modify parent fun s =>
      { s with children := s.children.insertIdx (position s.children before) i }).modify i
    fun s => { s with parent := some parent }

/-- The text node right before a position among the children of a node. -/
def textBefore? (f : Forest) (parent : Nat) (before : Option Nat) : Option (Nat × String) :=
  let children := f.children parent
  match position children before with
  | 0 => none
  | n + 1 =>
    match children[n]? with
    | none => none
    | some i =>
      match f.slot? i with
      | some ⟨.text s, _, _⟩ => some (i, s)
      | _ => none

def insert (f : Forest) (parent : Nat) (before : Option Nat) : Piece → Forest
  | .node i => (f.detach i).link parent before i
  | .text s =>
    match f.textBefore? parent before with
    | some (i, old) => f.modify i fun slot => { slot with content := .text (old ++ s) }
    | none =>
      let (i, f) := f.create (.text s)
      f.link parent before i

/-- Puts a piece last under a parent. -/
def append (f : Forest) (parent : Nat) (piece : Piece) : Forest := f.insert parent none piece

/-- Puts a piece before a sibling; one that is not in the tree has no place before it. -/
def insertBefore (f : Forest) (sibling : Nat) (piece : Piece) : Forest :=
  match f.parent? sibling with
  | some parent => f.insert parent (some sibling) piece
  | none => f

def put (f : Forest) (piece : Piece) : Place → Forest
  | .lastIn parent => f.append parent piece
  | .aroundTable table outer =>
    if (f.parent? table).isSome then f.insertBefore table piece else f.append outer piece

/-- Moves all children of a node to the end of another one. -/
def moveChildren (f : Forest) (source target : Nat) : Forest :=
  let moved := f.children source
  let f := f.modify source fun s => { s with children := [] }
  let f := moved.foldl (fun f i => f.modify i fun s => { s with parent := some target }) f
  f.modify target fun s => { s with children := s.children ++ moved }

/-- Gives an element the attributes that it does not have yet. -/
def addAttributes (f : Forest) (i : Nat) (attrs : Attributes) : Forest :=
  f.modify i fun s =>
    match s.content with
    | .element name old => { s with content := .element name (old.addNew attrs.entries) }
    | _ => s

/-! ## Reading off -/

/-- The tree below a slot that is at most so many levels deep. -/
def nodeWithin (f : Forest) : Nat → Nat → Option Node
  | 0, _ => none
  | depth + 1, i =>
    match f.slot? i with
    | some ⟨.element name attrs, _, children⟩ =>
      some (.element name.tag attrs (children.filterMap (f.nodeWithin depth)))
    | some ⟨.text s, _, _⟩ => some (.text s)
    | _ => none

/-- The tree below a slot: no path is longer than the number of slots. -/
def node? (f : Forest) (i : Nat) : Option Node := f.nodeWithin f.slots.size i

end Forest
end Html
end MarkupEval
