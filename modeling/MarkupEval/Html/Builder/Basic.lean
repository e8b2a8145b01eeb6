import MarkupEval.Html.Forest
import MarkupEval.Html.Lexer

/-! # The state of reading a document

The builder keeps the forest, the stack of open elements, innermost first, and the formatting
elements that later text may have to be wrapped in again. What a token does depends on the mode,
which says in which part of a document or table the text stands. -/

namespace MarkupEval
namespace Html

structure OpenElement where
  slot : Nat
  name : ElementName
deriving DecidableEq

inductive FormattingEntry
  /-- Formatting does not cross a marker: it stands where a cell, a caption or the like begins. -/
  | marker
  | element (slot : Nat) (tag : Tag)

inductive Mode
  | body
  | table
  | caption
  | columnGroup
  | tableSection
  | row
  | cell
  | select
  | selectInTable
  | template
  | afterBody
  | afterDocument
  /-- In an element whose text is not markup. -/
  | text (back : Mode)
  /-- Gathering text between the parts of a table. -/
  | tableText (back : Mode)

structure Builder where
  forest : Forest
  /-- The open elements, innermost first. -/
  stack : List OpenElement
  /-- The latest entry first. -/
  formatting : List FormattingEntry := []
  mode : Mode := .body
  /-- The modes of the open templates, innermost first. -/
  templateModes : List Mode := []
  /-- The form that is open. -/
  form : Option Nat := none
  /-- Text between the parts of a table that is not placed yet. -/
  tableText : List Char := []
  /-- Whether content of a table that may not stand there goes in front of it. -/
  fostering : Bool := false
  /-- Whether a line feed that comes next is dropped. -/
  dropsLineFeed : Bool := false
  lexer : Lexer := .markup

namespace OpenElement

def isAmong (tags : List String) (e : OpenElement) : Bool := e.name.isAmong tags

end OpenElement

namespace Builder

/-! ## The start of a document -/

def documentSlot : Nat := 0

def rootSlot : Nat := 1

def bodySlot : Nat := 2

/-- The document with its root and an empty body. -/
def startForest : Forest :=
  let (root, forest) := Forest.empty.create (.element (.html "html") ∅)
  let (body, forest) := (forest.append documentSlot (.node root)).create (.element (.html "body") ∅)
  forest.append root (.node body)

/-- Reading starts in the body. -/
def start : Builder where
  forest := startForest
  stack := [⟨bodySlot, .html "body"⟩, ⟨rootSlot, .html "html"⟩]

/-! ## Open elements -/

/-- The innermost open element. -/
def current (b : Builder) : OpenElement := b.stack.headD ⟨rootSlot, .html "html"⟩

def currentIs (b : Builder) (tag : String) : Bool := b.current.name == .html tag

def currentIsAmong (b : Builder) (tags : List String) : Bool := b.current.isAmong tags

def push (e : OpenElement) (b : Builder) : Builder := { b with stack := e :: b.stack }

def pop (b : Builder) : Builder := { b with stack := b.stack.drop 1 }

/-- Closes elements while they satisfy a condition. -/
def popWhile (p : OpenElement → Bool) (b : Builder) : Builder :=
  { b with stack := b.stack.dropWhile p }

/-- Closes elements until one of the tags is innermost. -/
def popTo (tags : List String) (b : Builder) : Builder := b.popWhile (!·.isAmong tags)

/-- Closes elements up to and including the first one with one of the tags. -/
def popThrough (tags : List String) (b : Builder) : Builder := (b.popTo tags).pop

/-- Closes elements whose end tag may be left out, but none of the given tag. -/
def closeImplied (kept : String) (b : Builder) : Builder :=
  b.popWhile fun e => e.isAmong ElementName.impliedEndTags && e.name.tag != kept

def removeOpen (slot : Nat) (b : Builder) : Builder :=
  { b with stack := b.stack.filter (·.slot != slot) }

def isOpen (b : Builder) (slot : Nat) : Bool := b.stack.any (·.slot == slot)

def hasOpen (b : Builder) (tag : String) : Bool := b.stack.any (·.name == .html tag)

/-- Whether one of the open elements satisfies a condition before one bounds the scope. -/
def foundInScope (scope : Scope) (p : OpenElement → Bool) : List OpenElement → Bool
  | [] => false
  | e :: outer => p e || (!scope.isBoundedBy e.name && foundInScope scope p outer)

def inScope (b : Builder) (scope : Scope) (tag : String) : Bool :=
  foundInScope scope (·.name == .html tag) b.stack

def anyInScope (b : Builder) (scope : Scope) (tags : List String) : Bool :=
  foundInScope scope (·.isAmong tags) b.stack

/-! ## Putting nodes into the forest -/

/-- Where fostered content goes: in front of the innermost table, or into a template inside it. -/
def fosterPlace : List OpenElement → Place
  | [] => .lastIn rootSlot
  | e :: outer =>
    if e.isAmong ["template"] then .lastIn e.slot
    else if e.isAmong ["table"] then .aroundTable e.slot ((outer.head?.map (·.slot)).getD rootSlot)
    else fosterPlace outer

/-- Where content of an element goes. -/
def placeIn (b : Builder) (target : OpenElement) : Place :=
  if b.fostering && target.isAmong ElementName.tableStructureTags then fosterPlace b.stack
  else .lastIn target.slot

def put (piece : Piece) (b : Builder) : Builder :=
  { b with forest := b.forest.put piece (b.placeIn b.current) }

def putChar (c : Char) (b : Builder) : Builder := b.put (.text (String.singleton c))

def putComment (b : Builder) : Builder :=
  let (i, forest) := b.forest.create .comment
  { b with forest }.put (.node i)

/-- Puts in an element without opening it. -/
def putElement (name : ElementName) (attrs : Attributes) (b : Builder) : Builder :=
  let (i, forest) := b.forest.create (.element name attrs)
  { b with forest }.put (.node i)

/-- Puts in an element and opens it. -/
def openElement (name : ElementName) (attrs : Attributes) (b : Builder) : Builder :=
  (b.putElement name attrs).push ⟨b.forest.slots.size, name⟩

/-- Opens the HTML element of a tag. -/
def openTag (tag : Tag) (b : Builder) : Builder := b.openElement (.html tag.name) tag.attrs

/-- Puts in the HTML element of a tag, which stays empty. -/
def putTag (tag : Tag) (b : Builder) : Builder := b.putElement (.html tag.name) tag.attrs

/-- Opens an element for which there is no tag. -/
def openImplied (tag : String) (b : Builder) : Builder := b.openElement (.html tag) ∅

/-- Opens an element whose text is not markup. -/
def openText (lexer : Lexer) (tag : Tag) (b : Builder) : Builder :=
  { b.openTag tag with mode := .text b.mode, lexer }

/-! ## Modes -/

/-- The mode inside a select element. -/
def selectMode : List OpenElement → Mode
  | [] => .select
  | e :: outer =>
    if e.isAmong ["template"] then .select
    else if e.isAmong ["table"] then .selectInTable
    else selectMode outer

/-- The mode that belongs to the open elements. -/
def modeOf (templateModes : List Mode) : List OpenElement → Mode
  | [] => .body
  | e :: outer =>
    if e.isAmong ["select"] then selectMode outer
    else if e.isAmong ElementName.cellTags then .cell
    else if e.isAmong ["tr"] then .row
    else if e.isAmong ElementName.tableSectionTags then .tableSection
    else if e.isAmong ["caption"] then .caption
    else if e.isAmong ["colgroup"] then .columnGroup
    else if e.isAmong ["table"] then .table
    else if e.isAmong ["template"] then templateModes.headD .body
    else if e.isAmong ["body"] then .body
    else modeOf templateModes outer

/-- Goes to the mode that belongs to the open elements. -/
def resetMode (b : Builder) : Builder := { b with mode := modeOf b.templateModes b.stack }

def goTo (mode : Mode) (b : Builder) : Builder := { b with mode }

end Builder
end Html
end MarkupEval
