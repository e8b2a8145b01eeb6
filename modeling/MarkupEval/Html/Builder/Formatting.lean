import MarkupEval.Html.Builder.Basic

/-! # Formatting elements

Formatting elements may be closed in another order than they were opened. Those that were closed by
the end of an element around them are opened again for the text that follows (`reopenFormatting`),
and an end tag that meets an element that holds blocks splits the formatting (`closeFormatting`). -/

namespace MarkupEval
namespace Html

namespace FormattingEntry

def isMarker : FormattingEntry → Bool
  | .marker => true
  | .element .. => false

def isAt (slot : Nat) : FormattingEntry → Bool
  | .marker => false
  | .element i _ => i == slot

/-- Whether an entry was made by a tag of the same name with the same attributes. -/
def isLike (tag : Tag) : FormattingEntry → Bool
  | .marker => false
  | .element _ old => old.name == tag.name && old.attrs.same tag.attrs

end FormattingEntry

namespace Builder

/-! ## The list of entries -/

/-- The entries after the last marker, the latest first. -/
def openFormatting (b : Builder) : List FormattingEntry := b.formatting.takeWhile (!·.isMarker)

def pushMarker (b : Builder) : Builder := { b with formatting := .marker :: b.formatting }

/-- Drops the entries back to the last marker and the marker itself. -/
def clearToMarker (b : Builder) : Builder :=
  { b with formatting := (b.formatting.dropWhile (!·.isMarker)).drop 1 }

def hasFormatting (b : Builder) (slot : Nat) : Bool := b.formatting.any (·.isAt slot)

def removeFormatting (slot : Nat) (b : Builder) : Builder :=
  { b with formatting := b.formatting.filter (!·.isAt slot) }

/-- The latest entry of a tag after the last marker. -/
def findFormatting? (tag : String) : List FormattingEntry → Option (Nat × Tag)
  | .element slot t :: entries =>
    if t.name = tag then some (slot, t) else findFormatting? tag entries
  | _ => none

/-- Makes room for an entry: of entries that are alike there are never more than three, and the
earliest one goes. -/
def makeRoom (tag : Tag) (b : Builder) : List FormattingEntry :=
  let entries := b.openFormatting
  if 3 ≤ entries.countP (·.isLike tag) then
    (entries.reverse.eraseP (·.isLike tag)).reverse ++ b.formatting.dropWhile (!·.isMarker)
  else b.formatting

/-- Opens a formatting element. -/
def openFormattingTag (tag : Tag) (b : Builder) : Builder :=
  { b.openTag tag with formatting := .element b.forest.slots.size tag :: b.makeRoom tag }

/-! ## Opening again -/

def isSettled (b : Builder) : FormattingEntry → Bool
  | .marker => true
  | .element slot _ => b.isOpen slot

def reopen (b : Builder) : FormattingEntry → Builder
  | .marker => b
  | .element _ tag =>
    { b.openTag tag with formatting := .element b.forest.slots.size tag :: b.formatting }

/-- Opens the formatting elements again that were closed since the last one that is still open. -/
def reopenFormatting (b : Builder) : Builder :=
  let missing := b.formatting.takeWhile (!b.isSettled ·)
  missing.reverse.foldl reopen { b with formatting := b.formatting.dropWhile (!b.isSettled ·) }

/-! ## Closing -/

/-- The open elements that are left when the innermost element of a tag is closed; none if a special
element is open inside it. -/
def closing? (tag : String) : List OpenElement → Option (List OpenElement)
  | [] => none
  | e :: outer =>
    if e.name = .html tag then some outer
    else if e.isAmong ElementName.specialTags then none
    else closing? tag outer

/-- Closes an element without rules of its own. -/
def closeOther (tag : String) (b : Builder) : Builder :=
  match closing? tag b.stack with
  | some stack => { b with stack }
  | none => b

/-- The state of rebuilding the elements between a formatting element and a block inside it. -/
structure Rebuild where
  builder : Builder
  /-- The outermost node that is rebuilt so far. -/
  last : Nat
  /-- How many elements were looked at. -/
  count : Nat := 0
  /-- The rebuilt elements, innermost first. -/
  kept : List OpenElement := []
  /-- The entry after which the new entry comes. -/
  after : Option Nat := none

/-- Rebuilds the next element outwards. It goes away if it does not format, or if it is the fourth
one or later; otherwise a copy of it takes its place and takes in what is rebuilt so far. -/
def Rebuild.step (block : Nat) (r : Rebuild) (e : OpenElement) : Rebuild :=
  let count := r.count + 1
  if 3 < count then { r with builder := r.builder.removeFormatting e.slot, count }
  else
    match r.builder.formatting.find? (·.isAt e.slot) with
    | some (.element _ tag) =>
      let b := r.builder
      let (copy, forest) := b.forest.create (.element (.html tag.name) tag.attrs)
      let formatting := b.formatting.map fun entry =>
        if entry.isAt e.slot then .element copy tag else entry
      { builder := { b with forest := forest.append copy (.node r.last), formatting }
        last := copy
        count
        kept := r.kept ++ [⟨copy, .html tag.name⟩]
        after := if r.last = block then some copy else r.after }
    | _ => { r with count }

/-- Puts the new entry right after another one, or in the place of the old one. -/
def replaceEntry (old : Nat) (new : FormattingEntry) (after : Option Nat)
    (entries : List FormattingEntry) : List FormattingEntry :=
  match after with
  | none => entries.map fun e => if e.isAt old then new else e
  | some slot =>
    (entries.flatMap fun e => if e.isAt slot then [new, e] else [e]).filter (!·.isAt old)

/-- Splits a formatting element at a block inside it: the block moves out in front of what is
around the formatting element, and the content of the block gets a formatting element of its own.
`deeper` are the elements inside the block and `between` those around it, innermost first. -/
def split (slot : Nat) (tag : Tag) (deeper : List OpenElement) (block : OpenElement)
    (between outer : List OpenElement) (b : Builder) : Builder :=
  let r := between.foldl (Rebuild.step block.slot) { builder := b, last := block.slot }
  let b := r.builder
  let ancestor := outer.headD ⟨rootSlot, .html "html"⟩
  let forest := (b.forest.detach r.last).put (.node r.last) (b.placeIn ancestor)
  let (copy, forest) := forest.create (.element (.html tag.name) tag.attrs)
  let forest := (forest.moveChildren block.slot copy).append block.slot (.node copy)
  { b with
    forest
    formatting := replaceEntry slot (.element copy tag) r.after b.formatting
    stack := deeper ++ ⟨copy, .html tag.name⟩ :: block :: r.kept ++ outer }

/-- The innermost-first elements before the last special one, that element and those after it. -/
def lastSpecial? (inner : List OpenElement) :
    Option (List OpenElement × OpenElement × List OpenElement) :=
  let between := inner.reverse.takeWhile (!·.isAmong ElementName.specialTags)
  match inner.reverse.dropWhile (!·.isAmong ElementName.specialTags) with
  | [] => none
  | block :: deeper => some (deeper.reverse, block, between.reverse)

/-- Closes the formatting elements of a tag, in so many rounds. -/
def closeFormattingRounds (tag : String) : Nat → Builder → Builder
  | 0, b => b
  | n + 1, b =>
    match findFormatting? tag b.openFormatting with
    | none => b.closeOther tag
    | some (slot, t) =>
      let inner := b.stack.takeWhile (·.slot != slot)
      match b.stack.dropWhile (·.slot != slot) with
      | [] => b.removeFormatting slot
      | _ :: outer =>
        if !foundInScope .default (·.slot == slot) b.stack then b
        else
          match lastSpecial? inner with
          | none => { b.removeFormatting slot with stack := outer }
          | some (deeper, block, between) =>
            closeFormattingRounds tag n (b.split slot t deeper block between outer)

/-- Closes a formatting element. -/
def closeFormatting (tag : String) (b : Builder) : Builder :=
  if b.currentIs tag && !b.hasFormatting b.current.slot then b.pop
  else closeFormattingRounds tag 8 b

/-- Closes a link that is still open before another one is opened. -/
def closeLink (b : Builder) : Builder :=
  match findFormatting? "a" b.openFormatting with
  | none => b
  | some (slot, _) => ((b.closeFormatting "a").removeFormatting slot).removeOpen slot

end Builder
end Html
end MarkupEval
