import MarkupEval.Html.Builder.Foreign
import MarkupEval.Html.Builder.Formatting
import MarkupEval.Html.Builder.Rule

/-! # Rules in a body

What a token does in ordinary content. -/

namespace MarkupEval
namespace Html
namespace Builder

/-! ## Closing -/

/-- Closes all elements whose end tag may be left out. -/
def closeAllImplied (b : Builder) : Builder := b.popWhile (·.isAmong ElementName.impliedEndTags)

/-- Closes the innermost element with one of the tags and what is open inside it. -/
def closeThrough (tags : List String) (b : Builder) : Builder := b.closeAllImplied.popThrough tags

/-- Closes an item of which items of its kind may not be part. -/
def closeItem (tag : String) (b : Builder) : Builder := (b.closeImplied tag).popThrough [tag]

/-- Closes an open paragraph. -/
def closeParagraph (b : Builder) : Builder :=
  if b.inScope .button "p" then b.closeItem "p" else b

/-- The open item that a new item of the same kind closes. -/
def itemToClose? (tags : List String) : List OpenElement → Option String
  | [] => none
  | e :: outer =>
    if e.isAmong tags then some e.name.tag
    else if e.isAmong ElementName.specialTags && !e.isAmong ["address", "div", "p"] then none
    else itemToClose? tags outer

/-- Opens an item of a list; an open item of the list ends. -/
def openItem (kinds : List String) (tag : Tag) (b : Builder) : Builder :=
  let b :=
    match itemToClose? kinds b.stack with
    | some item => b.closeItem item
    | none => b
  b.closeParagraph.openTag tag

/-! ## Start tags -/

/-- Gives the body, if it is still open, the attributes that it does not have yet. -/
def addToBody (attrs : Attributes) (b : Builder) : Builder :=
  if b.hasOpen "template" || !b.isOpen bodySlot then b
  else { b with forest := b.forest.addAttributes bodySlot attrs }

def openForm (tag : Tag) (b : Builder) : Builder :=
  if b.hasOpen "template" then b.closeParagraph.openTag tag
  else if b.form.isSome then b
  else
    let b := b.closeParagraph
    { b.openTag tag with form := some b.forest.slots.size }

/-- Whether a template stands for a shadow tree of the element around it. -/
def isShadowTree (tag : Tag) : Bool :=
  (tag.attrs.get? "shadowrootmode").any fun mode => mode == "open" || mode == "closed"

/-- Goes on by the rules for the content of a template. A template that stands for a shadow tree is
no element of its own: what it holds lands in the element around it. -/
def openTemplate (tag : Tag) (b : Builder) : Builder :=
  let b := b.pushMarker
  let b := if isShadowTree tag then b else b.openTag tag
  { b with mode := .template, templateModes := .template :: b.templateModes }

def openSelect (tag : Tag) (b : Builder) : Builder :=
  let mode :=
    match b.mode with
    | .table | .caption | .tableSection | .row | .cell => .selectInTable
    | _ => .select
  (b.reopenFormatting.openTag tag).goTo mode

/-- Opens a formatting element that may not be inside another one of its tag. -/
def openExclusive (tag : Tag) (b : Builder) : Builder :=
  let b := b.reopenFormatting
  let b :=
    if b.inScope .default tag.name then (b.closeFormatting tag.name).reopenFormatting else b
  b.openFormattingTag tag

def openHeading (tag : Tag) (b : Builder) : Builder :=
  let b := b.closeParagraph
  let b := if b.currentIsAmong ElementName.headingTags then b.pop else b
  b.openTag tag

def openButton (tag : Tag) (b : Builder) : Builder :=
  let b := if b.inScope .default "button" then b.closeThrough ["button"] else b
  b.reopenFormatting.openTag tag

def closeOption (b : Builder) : Builder := if b.currentIs "option" then b.pop else b

/-- Puts in an element without content, wrapped in the formatting that is open. -/
def putVoid (tag : Tag) (b : Builder) : Builder := b.reopenFormatting.putTag tag

def startTagInBody (tag : Tag) (b : Builder) : Builder :=
  match StartRule.of tag.name with
  | .other => b.reopenFormatting.openTag tag
  | .ignored => b
  | .body => b.addToBody tag.attrs
  | .lone => b.putTag tag
  | .void => b.putVoid tag
  | .separator => b.closeParagraph.putTag tag
  | .block => b.closeParagraph.openTag tag
  | .heading => b.openHeading tag
  | .preformatted => { b.closeParagraph.openTag tag with dropsLineFeed := true }
  | .form => b.openForm tag
  | .listItem => b.openItem ["li"] tag
  | .definition => b.openItem ["dd", "dt"] tag
  | .plaintext => { b.closeParagraph.openTag tag with lexer := .plain }
  | .button => b.openButton tag
  | .link => b.closeLink.reopenFormatting.openFormattingTag tag
  | .formatting => b.reopenFormatting.openFormattingTag tag
  | .exclusiveFormatting => b.openExclusive tag
  | .embedded => (b.reopenFormatting.openTag tag).pushMarker
  | .table => (b.openTag tag).goTo .table
  | .image => b.putVoid { tag with name := "img" }
  | .rawText => b.openText (.raw tag.name) tag
  | .rawBlock => b.closeParagraph.reopenFormatting.openText (.raw tag.name) tag
  | .escapableText => b.openText (.escapable tag.name) tag
  | .textArea => { b.openText (.escapable tag.name) tag with dropsLineFeed := true }
  | .script => b.openText .script tag
  | .template => b.openTemplate tag
  | .select => b.openSelect tag
  | .option => b.closeOption.reopenFormatting.openTag tag
  | .rubyBase => (if b.inScope .default "ruby" then b.closeAllImplied else b).openTag tag
  | .rubyText => (if b.inScope .default "ruby" then b.closeImplied "rtc" else b).openTag tag
  | .formula => b.openForeign ⟨.mathml, tag.name⟩ tag
  | .drawing => b.openForeign ⟨.svg, tag.name⟩ tag

/-! ## End tags -/

/-- Closes the form that is open; what is open inside it stays open. -/
def closeForm (b : Builder) : Builder :=
  if b.hasOpen "template" then
    if b.inScope .default "form" then b.closeThrough ["form"] else b
  else
    match b.form with
    | none => b
    | some slot =>
      let b := { b with form := none }
      if foundInScope .default (·.slot == slot) b.stack then b.closeAllImplied.removeOpen slot
      else b

def closeTemplate (b : Builder) : Builder :=
  if b.hasOpen "template" then
    let b := b.popWhile (·.isAmong ElementName.allImpliedEndTags)
    let b := (b.popThrough ["template"]).clearToMarker
    { b with templateModes := b.templateModes.drop 1 }.resetMode
  else b

def endTagInBody (tag : String) (b : Builder) : Builder :=
  match EndRule.of tag with
  | .other => b.closeOther tag
  | .document => if b.inScope .default "body" then b.goTo .afterDocument else b
  | .body => if b.inScope .default "body" then b.goTo .afterBody else b
  | .block => if b.inScope .default tag then b.closeThrough [tag] else b
  | .form => b.closeForm
  | .paragraph => (if b.inScope .button "p" then b else b.openImplied "p").closeItem "p"
  | .listItem => if b.inScope .listItem tag then b.closeItem tag else b
  | .definition => if b.inScope .default tag then b.closeItem tag else b
  | .heading =>
    if b.anyInScope .default ElementName.headingTags then b.closeThrough ElementName.headingTags
    else b
  | .formatting => b.closeFormatting tag
  | .embedded => if b.inScope .default tag then (b.closeThrough [tag]).clearToMarker else b
  | .lineBreak => b.putVoid { name := tag }
  | .template => b.closeTemplate

/-! ## All tokens -/

def inBody (t : Token) (b : Builder) : Builder :=
  match t with
  | .char c => if c = '\x00' then b else b.reopenFormatting.putChar c
  | .startTag tag => b.startTagInBody tag
  | .endTag tag => b.endTagInBody tag
  | .comment => b.putComment
  | .nothing => b

/-- Reads a token by the rules of a body in front of the table that is open. -/
def fostered (t : Token) (b : Builder) : Builder :=
  { inBody t { b with fostering := true } with fostering := false }

end Builder
end Html
end MarkupEval
