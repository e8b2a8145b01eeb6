import MarkupEval.Html.Builder.Table

/-! # Reading tokens

The rules of the remaining modes, and reading a token, which may change the mode several times
before a rule takes it. -/

namespace MarkupEval
namespace Html
namespace Builder

/-! ## In a select element -/

def closeOptionGroup (b : Builder) : Builder := if b.currentIs "optgroup" then b.pop else b

/-- Closes the select element. -/
def closeSelect (b : Builder) : Builder := (b.popThrough ["select"]).resetMode

def startTagInSelect (tag : Tag) (b : Builder) : Step :=
  if tag.name = "option" then .done (b.closeOption.openTag tag)
  else if tag.name = "optgroup" then .done (b.closeOption.closeOptionGroup.openTag tag)
  else if tag.name = "hr" then .done (b.closeOption.closeOptionGroup.putTag tag)
  else if tag.name = "select" then .done (if b.inScope .select "select" then b.closeSelect else b)
  else if ["input", "keygen", "textarea"].contains tag.name then
    if b.inScope .select "select" then .again b.closeSelect else .done b
  else if ["script", "template"].contains tag.name then .done (b.startTagInBody tag)
  else .done b

/-- Closes a group of options and an option that is open inside it. -/
def endOptionGroup (b : Builder) : Builder :=
  let b := if b.currentIs "option" && b.pop.currentIs "optgroup" then b.pop else b
  b.closeOptionGroup

def endTagInSelect (tag : String) (b : Builder) : Step :=
  if tag = "optgroup" then .done b.endOptionGroup
  else if tag = "option" then .done b.closeOption
  else if tag = "select" then .done (if b.inScope .select "select" then b.closeSelect else b)
  else if tag = "template" then .done b.closeTemplate
  else .done b

def inSelect (t : Token) (b : Builder) : Step :=
  match t with
  | .char c => .done (if c = '\x00' then b else b.putChar c)
  | .startTag tag => b.startTagInSelect tag
  | .endTag tag => b.endTagInSelect tag
  | .comment => .done b.putComment
  | .nothing => .done b

/-- The tags of a table that end a select element inside it. -/
def selectEndTags : List String :=
  ["caption", "table", "tbody", "tfoot", "thead", "tr", "td", "th"]

def inSelectInTable (t : Token) (b : Builder) : Step :=
  match t with
  | .startTag tag => if selectEndTags.contains tag.name then .again b.closeSelect else b.inSelect t
  | .endTag tag =>
    if selectEndTags.contains tag then
      if b.inScope .table tag then .again b.closeSelect else .done b
    else b.inSelect t
  | _ => b.inSelect t

/-! ## In a template -/

/-- The mode that the first tag of a template's content chooses. -/
def templateMode (tag : String) : Mode :=
  if ["caption", "colgroup", "tbody", "tfoot", "thead"].contains tag then .table
  else if tag = "col" then .columnGroup
  else if tag = "tr" then .tableSection
  else if ElementName.cellTags.contains tag then .row
  else .body

/-- Tags of a template's content that leave the mode open. -/
def headTags : List String :=
  ["base", "basefont", "bgsound", "link", "meta", "noframes", "script", "style", "template",
   "title"]

def inTemplate (t : Token) (b : Builder) : Step :=
  match t with
  | .startTag tag =>
    if headTags.contains tag.name then .done (b.startTagInBody tag)
    else
      let mode := templateMode tag.name
      .again { b with mode, templateModes := mode :: b.templateModes.drop 1 }
  | .endTag tag => .done (if tag = "template" then b.closeTemplate else b)
  | _ => .done (b.inBody t)

/-! ## After the body -/

/-- Blanks still belong to the body, and anything else but a comment opens it again. -/
def afterBody (t : Token) (b : Builder) : Step :=
  match t with
  | .char c => if isSpace c then .done (b.inBody t) else .again (b.goTo .body)
  | .startTag tag => if tag.name = "html" then .done b else .again (b.goTo .body)
  | .endTag tag => if tag = "html" then .done (b.goTo .afterDocument) else .again (b.goTo .body)
  | .comment | .nothing => .done b

/-! ## In text that is not markup -/

def inText (back : Mode) (t : Token) (b : Builder) : Step :=
  match t with
  | .char c => .done (b.putChar c)
  | .endTag _ => .done { b.pop with mode := back, lexer := .markup }
  | _ => .done b

/-! ## All modes -/

def byMode (t : Token) (b : Builder) : Step :=
  match b.mode with
  | .body => .done (b.inBody t)
  | .table => b.inTable t
  | .caption => b.inCaption t
  | .columnGroup => b.inColumnGroup t
  | .tableSection => b.inTableSection t
  | .row => b.inRow t
  | .cell => b.inCell t
  | .select => b.inSelect t
  | .selectInTable => b.inSelectInTable t
  | .template => b.inTemplate t
  | .afterBody | .afterDocument => b.afterBody t
  | .text back => b.inText back t
  | .tableText back => b.inTableText back t

/-- Reads a token in foreign content. -/
def inForeign (t : Token) (b : Builder) : Step :=
  match t with
  | .char c => .done (b.putChar (shown c))
  | .startTag tag =>
    if Foreign.isBreakout tag then b.leaveForeign.byMode t
    else
      let space := b.current.name.space
      .done (b.openForeign ⟨space, Foreign.tagName space tag.name⟩ tag)
  | .endTag tag =>
    if tag = "br" || tag = "p" then b.leaveForeign.byMode t
    else
      match closeForeign? tag b.stack with
      | some stack => .done { b with stack }
      | none => b.byMode t
  | .comment => .done b.putComment
  | .nothing => .done b

def step (t : Token) (b : Builder) : Step :=
  if b.readsForeign t then b.inForeign t else b.byMode t

/-- Reads a token that may change the mode so many times. -/
def readWithin (t : Token) : Nat → Builder → Builder
  | 0, b => b
  | n + 1, b =>
    match b.step t with
    | .done b => b
    | .again b => readWithin t n b

/-- Reads a token. Every change of the mode closes an element or goes on to a mode inside; there
are never more than three of the latter in a row. -/
def read (b : Builder) (t : Token) : Builder :=
  let drops := b.dropsLineFeed
  let b := { b with dropsLineFeed := false }
  match t with
  | .nothing => b
  | .char '\n' => if drops then b else readWithin t (b.stack.length + 8) b
  | _ => readWithin t (b.stack.length + 8) b

/-- Ends the document. -/
def finish (b : Builder) : Builder :=
  match b.mode with
  | .tableText _ => b.placeTableText
  | _ => b

/-- Reads all of a text. -/
def readAll (b : Builder) (cs : List Char) : Builder :=
  match _h : b.lexer.next? (!b.current.name.isHtml) cs with
  | none => b.finish
  | some (ts, rest) => readAll (ts.foldl read b) rest
termination_by cs.length
decreasing_by exact Lexer.length_next? _h

end Builder
end Html
end MarkupEval
