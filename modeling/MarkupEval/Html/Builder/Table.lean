import MarkupEval.Html.Builder.Body

/-! # Rules in tables

The parts of a table imply each other: a cell outside a row opens a row, and a row inside a cell
closes the cell. Everything else between the parts goes in front of the table. -/

namespace MarkupEval
namespace Html

/-- What a token leads to: it is read, or it is to be read again in a new state. -/
inductive Step
  | done (b : Builder)
  | again (b : Builder)

namespace Builder

/-! ## Text between the parts of a table -/

/-- Places the gathered text: blanks stay in the table, all other text goes in front of it. -/
def placeTableText (b : Builder) : Builder :=
  let text := b.tableText
  let b := { b with tableText := [] }
  if text.all isSpace then text.foldl (fun b c => b.putChar c) b
  else text.foldl (fun b c => b.fostered (.char c)) b

def inTableText (back : Mode) (t : Token) (b : Builder) : Step :=
  match t with
  | .char c => .done (if c = '\x00' then b else { b with tableText := b.tableText ++ [c] })
  | _ => .again (b.placeTableText.goTo back)

/-! ## Directly in a table -/

def isHidden (tag : Tag) : Bool := (tag.attrs.get? "type").any (Text.lower · == "hidden")

/-- Closes what is open inside the innermost table part that is one of the tags, or inside the
template or document around it. -/
def clearTo (tags : List String) (b : Builder) : Builder := b.popTo (tags ++ ["template", "html"])

def startTagInTable (tag : Tag) (b : Builder) : Step :=
  if tag.name = "caption" then .done (((b.clearTo ["table"]).pushMarker.openTag tag).goTo .caption)
  else if tag.name = "colgroup" then .done (((b.clearTo ["table"]).openTag tag).goTo .columnGroup)
  else if tag.name = "col" then
    .again (((b.clearTo ["table"]).openImplied "colgroup").goTo .columnGroup)
  else if ElementName.tableSectionTags.contains tag.name then
    .done (((b.clearTo ["table"]).openTag tag).goTo .tableSection)
  else if ["td", "th", "tr"].contains tag.name then
    .again (((b.clearTo ["table"]).openImplied "tbody").goTo .tableSection)
  else if tag.name = "table" then
    if b.inScope .table "table" then .again (b.popThrough ["table"]).resetMode else .done b
  else if ["style", "script", "template"].contains tag.name then .done (b.startTagInBody tag)
  else if tag.name = "input" && isHidden tag then .done (b.putTag tag)
  else if tag.name = "form" then
    if b.hasOpen "template" || b.form.isSome then .done b
    else .done { b.putTag tag with form := some b.forest.slots.size }
  else .done (b.fostered (.startTag tag))

def endTagInTable (tag : String) (b : Builder) : Step :=
  if tag = "table" then
    .done (if b.inScope .table "table" then (b.popThrough ["table"]).resetMode else b)
  else if
      ["body", "caption", "col", "colgroup", "html", "tbody", "td", "tfoot", "th", "thead",
       "tr"].contains tag then
    .done b
  else if tag = "template" then .done b.closeTemplate
  else .done (b.fostered (.endTag tag))

def inTable (t : Token) (b : Builder) : Step :=
  match t with
  | .char _ =>
    if b.currentIsAmong ElementName.tableStructureTags then .again (b.goTo (.tableText b.mode))
    else .done (b.fostered t)
  | .startTag tag => b.startTagInTable tag
  | .endTag tag => b.endTagInTable tag
  | .comment => .done b.putComment
  | .nothing => .done b

/-! ## In a caption -/

/-- Closes the caption; a tag that does not close the caption alone is read again. -/
def closeCaption (isOwn : Bool) (b : Builder) : Step :=
  if b.inScope .table "caption" then
    let b := ((b.closeThrough ["caption"]).clearToMarker).goTo .table
    if isOwn then .done b else .again b
  else .done b

def inCaption (t : Token) (b : Builder) : Step :=
  match t with
  | .startTag tag =>
    if
        ["caption", "col", "colgroup", "tbody", "td", "tfoot", "th", "thead", "tr"].contains
          tag.name then
      b.closeCaption false
    else .done (b.inBody t)
  | .endTag tag =>
    if tag = "caption" || tag = "table" then b.closeCaption (tag = "caption")
    else if
        ["body", "col", "colgroup", "html", "tbody", "td", "tfoot", "th", "thead", "tr"].contains
          tag then
      .done b
    else .done (b.inBody t)
  | _ => .done (b.inBody t)

/-! ## In a group of columns -/

/-- Closes the group of columns for a token that does not belong to it. -/
def leaveColumnGroup (b : Builder) : Step :=
  if b.currentIs "colgroup" then .again (b.pop.goTo .table) else .done b

def inColumnGroup (t : Token) (b : Builder) : Step :=
  match t with
  | .char c => if isSpace c then .done (b.putChar c) else b.leaveColumnGroup
  | .startTag tag =>
    if tag.name = "html" then .done b
    else if tag.name = "col" then .done (b.putTag tag)
    else if tag.name = "template" then .done (b.openTemplate tag)
    else b.leaveColumnGroup
  | .endTag tag =>
    if tag = "colgroup" then .done (if b.currentIs "colgroup" then b.pop.goTo .table else b)
    else if tag = "col" then .done b
    else if tag = "template" then .done b.closeTemplate
    else b.leaveColumnGroup
  | .comment => .done b.putComment
  | .nothing => .done b

/-! ## In a section of rows -/

def clearToSection (b : Builder) : Builder := b.clearTo ElementName.tableSectionTags

/-- Closes the section for a token that ends it. -/
def leaveSection (b : Builder) : Step :=
  if b.anyInScope .table ["table", "tbody", "tfoot"] then
    .again (b.clearToSection.pop.goTo .table)
  else .done b

def inTableSection (t : Token) (b : Builder) : Step :=
  match t with
  | .startTag tag =>
    if tag.name = "tr" then .done ((b.clearToSection.openTag tag).goTo .row)
    else if ElementName.cellTags.contains tag.name then
      .again ((b.clearToSection.openImplied "tr").goTo .row)
    else if ["caption", "col", "colgroup", "tbody", "tfoot", "thead"].contains tag.name then
      b.leaveSection
    else b.inTable t
  | .endTag tag =>
    if ElementName.tableSectionTags.contains tag then
      .done (if b.inScope .table tag then b.clearToSection.pop.goTo .table else b)
    else if tag = "table" then b.leaveSection
    else if ["body", "caption", "col", "colgroup", "html", "td", "th", "tr"].contains tag then
      .done b
    else b.inTable t
  | _ => b.inTable t

/-! ## In a row -/

def clearToRow (b : Builder) : Builder := b.clearTo ["tr"]

/-- Closes the row for a token that ends it. -/
def leaveRow (b : Builder) : Step :=
  if b.inScope .table "tr" then .again (b.clearToRow.pop.goTo .tableSection) else .done b

def inRow (t : Token) (b : Builder) : Step :=
  match t with
  | .startTag tag =>
    if ElementName.cellTags.contains tag.name then
      .done ((b.clearToRow.openTag tag).goTo .cell).pushMarker
    else if ["caption", "col", "colgroup", "tbody", "tfoot", "thead", "tr"].contains tag.name then
      b.leaveRow
    else b.inTable t
  | .endTag tag =>
    if tag = "tr" then
      .done (if b.inScope .table "tr" then b.clearToRow.pop.goTo .tableSection else b)
    else if tag = "table" then b.leaveRow
    else if ElementName.tableSectionTags.contains tag then
      if b.inScope .table tag then b.leaveRow else .done b
    else if ["body", "caption", "col", "colgroup", "html", "td", "th"].contains tag then .done b
    else b.inTable t
  | _ => b.inTable t

/-! ## In a cell -/

def closeCell (b : Builder) : Builder :=
  (b.closeThrough ElementName.cellTags).clearToMarker.goTo .row

def inCell (t : Token) (b : Builder) : Step :=
  match t with
  | .startTag tag =>
    if
        ["caption", "col", "colgroup", "tbody", "td", "tfoot", "th", "thead", "tr"].contains
          tag.name then
      if b.anyInScope .table ElementName.cellTags then .again b.closeCell else .done b
    else .done (b.inBody t)
  | .endTag tag =>
    if ElementName.cellTags.contains tag then
      .done
        (if b.inScope .table tag then ((b.closeThrough [tag]).clearToMarker).goTo .row else b)
    else if ["body", "caption", "col", "colgroup", "html"].contains tag then .done b
    else if ElementName.tableStructureTags.contains tag then
      if b.inScope .table tag then .again b.closeCell else .done b
    else .done (b.inBody t)
  | _ => .done (b.inBody t)

end Builder
end Html
end MarkupEval
