/-! # Names of elements and their classes

While a document is read every element has a namespace beside its tag. The rules that repair a
document ask to which of a few classes an element belongs; but for the integration points, which
are foreign elements, the classes hold HTML elements only. -/

namespace MarkupEval
namespace Html

inductive Namespace
  | html
  | svg
  | mathml
deriving DecidableEq

structure ElementName where
  space : Namespace
  tag : String
deriving DecidableEq

namespace ElementName

/-- The HTML element of a tag. -/
def html (tag : String) : ElementName := ⟨.html, tag⟩

def isHtml (n : ElementName) : Bool := n.space == .html

/-- An HTML element whose tag is in the list. -/
def isAmong (tags : List String) (n : ElementName) : Bool := n.isHtml && tags.contains n.tag

/-! ## Classes of tags -/

/-- Tags whose elements an end tag of another name does not close. -/
def specialTags : List String :=
  ["address", "applet", "area", "article", "aside", "base", "basefont", "bgsound", "blockquote",
   "body", "br", "button", "caption", "center", "col", "colgroup", "dd", "details", "dir", "div",
   "dl", "dt", "embed", "fieldset", "figcaption", "figure", "footer", "form", "frame", "frameset",
   "h1", "h2", "h3", "h4", "h5", "h6", "head", "header", "hgroup", "hr", "html", "iframe", "img",
   "input", "isindex", "li", "link", "listing", "main", "marquee", "menu", "meta", "nav",
   "noembed", "noframes", "noscript", "object", "ol", "p", "param", "plaintext", "pre", "script",
   "section", "select", "source", "style", "summary", "table", "tbody", "td", "template",
   "textarea", "tfoot", "th", "thead", "title", "tr", "track", "ul", "wbr", "xmp"]

/-- Tags whose end tag may be left out. -/
def impliedEndTags : List String :=
  ["dd", "dt", "li", "option", "optgroup", "p", "rb", "rp", "rt", "rtc"]

/-- Tags whose end tag may be left out at the end of a template. -/
def allImpliedEndTags : List String :=
  impliedEndTags ++ ["caption", "colgroup", "tbody", "td", "tfoot", "th", "thead", "tr"]

def headingTags : List String := ["h1", "h2", "h3", "h4", "h5", "h6"]

/-- Tags of a table inside which only further parts of the table may stand. -/
def tableStructureTags : List String := ["table", "tbody", "tfoot", "thead", "tr"]

def tableSectionTags : List String := ["tbody", "tfoot", "thead"]

def cellTags : List String := ["td", "th"]

/-! ## Integration points -/

/-- A formula element that holds text. -/
def isMathmlTextPoint (n : ElementName) : Bool :=
  n.space == .mathml && ["mi", "mo", "mn", "ms", "mtext"].contains n.tag

/-- A drawing element that holds HTML. -/
def isHtmlPoint (n : ElementName) : Bool :=
  n.space == .svg && ["foreignObject", "desc", "title"].contains n.tag

/-- Where a start tag leaves foreign content no further. -/
def endsForeign (n : ElementName) : Bool := n.isHtml || n.isMathmlTextPoint || n.isHtmlPoint

end ElementName

/-! ## Scopes

An open element is in a scope if no element that bounds the scope is open inside it. -/

inductive Scope
  | default
  | listItem
  | button
  | table
  | select
deriving DecidableEq

namespace Scope

def defaultBounds : List String :=
  ["applet", "caption", "html", "table", "td", "th", "marquee", "object", "template"]

def boundsDefault (n : ElementName) : Bool :=
  n.isAmong defaultBounds || n.isMathmlTextPoint || n.isHtmlPoint

/-- Whether an element bounds the scope. -/
def isBoundedBy : Scope → ElementName → Bool
  | .default, n => boundsDefault n
  | .listItem, n => boundsDefault n || n.isAmong ["ol", "ul"]
  | .button, n => boundsDefault n || n.isAmong ["button"]
  | .table, n => n.isAmong ["html", "table", "template"]
  | .select, n => !n.isAmong ["optgroup", "option"]

end Scope
end Html
end MarkupEval
