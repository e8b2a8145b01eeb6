/-! # Rules for tags in a body

What a tag does in a body depends on its name. The tables give the names that have a rule of their
own; all other start tags open an element and all other end tags close one. -/

namespace MarkupEval
namespace Html

inductive StartRule
  /-- Opens an ordinary element. -/
  | other
  /-- Does nothing. -/
  | ignored
  /-- Adds attributes to the body. -/
  | body
  /-- An element without content that formatting does not wrap. -/
  | lone
  /-- An element without content. -/
  | void
  /-- A rule between paragraphs. -/
  | separator
  | block
  | heading
  /-- A block that drops a line feed at its start. -/
  | preformatted
  | form
  | listItem
  | definition
  | plaintext
  | button
  | link
  | formatting
  | exclusiveFormatting
  /-- An element that formatting does not cross. -/
  | embedded
  | table
  /-- Another name of an image. -/
  | image
  /-- An element whose text is not markup. -/
  | rawText
  /-- Such an element that ends a paragraph. -/
  | rawBlock
  | escapableText
  | textArea
  | script
  | template
  | select
  | option
  | rubyBase
  | rubyText
  | formula
  | drawing
deriving DecidableEq

inductive EndRule
  /-- Closes an ordinary element. -/
  | other
  | document
  | body
  | block
  | form
  | paragraph
  | listItem
  | definition
  | heading
  | formatting
  | embedded
  | lineBreak
  | template
deriving DecidableEq

/-- The rule of a name in a table of rules. -/
def ruleIn {α : Type} (rules : List (α × List String)) (default : α) (tag : String) : α :=
  match rules.find? (·.2.contains tag) with
  | some (rule, _) => rule
  | none => default

namespace StartRule

def rules : List (StartRule × List String) :=
  [(.ignored,
      ["html", "frameset", "caption", "col", "colgroup", "frame", "head", "tbody", "td", "tfoot",
       "th", "thead", "tr"]),
   (.body, ["body"]),
   (.lone,
      ["base", "basefont", "bgsound", "link", "meta", "param", "source", "track"]),
   (.void, ["area", "br", "embed", "img", "keygen", "wbr", "input"]),
   (.separator, ["hr"]),
   (.block,
      ["address", "article", "aside", "blockquote", "center", "details", "dialog", "dir", "div",
       "dl", "fieldset", "figcaption", "figure", "footer", "header", "hgroup", "main", "menu",
       "nav", "ol", "p", "search", "section", "summary", "ul"]),
   (.heading, ["h1", "h2", "h3", "h4", "h5", "h6"]),
   (.preformatted, ["pre", "listing"]),
   (.form, ["form"]),
   (.listItem, ["li"]),
   (.definition, ["dd", "dt"]),
   (.plaintext, ["plaintext"]),
   (.button, ["button"]),
   (.link, ["a"]),
   (.formatting,
      ["b", "big", "code", "em", "font", "i", "s", "small", "strike", "strong", "tt", "u"]),
   (.exclusiveFormatting, ["nobr"]),
   (.embedded, ["applet", "marquee", "object"]),
   (.table, ["table"]),
   (.image, ["image"]),
   (.rawText, ["style", "noframes", "iframe", "noembed", "noscript"]),
   (.rawBlock, ["xmp"]),
   (.escapableText, ["title"]),
   (.textArea, ["textarea"]),
   (.script, ["script"]),
   (.template, ["template"]),
   (.select, ["select"]),
   (.option, ["optgroup", "option"]),
   (.rubyBase, ["rb", "rtc"]),
   (.rubyText, ["rp", "rt"]),
   (.formula, ["math"]),
   (.drawing, ["svg"])]

def of (tag : String) : StartRule := ruleIn rules .other tag

end StartRule

namespace EndRule

def rules : List (EndRule × List String) :=
  [(.document, ["html"]),
   (.body, ["body"]),
   (.block,
      ["address", "article", "aside", "blockquote", "button", "center", "details", "dialog", "dir",
       "div", "dl", "fieldset", "figcaption", "figure", "footer", "header", "hgroup", "listing",
       "main", "menu", "nav", "ol", "pre", "search", "section", "summary", "ul"]),
   (.form, ["form"]),
   (.paragraph, ["p"]),
   (.listItem, ["li"]),
   (.definition, ["dd", "dt"]),
   (.heading, ["h1", "h2", "h3", "h4", "h5", "h6"]),
   (.formatting,
      ["a", "b", "big", "code", "em", "font", "i", "nobr", "s", "small", "strike", "strong", "tt",
       "u"]),
   (.embedded, ["applet", "marquee", "object"]),
   (.lineBreak, ["br"]),
   (.template, ["template"])]

def of (tag : String) : EndRule := ruleIn rules .other tag

end EndRule
end Html
end MarkupEval
