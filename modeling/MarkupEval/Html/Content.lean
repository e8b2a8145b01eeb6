import MarkupEval.Text.Ascii

/-! # Content of HTML elements

How the content of an element is written depends on its tag, the case of letters ignored. -/

namespace MarkupEval
namespace Html

inductive ContentKind
  /-- No content and no end tag. -/
  | void
  /-- Text that is written as it is. -/
  | raw
  /-- Text in which only character references count. -/
  | escapable
  | normal
deriving DecidableEq

def voidTags : List String :=
  ["area", "base", "br", "col", "embed", "hr", "img", "input", "link", "meta", "param", "source",
   "track", "wbr"]

def ContentKind.ofTag (tag : String) : ContentKind :=
  let tag := Text.lower tag
  if tag ∈ voidTags then .void
  else if tag ∈ ["script", "style"] then .raw
  else if tag ∈ ["title", "textarea"] then .escapable
  else .normal

end Html
end MarkupEval
