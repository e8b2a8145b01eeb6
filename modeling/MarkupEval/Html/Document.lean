import MarkupEval.Html.Builder.Step

/-! # Reading a document

Any text is a document: what is wrong is repaired by the rules of the HTML standard, with scripts
taken to run. The text is the content of a body that is already open. -/

namespace MarkupEval
namespace Html

/-- The body that a text stands for. -/
def parseBody (text : String) : Element :=
  let b := Builder.start.readAll (unifyLines text.toList)
  ((b.forest.node? Builder.bodySlot).bind Node.element?).getD { tag := "body" }

/-- The nodes that a text stands for. -/
def parseFragment (text : String) : List Node := (parseBody text).children

end Html
end MarkupEval
