import MarkupEval.Html.Content
import MarkupEval.Html.Escape
import MarkupEval.Markup.Node
import MarkupEval.Sorted

/-! # Writing HTML

Attribute values are always quoted, void elements have no end tag, and elements whose content is
text for the HTML reader write only their texts. A pretty text has each element and each text of
mixed content on a line of its own; text-only content stays on the line of its start tag. -/

namespace MarkupEval
namespace Html

structure WriteOptions where
  pretty : Bool := false
  /-- One level of indentation, where lines are broken. -/
  indent : String := "  "
  sortAttributes : Bool := false
  escapeScriptEnds : Bool := true

namespace WriteOptions

def margin (o : WriteOptions) (depth : Nat) : List Char :=
  if o.pretty then (List.replicate depth o.indent.toList).flatten else []

def lineBreak (o : WriteOptions) : List Char := if o.pretty then ['\n'] else []

def attributeOrder (o : WriteOptions) (as : Attributes) : List (String × String) :=
  if o.sortAttributes then Sorted.ofPairs as.entries else as.entries

end WriteOptions

def attributeChars (a : String × String) : List Char :=
  ' ' :: a.1.toList ++ '=' :: '"' :: escape .attribute a.2.toList ++ ['"']

def startTagChars (o : WriteOptions) (tag : String) (attrs : Attributes) : List Char :=
  '<' :: tag.toList ++ (o.attributeOrder attrs).flatMap attributeChars ++ ['>']

def endTagChars (o : WriteOptions) (tag : String) : List Char :=
  '<' :: '/' :: tag.toList ++ '>' :: o.lineBreak

/-- The texts among the children, one after the other. -/
def textChars (write : List Char → List Char) (children : List Node) : List Char :=
  children.flatMap fun n =>
    match n with
    | .text s => write s.toList
    | .element .. => []

/-- How a text is written in an element of raw content. -/
def rawChars (o : WriteOptions) (tag : String) (cs : List Char) : List Char :=
  if o.escapeScriptEnds && Text.lower tag == "script" then escapeScript cs else cs

mutual

def nodeChars (o : WriteOptions) (depth : Nat) : Node → List Char
  | .text s =>
    o.margin depth ++ escape .text s.toList ++ if s.isEmpty then [] else o.lineBreak
  | .element tag attrs children =>
    o.margin depth ++ startTagChars o tag attrs ++
      match ContentKind.ofTag tag with
      | .void => o.lineBreak
      | .raw => textChars (rawChars o tag) children ++ endTagChars o tag
      | .escapable => textChars (escape .escapable) children ++ endTagChars o tag
      | .normal =>
        if children.all Node.isText then textChars (escape .text) children ++ endTagChars o tag
        else o.lineBreak ++ nodesChars o (depth + 1) children ++ o.margin depth ++ endTagChars o tag

def nodesChars (o : WriteOptions) (depth : Nat) : List Node → List Char
  | [] => []
  | n :: ns => nodeChars o depth n ++ nodesChars o depth ns

end

/-- The text of sibling nodes. -/
def write (o : WriteOptions) (ns : List Node) : String := String.ofList (nodesChars o 0 ns)

end Html

/-- The HTML of a node, without line breaks. -/
def Node.html (n : Node) : String := String.ofList (Html.nodeChars {} 0 n)

/-- The HTML of an element, without line breaks. -/
def Element.html (e : Element) : String := e.toNode.html

def Element.htmlWith (e : Element) (o : Html.WriteOptions) : String :=
  String.ofList (Html.nodeChars o 0 e.toNode)

end MarkupEval
