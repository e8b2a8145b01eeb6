import MarkupEval.Html.Builder.Basic

/-! # Foreign elements

Drawings and formulas are elements of other namespaces. Markup knows lower-case names only, so the
names that have capitals there are given them back; of the names with a prefix only the part after
the prefix is kept. -/

namespace MarkupEval
namespace Html
namespace Foreign

/-- Tags of drawings with capitals in them. -/
def drawingTags : List String :=
  ["altGlyph", "altGlyphDef", "altGlyphItem", "animateColor", "animateMotion", "animateTransform",
   "clipPath", "feBlend", "feColorMatrix", "feComponentTransfer", "feComposite",
   "feConvolveMatrix", "feDiffuseLighting", "feDisplacementMap", "feDistantLight", "feDropShadow",
   "feFlood", "feFuncA", "feFuncB", "feFuncG", "feFuncR", "feGaussianBlur", "feImage", "feMerge",
   "feMergeNode", "feMorphology", "feOffset", "fePointLight", "feSpecularLighting", "feSpotLight",
   "feTile", "feTurbulence", "foreignObject", "glyphRef", "linearGradient", "radialGradient",
   "textPath"]

/-- Attributes of drawings with capitals in them. -/
def drawingAttributes : List String :=
  ["attributeName", "attributeType", "baseFrequency", "baseProfile", "calcMode", "clipPathUnits",
   "diffuseConstant", "edgeMode", "filterUnits", "glyphRef", "gradientTransform", "gradientUnits",
   "kernelMatrix", "kernelUnitLength", "keyPoints", "keySplines", "keyTimes", "lengthAdjust",
   "limitingConeAngle", "markerHeight", "markerUnits", "markerWidth", "maskContentUnits",
   "maskUnits", "numOctaves", "pathLength", "patternContentUnits", "patternTransform",
   "patternUnits", "pointsAtX", "pointsAtY", "pointsAtZ", "preserveAlpha", "preserveAspectRatio",
   "primitiveUnits", "refX", "refY", "repeatCount", "repeatDur", "requiredExtensions",
   "requiredFeatures", "specularConstant", "specularExponent", "spreadMethod", "startOffset",
   "stdDeviation", "stitchTiles", "surfaceScale", "systemLanguage", "tableValues", "targetX",
   "targetY", "textLength", "viewBox", "viewTarget", "xChannelSelector", "yChannelSelector",
   "zoomAndPan"]

def formulaAttributes : List String := ["definitionURL"]

/-- Attributes with a prefix, and the part of their names that is kept. -/
def prefixedAttributes : List (String × String) :=
  [("xlink:actuate", "actuate"), ("xlink:arcrole", "arcrole"), ("xlink:href", "href"),
   ("xlink:role", "role"), ("xlink:show", "show"), ("xlink:title", "title"),
   ("xlink:type", "type"), ("xml:lang", "lang"), ("xml:space", "space"), ("xmlns:xlink", "xlink")]

/-- Gives a name its capitals back if it is in a list. -/
def restoreCase (names : List String) (name : String) : String :=
  (names.find? (Text.lower · == name)).getD name

def attributeNames : Namespace → List String
  | .html => []
  | .svg => drawingAttributes
  | .mathml => formulaAttributes

def attributeName (space : Namespace) (name : String) : String :=
  (Assoc.get? name prefixedAttributes).getD (restoreCase (attributeNames space) name)

/-- The attributes of a foreign element. Two names may become one; then the first one counts. -/
def attributes (space : Namespace) (as : Attributes) : Attributes :=
  Attributes.empty.addNew (as.entries.map fun a => (attributeName space a.1, a.2))

def tagName (space : Namespace) (tag : String) : String :=
  match space with
  | .svg => restoreCase drawingTags tag
  | _ => tag

/-- Start tags that cannot stand in foreign content: they close it. -/
def breakoutTags : List String :=
  ["b", "big", "blockquote", "body", "br", "center", "code", "dd", "div", "dl", "dt", "em",
   "embed", "h1", "h2", "h3", "h4", "h5", "h6", "head", "hr", "i", "img", "li", "listing", "menu",
   "meta", "nobr", "ol", "p", "pre", "ruby", "s", "small", "span", "strong", "strike", "sub",
   "sup", "table", "tt", "u", "ul", "var"]

/-- Whether a start tag closes foreign content. -/
def isBreakout (tag : Tag) : Bool :=
  breakoutTags.contains tag.name ||
    tag.name == "font" && ["color", "face", "size"].any fun a => (tag.attrs.get? a).isSome

end Foreign

namespace Builder

/-- Puts in a foreign element, and opens it unless its tag closes itself. -/
def openForeign (name : ElementName) (tag : Tag) (b : Builder) : Builder :=
  let attrs := Foreign.attributes name.space tag.attrs
  if tag.selfClosing then b.putElement name attrs else b.openElement name attrs

/-- Tags that are foreign even where a formula holds text. -/
def isFormulaSymbol (tag : String) : Bool := tag == "mglyph" || tag == "malignmark"

/-- Whether a token is read by the rules for foreign content. At an integration point most tokens
are not. -/
def readsForeign (b : Builder) (t : Token) : Bool :=
  let name := b.current.name
  if name.isHtml then false
  else
    match t with
    | .char _ => !name.isMathmlTextPoint && !name.isHtmlPoint
    | .startTag tag =>
      (!name.isMathmlTextPoint || isFormulaSymbol tag.name) && !name.isHtmlPoint &&
        !(name == ⟨.mathml, "annotation-xml"⟩ && tag.name == "svg")
    | _ => true

/-- Closes foreign elements up to an element that may hold HTML. -/
def leaveForeign (b : Builder) : Builder := b.popWhile (!·.name.endsForeign)

/-- What an end tag does in foreign content: it closes the elements from the one that it names on,
the case of letters ignored. None if an HTML element stands before that one, to which the tag then
belongs. -/
def closeForeign? (tag : String) : List OpenElement → Option (List OpenElement)
  | [] => none
  | e :: outer =>
    if e.name.isHtml then none
    else if Text.lower e.name.tag = Text.lower tag then some outer
    else closeForeign? tag outer

end Builder
end Html
end MarkupEval
