import MarkupEval.Value.Basic

/-! # Setting an attribute

Sets one attribute on an element, on each element of an array of elements, or on each element of a
list of nodes; what is inside the elements stays. -/

namespace MarkupEval

def Node.setAttribute (name value : String) : Node → Node
  | .element tag attrs children => .element tag (attrs.set name value) children
  | .text s => .text s

namespace Value

def isElement : Value → Bool
  | .element _ => true
  | _ => false

/-- Whether a value has elements on its top level and nothing else that could be meant. -/
def takesAttribute : Value → Bool
  | .element _ => true
  | .nodes _ => true
  | .array items => items.all isElement
  | _ => false

def setAttributeOnElement (name value : String) : Value → Value
  | .element e => .element (e.setAttribute name value)
  | v => v

def setAttribute (name value : String) : Value → Value
  | .element e => .element (e.setAttribute name value)
  | .nodes ns => .nodes (ns.map (Node.setAttribute name value))
  | .array items => .array (items.map (setAttributeOnElement name value))
  | v => v

end Value
end MarkupEval
