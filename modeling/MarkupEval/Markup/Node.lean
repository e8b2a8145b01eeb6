import MarkupEval.Markup.Attributes
import MarkupEval.Text.Blank

/-! # Markup

A node is a text or an element with a tag, attributes and children. No content model holds: any
element may contain any node, texts may be empty and may stand side by side. -/

namespace MarkupEval

inductive Node
  | text (content : String)
  | element (tag : String) (attrs : Attributes) (children : List Node)

/-- An element, of which the tag is spelled as its host wrote it. -/
structure Element where
  tag : String
  attrs : Attributes := ∅
  children : List Node := []

instance : Inhabited Node := ⟨.text ""⟩

def Element.toNode (e : Element) : Node := .element e.tag e.attrs e.children

namespace Node

def element? : Node → Option Element
  | .element tag attrs children => some ⟨tag, attrs, children⟩
  | .text _ => none

def text? : Node → Option String
  | .text s => some s
  | .element .. => none

def tag? : Node → Option String
  | .element tag .. => some tag
  | .text _ => none

def isElement : Node → Bool
  | .element .. => true
  | .text _ => false

def isText : Node → Bool
  | .text _ => true
  | .element .. => false

def attribute? : Node → String → Option String
  | .element _ attrs _, name => attrs.get? name
  | .text _, _ => none

def attributes : Node → Attributes
  | .element _ attrs _ => attrs
  | .text _ => ∅

def children : Node → List Node
  | .element _ _ children => children
  | .text _ => []

/-- A text of blanks only; the empty text counts. -/
def isLayout : Node → Bool
  | .text s => Text.isLayout s
  | .element .. => false

/-! ## Equality -/

mutual

/-- Equality up to the order of attributes. -/
def same : Node → Node → Bool
  | .text s, .text t => s == t
  | .element tag attrs children, .element tag' attrs' children' =>
    tag == tag' && attrs.same attrs' && sameList children children'
  | _, _ => false

def sameList : List Node → List Node → Bool
  | [], [] => true
  | n :: ns, m :: ms => same n m && sameList ns ms
  | _, _ => false

end

/-! ## Size -/

mutual

/-- The number of nodes of a tree. -/
def size : Node → Nat
  | .text _ => 1
  | .element _ _ children => sizeList children + 1

def sizeList : List Node → Nat
  | [] => 0
  | n :: ns => size n + sizeList ns

end

theorem sizeList_append (ns ms : List Node) : sizeList (ns ++ ms) = sizeList ns + sizeList ms := by
  induction ns with
  | nil => simp [sizeList]
  | cons n ns ih => simp [sizeList, ih, Nat.add_assoc]

theorem size_pos (n : Node) : 0 < n.size := by
  cases n <;> simp [size]

/-! ## Text content -/

/-- Appends the texts of pending trees to what is gathered so far. The trees are a stack: the
children of an element take its place in front of what was pending. -/
def gatherText : List Node → List Char → List Char
  | [], gathered => gathered
  | .text s :: pending, gathered => gatherText pending (gathered ++ s.toList)
  | .element _ _ children :: pending, gathered => gatherText (children ++ pending) gathered
termination_by pending => sizeList pending
decreasing_by
  all_goals simp [sizeList, size, sizeList_append]

/-- The texts of a tree in document order. -/
def textContent : Node → String
  | .text s => s
  | .element _ _ children => String.ofList (gatherText children [])

end Node

namespace Element

def same (a b : Element) : Bool := a.toNode.same b.toNode

def textContent (e : Element) : String := e.toNode.textContent

def setAttribute (e : Element) (name value : String) : Element :=
  { e with attrs := e.attrs.set name value }

def push (e : Element) (n : Node) : Element := { e with children := e.children ++ [n] }

end Element
end MarkupEval
