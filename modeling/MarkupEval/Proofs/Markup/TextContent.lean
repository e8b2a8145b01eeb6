import MarkupEval.Markup.Node

/-!
# Text content in document order

The text content of an element is gathered by a loop with one stack of pending trees. It is the text
that recursion over the tree gives, and the loop ends after as many turns as there are nodes below
the element (`Element.textContent_inDocumentOrder`).
-/

namespace MarkupEval

namespace Node

/-! ## By recursion -/

mutual

/-- The content of a text, and the texts of the children of an element one after the other. -/
def documentText : Node → String
  | .text s => s
  | .element _ _ children => documentTextList children

def documentTextList : List Node → String
  | [] => ""
  | n :: ns => n.documentText ++ documentTextList ns

end

theorem documentTextList_append (ns ms : List Node) :
    documentTextList (ns ++ ms) = documentTextList ns ++ documentTextList ms := by
  induction ns with
  | nil => simp [documentTextList]
  | cons n ns ih => simp [documentTextList, ih, String.append_assoc]

/-- What is gathered in the end: what is gathered already, then the texts of the pending trees. -/
theorem gatherText_eq (pending : List Node) (gathered : List Char) :
    gatherText pending gathered = gathered ++ (documentTextList pending).toList := by
  fun_induction gatherText pending gathered with
  | case1 gathered => simp [documentTextList]
  | case2 s pending gathered ih => simp [ih, documentTextList, documentText]
  | case3 tag attrs children pending gathered ih =>
    rw [ih, documentTextList_append, documentTextList, documentText]

theorem textContent_eq_documentText (n : Node) : n.textContent = n.documentText := by
  cases n with
  | text s => rfl
  | element tag attrs children => simp [textContent, documentText, gatherText_eq]

/-! ## By a loop -/

/-- A state of the loop: the stack of pending trees, the next one last, and the text gathered so
far. -/
structure Walk where
  pending : List Node
  gathered : List Char

namespace Walk

/-- One turn of the loop takes the last tree off the stack. The children of an element go on the
stack in reverse, so that the first of them is next. With no pending tree the loop is over. -/
def turn? (w : Walk) : Option Walk :=
  w.pending.getLast?.map fun
    | .text s => ⟨w.pending.dropLast, w.gathered ++ s.toList⟩
    | .element _ _ children => ⟨w.pending.dropLast ++ children.reverse, w.gathered⟩

/-- The loop is over after so many turns, with this text. -/
inductive Ends : Nat → Walk → List Char → Prop
  | over {w : Walk} (h : w.turn? = none) : Ends 0 w w.gathered
  | turn {n : Nat} {w w' : Walk} {cs : List Char} (h : w.turn? = some w') (rest : Ends n w' cs) :
    Ends (n + 1) w cs

variable {pending : List Node} {gathered : List Char}

theorem turn?_nil : turn? ⟨[], gathered⟩ = none := rfl

theorem turn?_text (s : String) :
    turn? ⟨(.text s :: pending).reverse, gathered⟩ =
      some ⟨pending.reverse, gathered ++ s.toList⟩ := by
  simp [turn?]

theorem turn?_element (tag : String) (attrs : Attributes) (children : List Node) :
    turn? ⟨(.element tag attrs children :: pending).reverse, gathered⟩ =
      some ⟨(children ++ pending).reverse, gathered⟩ := by
  simp [turn?]

/-- The number of nodes on the stack is the number of turns that are left: a turn takes one off and
leaves those below it. -/
theorem ends_gatherText (pending : List Node) (gathered : List Char) :
    Ends (sizeList pending) ⟨pending.reverse, gathered⟩ (gatherText pending gathered) := by
  fun_induction gatherText pending gathered with
  | case1 gathered => exact .over turn?_nil
  | case2 s pending gathered ih =>
    rw [sizeList, size, Nat.add_comm]
    exact .turn (turn?_text s) ih
  | case3 tag attrs children pending gathered ih =>
    rw [sizeList, size, Nat.add_right_comm, ← sizeList_append]
    exact .turn (turn?_element tag attrs children) ih

end Walk
end Node

/-- The text content of an element is that of its children in document order, and the loop that
gathers it ends after one turn for each node below the element. -/
theorem Element.textContent_inDocumentOrder (e : Element) :
    e.textContent = Node.documentTextList e.children ∧
      Node.Walk.Ends (Node.sizeList e.children) ⟨e.children.reverse, []⟩ e.textContent.toList := by
  refine ⟨Node.textContent_eq_documentText e.toNode, ?_⟩
  have hwalk := Node.Walk.ends_gatherText e.children []
  have hgathered : e.textContent.toList = Node.gatherText e.children [] := String.toList_ofList
  rwa [hgathered]

end MarkupEval
