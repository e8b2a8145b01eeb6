import MarkupEval.Html.Writer
import MarkupEval.Proofs.Markup.Equality
import MarkupEval.Proofs.Sorted

/-!
# Canonical HTML

Equality of markup disregards the order of attributes. Written with its attributes sorted, equal
markup is the same text (`htmlWith_congr`).
-/

namespace MarkupEval

namespace Html

open Node (sameList)

variable {o : WriteOptions} {ns ms : List Node}

theorem attributeOrder_congr (ho : o.sortAttributes = true) {as bs : Attributes}
    (h : as.same bs = true) : o.attributeOrder as = o.attributeOrder bs := by
  rw [WriteOptions.attributeOrder, WriteOptions.attributeOrder, if_pos ho, if_pos ho]
  exact Sorted.ofPairs_congr as.nodup (Attributes.same_iff.mp h)

/-! ## Equal lists of nodes -/

theorem forall₂_of_sameList (h : sameList ns ms = true) :
    List.Forall₂ (fun n m => n.same m = true) ns ms := by
  induction ns generalizing ms with
  | nil =>
    cases ms with
    | nil => exact .nil
    | cons m ms => cases h
  | cons n ns ih =>
    cases ms with
    | nil => cases h
    | cons m ms =>
      obtain ⟨hn, hns⟩ := Bool.and_eq_true_iff.mp h
      exact .cons hn (ih hns)

theorem all_isText_congr (h : List.Forall₂ (fun n m : Node => n.same m = true) ns ms) :
    ns.all Node.isText = ms.all Node.isText := by
  induction h with
  | nil => rfl
  | @cons n m ns ms hn _ ih =>
    have hkind : n.isText = m.isText := by
      cases n <;> cases m <;> first | rfl | cases hn
    rw [List.all_cons, List.all_cons, hkind, ih]

theorem textChars_congr (write : List Char → List Char)
    (h : List.Forall₂ (fun n m : Node => n.same m = true) ns ms) :
    textChars write ns = textChars write ms := by
  induction h with
  | nil => rfl
  | @cons n m ns ms hn _ ih =>
    cases n with
    | text s =>
      cases m with
      | text t =>
        cases eq_of_beq hn
        exact congrArg (write s.toList ++ ·) ih
      | element tag attrs children => cases hn
    | element tag attrs children =>
      cases m with
      | text t => cases hn
      | element tag' attrs' children' => exact ih

/-! ## The text -/

mutual

theorem nodeChars_congr (ho : o.sortAttributes = true) : ∀ {n m : Node}, n.same m = true →
    ∀ depth, nodeChars o depth n = nodeChars o depth m
  | .text s, .text t, h, depth => by rw [eq_of_beq h]
  | .element tag attrs children, .element tag' attrs' children', h, depth => by
    obtain ⟨hstart, hchildren⟩ := Bool.and_eq_true_iff.mp h
    obtain ⟨htag, hattrs⟩ := Bool.and_eq_true_iff.mp hstart
    have heach := forall₂_of_sameList hchildren
    cases eq_of_beq htag
    simp only [nodeChars, startTagChars, attributeOrder_congr ho hattrs, textChars_congr _ heach,
      all_isText_congr heach, nodesChars_congr ho hchildren]

theorem nodesChars_congr (ho : o.sortAttributes = true) : ∀ {ns ms : List Node},
    sameList ns ms = true → ∀ depth, nodesChars o depth ns = nodesChars o depth ms
  | [], [], _, _ => rfl
  | n :: ns, m :: ms, h, depth => by
    obtain ⟨hn, hns⟩ := Bool.and_eq_true_iff.mp h
    rw [nodesChars, nodesChars, nodeChars_congr ho hn depth, nodesChars_congr ho hns depth]

end

/-- Markup that is equal but for the order of attributes is one text when they are sorted. -/
theorem htmlWith_congr {a b : Element} (h : a.same b = true) (ho : o.sortAttributes = true) :
    a.htmlWith o = b.htmlWith o :=
  congrArg String.ofList (nodeChars_congr ho h 0)

/-- An element with two attributes, around one with two others. -/
def attributed (outer inner : List (String × String)) : Element :=
  ⟨"div", .ofPairs outer, [.element "br" (.ofPairs inner) [], .text "a<b"]⟩

theorem htmlWith_congr_reversed :
    (attributed [("id", "x"), ("class", "y")] [("b", "\""), ("a", "")]).same
        (attributed [("class", "y"), ("id", "x")] [("a", ""), ("b", "\"")]) = true ∧
      (attributed [("id", "x"), ("class", "y")] [("b", "\""), ("a", "")]).htmlWith
          { pretty := true, sortAttributes := true } =
        (attributed [("class", "y"), ("id", "x")] [("a", ""), ("b", "\"")]).htmlWith
          { pretty := true, sortAttributes := true } := by
  have hsame : (attributed [("id", "x"), ("class", "y")] [("b", "\""), ("a", "")]).same
      (attributed [("class", "y"), ("id", "x")] [("a", ""), ("b", "\"")]) = true := by
    decide +kernel
  exact ⟨hsame, htmlWith_congr hsame rfl⟩

end Html
end MarkupEval
