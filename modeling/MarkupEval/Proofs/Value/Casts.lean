import MarkupEval.Value.Cast

/-!
# How casts go together

A cast gives a value of its kind (`kind_of_castTo?`) and leaves one that is of this kind already
(`castTo?_kind`), so that a second cast changes nothing. Casts to arrays and to lists of nodes keep
what the ones after them read (`casts_commute`).
-/

namespace MarkupEval
namespace Value

/-! ## Kinds -/

theorem kind_of_castTo? {v w : Value} {k : Kind} (h : v.castTo? k = some w) : w.kind = k := by
  cases k <;> cases h <;> rfl

/-- A cast to the kind of a value leaves the value as it is. -/
theorem castTo?_kind {v : Value} (h : v.kind ∈ Kind.typers) : v.castTo? v.kind = some v := by
  cases v with
  | element e => exact absurd h (show Kind.element ∉ Kind.typers by decide)
  | transformer name args op => exact absurd h (show Kind.transformer ∉ Kind.typers by decide)
  | _ => rfl

theorem exists_castTo? {k : Kind} (h : k ∈ Kind.typers) (v : Value) :
    ∃ w, v.castTo? k = some w := by
  cases k with
  | element | transformer => exact absurd h (by decide)
  | _ => exact ⟨_, rfl⟩

/-! ## Nodes -/

theorem nodesOfItems_map_ofNode (ns : List Node) : nodesOfItems (ns.map ofNode) = ns := by
  induction ns with
  | nil => rfl
  | cons n ns ih => rw [List.map_cons, nodesOfItems, ih, nodesOf_ofNode, List.singleton_append]

theorem nodesOf_array_toItems (v : Value) : (array v.toItems).nodesOf = v.nodesOf := by
  cases v with
  | array items => rfl
  | nodes ns => exact nodesOfItems_map_ofNode ns
  | _ => exact List.append_nil _

theorem stringOf_nodes_text (s : String) : (nodes [.text s]).stringOf = s := String.empty_append

theorem stringOf_nodes_element (e : Element) : (nodes [e.toNode]).stringOf = e.html :=
  String.empty_append

/-- The kinds of which a value has the same text as its nodes have together. The nodes of null and
of a transformer are none, and those of an array are without its brackets. -/
def keptByNodes : List Kind := [.boolean, .number, .string, .text, .element, .nodes, .record]

theorem stringOf_nodes_nodesOf {v : Value} (h : v.kind ∈ keptByNodes) :
    (nodes v.nodesOf).stringOf = v.stringOf := by
  cases v with
  | null => exact absurd h (show Kind.null ∉ keptByNodes by decide)
  | array items => exact absurd h (show Kind.array ∉ keptByNodes by decide)
  | transformer name args op => exact absurd h (show Kind.transformer ∉ keptByNodes by decide)
  | boolean b | number x | text s | record es => exact stringOf_nodes_text _
  | element e => exact stringOf_nodes_element e
  | nodes ns => rfl
  | string s =>
    by_cases hs : s.isEmpty
    · have hempty : s = "" := String.isEmpty_iff.mp hs
      subst hempty
      rfl
    · rw [nodesOf, if_neg hs]
      exact stringOf_nodes_text s

/-! ## One cast after another -/

/-- A cast that is made twice is the cast made once. An array of a value has the nodes of the
value, and where the nodes keep the text they have the text of the value. -/
theorem casts_commute (v : Value) :
    (∀ k ∈ Kind.typers, ∃ w, v.castTo? k = some w ∧ w.castTo? k = some w) ∧
    (element v.toElement).toElement = v.toElement ∧
    (array v.toItems).nodesOf = v.nodesOf ∧
    (v.kind ∈ keptByNodes → (nodes v.nodesOf).stringOf = v.stringOf) := by
  refine ⟨fun k hk => ?_, rfl, nodesOf_array_toItems v, stringOf_nodes_nodesOf⟩
  obtain ⟨w, hw⟩ := exists_castTo? hk v
  obtain rfl := kind_of_castTo? hw
  exact ⟨w, hw, castTo?_kind hk⟩

/-- Siblings of every kind, among them texts side by side. -/
def siblings : Value :=
  .nodes [.text "a & ", .text "",
    .element "b" (.ofPairs [("k", "v")]) [.text "<", .element "br" ∅ []]]

theorem casts_commute_siblings :
    Kind.text ∈ Kind.typers ∧ siblings.kind ∈ keptByNodes ∧
      siblings.castTo? .text = some (.text "a & <b k=\"v\">&lt;<br></b>") ∧
      (∃ w, siblings.castTo? .text = some w ∧ w.castTo? .text = some w) ∧
      (array siblings.toItems).nodesOf = siblings.nodesOf ∧
      (nodes siblings.nodesOf).stringOf = siblings.stringOf := by
  have hkind : Kind.text ∈ Kind.typers := by decide
  have hkept : siblings.kind ∈ keptByNodes := by decide
  have htext : siblings.stringOf = "a & <b k=\"v\">&lt;<br></b>" := by decide +kernel
  obtain ⟨hcasts, -, hitems, hstring⟩ := casts_commute siblings
  refine ⟨hkind, hkept, ?_, hcasts .text hkind, hitems, hstring hkept⟩
  rw [castTo?, htext]

end Value
end MarkupEval
