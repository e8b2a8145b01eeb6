import MarkupEval.Proofs.Value.WellFormed
import MarkupEval.Value.Stored

/-!
# Restoring stored values

What is restored from the stored form of a well-formed value is the value with its transformers
replaced by null (`Stored.toValue_ofValue`), and so the value itself where it holds none
(`Stored.toValue_ofValue_of_not_isOpaque`). Markup comes back node by node. Whatever was stored, no
transformer is restored (`Stored.plain_toValue`).
-/

namespace MarkupEval

namespace Outline

mutual

theorem toNode_ofNode : ∀ n : Node, toNode (ofNode n) = n
  | .text _ => rfl
  | .element tag attrs children => by
    rw [ofNode, toNode, toNodes_ofNodes children]
    congr 1
    exact Attributes.ofPairs_entries attrs

theorem toNodes_ofNodes : ∀ ns : List Node, toNodes (ofNodes ns) = ns
  | [] => rfl
  | n :: ns => by rw [ofNodes, toNodes, toNode_ofNode n, toNodes_ofNodes ns]

end

end Outline

theorem ElementOutline.toElement_ofElement (e : Element) : (ofElement e).toElement = e := by
  simp only [ofElement, toElement, Outline.toNodes_ofNodes, Attributes.ofPairs_entries]

namespace Value

mutual

/-- A value with every transformer replaced by null. -/
def withoutTransformers : Value → Value
  | .array items => .array (itemsWithoutTransformers items)
  | .record es => .record (entriesWithoutTransformers es)
  | .transformer .. => .null
  | v => v

def itemsWithoutTransformers : List Value → List Value
  | [] => []
  | v :: vs => withoutTransformers v :: itemsWithoutTransformers vs

def entriesWithoutTransformers : List (String × Value) → List (String × Value)
  | [] => []
  | (k, v) :: es => (k, withoutTransformers v) :: entriesWithoutTransformers es

end

theorem keys_entriesWithoutTransformers (es : List (String × Value)) :
    Assoc.keys (entriesWithoutTransformers es) = Assoc.keys es := by
  induction es with
  | nil => rfl
  | cons e es ih => simp [entriesWithoutTransformers, ih]

end Value

namespace Stored

open Value

mutual

theorem toValue_ofValue : ∀ {v : Value}, v.WellFormed → (ofValue v).toValue = v.withoutTransformers
  | .element e, _ => congrArg Value.element (ElementOutline.toElement_ofElement e)
  | .nodes ns, _ => congrArg Value.nodes (Outline.toNodes_ofNodes ns)
  | .array items, h => congrArg Value.array (toItems_ofItems h)
  | .record es, h => by
    rw [ofValue, toValue, toEntries_ofEntries h.2, Assoc.ofPairs_eq_self, withoutTransformers]
    rw [keys_entriesWithoutTransformers]
    exact h.1
  | .null, _ | .boolean _, _ | .number _, _ | .string _, _ | .text _, _
  | .transformer .., _ => rfl

theorem toItems_ofItems : ∀ {vs : List Value}, AllWellFormed vs →
    toItems (ofItems vs) = itemsWithoutTransformers vs
  | [], _ => rfl
  | v :: vs, h => by
    rw [ofItems, toItems, toValue_ofValue h.1, toItems_ofItems h.2, itemsWithoutTransformers]

theorem toEntries_ofEntries : ∀ {es : List (String × Value)}, EntriesWellFormed es →
    toEntries (ofEntries es) = entriesWithoutTransformers es
  | [], _ => rfl
  | (k, v) :: es, h => by
    rw [ofEntries, toEntries, toValue_ofValue h.1, toEntries_ofEntries h.2,
      entriesWithoutTransformers]

end

mutual

theorem withoutTransformers_eq_self : ∀ {v : Value}, (ofValue v).isOpaque = false →
    v.withoutTransformers = v
  | .array _, h => congrArg Value.array (itemsWithoutTransformers_eq_self h)
  | .record _, h => congrArg Value.record (entriesWithoutTransformers_eq_self h)
  | .transformer .., h => nomatch h
  | .null, _ | .boolean _, _ | .number _, _ | .string _, _ | .text _, _ | .element _, _
  | .nodes _, _ => rfl

theorem itemsWithoutTransformers_eq_self : ∀ {vs : List Value},
    anyOpaque (ofItems vs) = false → itemsWithoutTransformers vs = vs
  | [], _ => rfl
  | v :: vs, h => by
    rw [ofItems, anyOpaque, Bool.or_eq_false_iff] at h
    rw [itemsWithoutTransformers, withoutTransformers_eq_self h.1,
      itemsWithoutTransformers_eq_self h.2]

theorem entriesWithoutTransformers_eq_self : ∀ {es : List (String × Value)},
    anyEntryOpaque (ofEntries es) = false → entriesWithoutTransformers es = es
  | [], _ => rfl
  | (k, v) :: es, h => by
    rw [ofEntries, anyEntryOpaque, Bool.or_eq_false_iff] at h
    rw [entriesWithoutTransformers, withoutTransformers_eq_self h.1,
      entriesWithoutTransformers_eq_self h.2]

end

theorem toValue_ofValue_of_not_isOpaque {v : Value} (h : v.WellFormed)
    (hv : (ofValue v).isOpaque = false) : (ofValue v).toValue = v :=
  (toValue_ofValue h).trans (withoutTransformers_eq_self hv)

mutual

/-- What is restored holds no transformer. -/
theorem plain_toValue : ∀ s : Stored, s.toValue.Plain
  | .array items => by
    rw [toValue, plain_array]
    exact plain_toItems items
  | .record es => by
    rw [toValue, plain_record]
    refine ⟨Assoc.nodup_keys_ofPairs _, fun e he => ?_⟩
    exact plain_toEntries es e (Assoc.mem_of_mem_ofPairs he)
  | .null | .boolean _ | .number _ | .string _ | .text _ | .element _ | .nodes _
  | .transformer _ => plain_hereditary.leaf rfl

theorem plain_toItems : ∀ ss : List Stored, ∀ v ∈ toItems ss, v.Plain
  | [] => by simp [toItems]
  | s :: ss => by
    rw [toItems, List.forall_mem_cons]
    exact ⟨plain_toValue s, plain_toItems ss⟩

theorem plain_toEntries : ∀ es : List (String × Stored), ∀ e ∈ toEntries es, e.2.Plain
  | [] => by simp [toEntries]
  | (k, s) :: es => by
    rw [toEntries, List.forall_mem_cons]
    exact ⟨plain_toValue s, plain_toEntries es⟩

end

mutual

theorem not_isOpaque_ofValue : ∀ {v : Value}, v.TransformerFree → (ofValue v).isOpaque = false
  | .array _, h => not_anyOpaque_ofItems h
  | .record _, h => not_anyEntryOpaque_ofEntries h
  | .null, _ | .boolean _, _ | .number _, _ | .string _, _ | .text _, _ | .element _, _
  | .nodes _, _ => rfl

theorem not_anyOpaque_ofItems : ∀ {vs : List Value}, AllTransformerFree vs →
    anyOpaque (ofItems vs) = false
  | [], _ => rfl
  | v :: vs, h => by
    rw [ofItems, anyOpaque, not_isOpaque_ofValue h.1, not_anyOpaque_ofItems h.2]
    rfl

theorem not_anyEntryOpaque_ofEntries : ∀ {es : List (String × Value)}, EntriesTransformerFree es →
    anyEntryOpaque (ofEntries es) = false
  | [], _ => rfl
  | (k, v) :: es, h => by
    rw [ofEntries, anyEntryOpaque, not_isOpaque_ofValue h.1, not_anyEntryOpaque_ofEntries h.2]
    rfl

end

theorem toValue_ofValue_of_plain {v : Value} (h : v.Plain) : (ofValue v).toValue = v :=
  toValue_ofValue_of_not_isOpaque h.wellFormed (not_isOpaque_ofValue h.transformerFree)

end Stored

end MarkupEval
