import MarkupEval.Proofs.Value.Restored

/-!
# What storing loses, and what restoring loses

Of a well-formed value the stored form loses its transformers and nothing else, and it tells that
there was one (`Stored.isOpaque_ofValue_iff`). A stored form that is read from outside may repeat
the key of a record or the attribute of an element, which no value can. Restoring and storing it
again gives it back exactly if it does not, and if it holds no transformer
(`Stored.ofValue_toValue_iff`).
-/

namespace MarkupEval

namespace Outline

mutual

/-- No element repeats the name of an attribute, at any depth. -/
def Distinct : Outline → Prop
  | .text _ => True
  | .element _ attrs children => (Assoc.keys attrs).Nodup ∧ AllDistinct children

def AllDistinct : List Outline → Prop
  | [] => True
  | o :: os => o.Distinct ∧ AllDistinct os

end

mutual

theorem distinct_ofNode : ∀ n : Node, (ofNode n).Distinct
  | .text _ => trivial
  | .element _ attrs children => ⟨attrs.nodup, allDistinct_ofNodes children⟩

theorem allDistinct_ofNodes : ∀ ns : List Node, AllDistinct (ofNodes ns)
  | [] => trivial
  | n :: ns => ⟨distinct_ofNode n, allDistinct_ofNodes ns⟩

end

mutual

theorem ofNode_toNode : ∀ {o : Outline}, o.Distinct → ofNode o.toNode = o
  | .text _, _ => rfl
  | .element tag attrs children, h => by
    rw [toNode, ofNode, ofNodes_toNodes h.2]
    congr 1
    exact Assoc.ofPairs_eq_self h.1

theorem ofNodes_toNodes : ∀ {os : List Outline}, AllDistinct os → ofNodes (toNodes os) = os
  | [], _ => rfl
  | o :: os, h => by rw [toNodes, ofNodes, ofNode_toNode h.1, ofNodes_toNodes h.2]

end

end Outline

namespace ElementOutline

/-- Neither the element nor one below it repeats the name of an attribute. -/
def Distinct (o : ElementOutline) : Prop :=
  (Assoc.keys o.attrs).Nodup ∧ Outline.AllDistinct o.children

theorem distinct_ofElement (e : Element) : (ofElement e).Distinct :=
  ⟨e.attrs.nodup, Outline.allDistinct_ofNodes e.children⟩

theorem ofElement_toElement {o : ElementOutline} (h : o.Distinct) : ofElement o.toElement = o := by
  obtain ⟨tag, attrs, children⟩ := o
  rw [toElement, ofElement, Outline.ofNodes_toNodes h.2]
  congr 1
  exact Assoc.ofPairs_eq_self h.1

end ElementOutline

namespace Stored

/-! ## Transformers -/

mutual

theorem transformerFree_of_not_isOpaque : ∀ {v : Value}, (ofValue v).isOpaque = false →
    v.TransformerFree
  | .array _, h => allTransformerFree_of_not_anyOpaque h
  | .record _, h => entriesTransformerFree_of_not_anyEntryOpaque h
  | .transformer .., h => nomatch h
  | .null, _ | .boolean _, _ | .number _, _ | .string _, _ | .text _, _ | .element _, _
  | .nodes _, _ => trivial

theorem allTransformerFree_of_not_anyOpaque : ∀ {vs : List Value},
    anyOpaque (ofItems vs) = false → Value.AllTransformerFree vs
  | [], _ => trivial
  | v :: vs, h => by
    rw [ofItems, anyOpaque, Bool.or_eq_false_iff] at h
    exact ⟨transformerFree_of_not_isOpaque h.1, allTransformerFree_of_not_anyOpaque h.2⟩

theorem entriesTransformerFree_of_not_anyEntryOpaque : ∀ {es : List (String × Value)},
    anyEntryOpaque (ofEntries es) = false → Value.EntriesTransformerFree es
  | [], _ => trivial
  | (_, v) :: es, h => by
    rw [ofEntries, anyEntryOpaque, Bool.or_eq_false_iff] at h
    exact ⟨transformerFree_of_not_isOpaque h.1, entriesTransformerFree_of_not_anyEntryOpaque h.2⟩

end

theorem isOpaque_ofValue_iff {v : Value} : (ofValue v).isOpaque = true ↔ ¬v.TransformerFree := by
  constructor
  · intro h hfree
    rw [not_isOpaque_ofValue hfree] at h
    cases h
  · intro h
    apply Bool.of_not_eq_false
    intro hopaque
    exact h (transformerFree_of_not_isOpaque hopaque)

/-! ## Forms that restoring keeps -/

mutual

/-- Nothing is lost when a form is restored: it holds no transformer, no record repeats a key and
no element repeats the name of an attribute. -/
def Lossless : Stored → Prop
  | .element o => o.Distinct
  | .nodes os => Outline.AllDistinct os
  | .array items => AllLossless items
  | .record entries => (Assoc.keys entries).Nodup ∧ EntriesLossless entries
  | .transformer _ => False
  | _ => True

def AllLossless : List Stored → Prop
  | [] => True
  | s :: ss => s.Lossless ∧ AllLossless ss

def EntriesLossless : List (String × Stored) → Prop
  | [] => True
  | (_, s) :: es => s.Lossless ∧ EntriesLossless es

end

theorem keys_ofEntries (es : List (String × Value)) :
    Assoc.keys (ofEntries es) = Assoc.keys es := by
  induction es with
  | nil => rfl
  | cons e es ih => simp [ofEntries, ih]

theorem keys_toEntries (es : List (String × Stored)) :
    Assoc.keys (toEntries es) = Assoc.keys es := by
  induction es with
  | nil => rfl
  | cons e es ih => simp [toEntries, ih]

mutual

/-- A plain value is stored in a form that restoring keeps. -/
theorem lossless_ofValue : ∀ {v : Value}, v.WellFormed → v.TransformerFree → (ofValue v).Lossless
  | .element e, _, _ => ElementOutline.distinct_ofElement e
  | .nodes ns, _, _ => Outline.allDistinct_ofNodes ns
  | .array _, hwf, hfree => allLossless_ofItems hwf hfree
  | .record es, hwf, hfree =>
    ⟨(keys_ofEntries es).symm ▸ hwf.1, entriesLossless_ofEntries hwf.2 hfree⟩
  | .transformer .., _, hfree => hfree
  | .null, _, _ | .boolean _, _, _ | .number _, _, _ | .string _, _, _ | .text _, _, _ => trivial

theorem allLossless_ofItems : ∀ {vs : List Value}, Value.AllWellFormed vs →
    Value.AllTransformerFree vs → AllLossless (ofItems vs)
  | [], _, _ => trivial
  | _ :: _, hwf, hfree => ⟨lossless_ofValue hwf.1 hfree.1, allLossless_ofItems hwf.2 hfree.2⟩

theorem entriesLossless_ofEntries : ∀ {es : List (String × Value)}, Value.EntriesWellFormed es →
    Value.EntriesTransformerFree es → EntriesLossless (ofEntries es)
  | [], _, _ => trivial
  | (_, _) :: _, hwf, hfree =>
    ⟨lossless_ofValue hwf.1 hfree.1, entriesLossless_ofEntries hwf.2 hfree.2⟩

end

mutual

theorem ofValue_toValue : ∀ {s : Stored}, s.Lossless → ofValue s.toValue = s
  | .element _, h => congrArg Stored.element (ElementOutline.ofElement_toElement h)
  | .nodes _, h => congrArg Stored.nodes (Outline.ofNodes_toNodes h)
  | .array _, h => congrArg Stored.array (ofItems_toItems h)
  | .record es, h => by
    rw [toValue, Assoc.ofPairs_eq_self ((keys_toEntries es).symm ▸ h.1), ofValue,
      ofEntries_toEntries h.2]
  | .transformer _, h => h.elim
  | .null, _ | .boolean _, _ | .number _, _ | .string _, _ | .text _, _ => rfl

theorem ofItems_toItems : ∀ {ss : List Stored}, AllLossless ss → ofItems (toItems ss) = ss
  | [], _ => rfl
  | s :: ss, h => by rw [toItems, ofItems, ofValue_toValue h.1, ofItems_toItems h.2]

theorem ofEntries_toEntries : ∀ {es : List (String × Stored)}, EntriesLossless es →
    ofEntries (toEntries es) = es
  | [], _ => rfl
  | (k, s) :: es, h => by rw [toEntries, ofEntries, ofValue_toValue h.1, ofEntries_toEntries h.2]

end

/-- What a restored form is stored as has lost what it had of transformers and repetitions, so it
is the form itself only if there were none. -/
theorem ofValue_toValue_iff {s : Stored} : ofValue s.toValue = s ↔ s.Lossless := by
  refine ⟨fun h => ?_, ofValue_toValue⟩
  have hplain := plain_toValue s
  exact h ▸ lossless_ofValue hplain.wellFormed hplain.transformerFree

/-- Storing is exact both ways: a value comes back up to its transformers, of which the stored form
knows whether there are any, and a stored form comes back if and only if it could come from a
value without transformers. -/
theorem storing_exact :
    (∀ v : Value, v.WellFormed → (ofValue v).toValue = v.withoutTransformers ∧
      ((ofValue v).isOpaque = true ↔ ¬v.TransformerFree)) ∧
    ∀ s : Stored, ofValue s.toValue = s ↔ s.Lossless :=
  ⟨fun _ hv => ⟨toValue_ofValue hv, isOpaque_ofValue_iff⟩, fun _ => ofValue_toValue_iff⟩

/-- A transformer inside an array of a record; and a form that repeats an attribute. -/
theorem storing_exact_nested :
    let operation : Value := .transformer "suffix" [.string "!"] (.smart .suffix)
    let value : Value := .record
      [("b", .array [.number (.zero true), operation]), ("a", .element ⟨"p", ∅, [.text " "]⟩)]
    let restored : Value := .record
      [("b", .array [.number (.zero true), .null]), ("a", .element ⟨"p", ∅, [.text " "]⟩)]
    let repeated : Stored := .nodes [.text "", .element "p" [("id", "1"), ("id", "2")] []]
    ((ofValue value).toValue = restored ∧ (ofValue value).isOpaque = true) ∧
      ofValue repeated.toValue ≠ repeated := by
  intro operation value restored repeated
  obtain ⟨hvalue, hopaque⟩ := storing_exact.1 value (by
    refine ⟨by decide, ⟨trivial, ?_, trivial⟩, trivial, trivial⟩
    exact ⟨trivial, trivial⟩)
  refine ⟨⟨hvalue, hopaque.mpr fun h => h.1.2.1⟩, fun h => ?_⟩
  have hlossless : repeated.Lossless := (storing_exact.2 repeated).mp h
  exact absurd hlossless.2.1.1 (by decide)

end Stored

end MarkupEval
