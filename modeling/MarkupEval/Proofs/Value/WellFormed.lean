import MarkupEval.Proofs.Value.Hereditary

/-!
# Well-formed values, and values without transformers

A value is well formed if no record of it holds a key twice. A plain value holds no transformer
either. Both can be told from the values inside, so that every operation on values keeps them
(`wellFormed_hereditary`, `plain_hereditary`).
-/

namespace MarkupEval
namespace Value

/-! ## Well-formed values -/

theorem allWellFormed_iff {vs : List Value} : AllWellFormed vs ↔ ∀ v ∈ vs, v.WellFormed := by
  induction vs with
  | nil => simp [AllWellFormed]
  | cons v vs ih => simp [AllWellFormed, ih]

theorem entriesWellFormed_iff {es : List (String × Value)} :
    EntriesWellFormed es ↔ ∀ e ∈ es, e.2.WellFormed := by
  induction es with
  | nil => simp [EntriesWellFormed]
  | cons e es ih => simp [EntriesWellFormed, ih]

@[simp] theorem wellFormed_null : null.WellFormed := trivial

@[simp] theorem wellFormed_boolean (b : Bool) : (boolean b).WellFormed := trivial

@[simp] theorem wellFormed_number (x : Binary64) : (number x).WellFormed := trivial

@[simp] theorem wellFormed_string (s : String) : (string s).WellFormed := trivial

@[simp] theorem wellFormed_text (s : String) : (text s).WellFormed := trivial

@[simp] theorem wellFormed_element (e : Element) : (element e).WellFormed := trivial

@[simp] theorem wellFormed_nodes (ns : List Node) : (nodes ns).WellFormed := trivial

@[simp] theorem wellFormed_array {items : List Value} :
    (array items).WellFormed ↔ ∀ v ∈ items, v.WellFormed := allWellFormed_iff

@[simp] theorem wellFormed_record {es : List (String × Value)} :
    (record es).WellFormed ↔ (Assoc.keys es).Nodup ∧ ∀ e ∈ es, e.2.WellFormed :=
  and_congr_right' entriesWellFormed_iff

@[simp] theorem wellFormed_transformer {name : String} {args : List Value} {op : Operation} :
    (transformer name args op).WellFormed ↔ ∀ v ∈ args, v.WellFormed := allWellFormed_iff

@[simp] theorem wellFormed_ofNode (n : Node) : (ofNode n).WellFormed := by
  cases n <;> simp [ofNode]

theorem wellFormed_hereditary : Hereditary True WellFormed where
  leaf {v} h := by
    cases v with
    | array items | record es | transformer name args op => cases h
    | _ => trivial
  array := wellFormed_array
  record := wellFormed_record
  transformer := by simp

/-! ## Values without transformers -/

mutual

/-- There is no transformer, at any depth of arrays and records. -/
def TransformerFree : Value → Prop
  | .array items => AllTransformerFree items
  | .record entries => EntriesTransformerFree entries
  | .transformer .. => False
  | _ => True

def AllTransformerFree : List Value → Prop
  | [] => True
  | v :: vs => v.TransformerFree ∧ AllTransformerFree vs

def EntriesTransformerFree : List (String × Value) → Prop
  | [] => True
  | (_, v) :: es => v.TransformerFree ∧ EntriesTransformerFree es

end

theorem allTransformerFree_iff {vs : List Value} :
    AllTransformerFree vs ↔ ∀ v ∈ vs, v.TransformerFree := by
  induction vs with
  | nil => simp [AllTransformerFree]
  | cons v vs ih => simp [AllTransformerFree, ih]

theorem entriesTransformerFree_iff {es : List (String × Value)} :
    EntriesTransformerFree es ↔ ∀ e ∈ es, e.2.TransformerFree := by
  induction es with
  | nil => simp [EntriesTransformerFree]
  | cons e es ih => simp [EntriesTransformerFree, ih]

/-- Well formed and without transformers. -/
structure Plain (v : Value) : Prop where
  wellFormed : v.WellFormed
  transformerFree : v.TransformerFree

theorem plain_array {items : List Value} : (array items).Plain ↔ ∀ v ∈ items, v.Plain := by
  constructor
  · rintro ⟨hwf, hfree⟩ v hv
    exact ⟨wellFormed_array.mp hwf v hv, allTransformerFree_iff.mp hfree v hv⟩
  · intro h
    exact ⟨wellFormed_array.mpr fun v hv => (h v hv).wellFormed,
      allTransformerFree_iff.mpr fun v hv => (h v hv).transformerFree⟩

theorem plain_record {es : List (String × Value)} :
    (record es).Plain ↔ (Assoc.keys es).Nodup ∧ ∀ e ∈ es, e.2.Plain := by
  constructor
  · rintro ⟨hwf, hfree⟩
    obtain ⟨hkeys, hes⟩ := wellFormed_record.mp hwf
    exact ⟨hkeys, fun e he => ⟨hes e he, entriesTransformerFree_iff.mp hfree e he⟩⟩
  · rintro ⟨hkeys, hes⟩
    exact ⟨wellFormed_record.mpr ⟨hkeys, fun e he => (hes e he).wellFormed⟩,
      entriesTransformerFree_iff.mpr fun e he => (hes e he).transformerFree⟩

theorem not_plain_transformer {name : String} {args : List Value} {op : Operation} :
    ¬(transformer name args op).Plain := fun h => h.transformerFree

theorem Plain.kind_ne {v : Value} (h : v.Plain) : v.kind ≠ .transformer := by
  cases v with
  | transformer name args op => exact absurd h not_plain_transformer
  | _ => exact nofun

theorem plain_hereditary : Hereditary False Plain where
  leaf {v} h := by
    cases v with
    | array items | record es | transformer name args op => cases h
    | _ => exact ⟨trivial, trivial⟩
  array := plain_array
  record := plain_record
  transformer := by simp [not_plain_transformer]

end Value
end MarkupEval
