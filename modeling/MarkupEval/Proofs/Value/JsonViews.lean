import MarkupEval.Proofs.Value.Congruence

/-!
# Where plain and marked JSON agree

The two views of values as JSON are separate recursions, which treat only markup, transformers and
strings that start like a marker in different ways. Without any of these the views are the same
(`plainJson_eq_encode`), and so are the texts of arrays and records (`stringOf_eq_stringify`).
-/

namespace MarkupEval
namespace Value

mutual

/-- There is no markup, no transformer and no string that starts like a marker, at any depth of
arrays and records. Keys are not restricted. -/
def Unmarked : Value → Prop
  | .string s => ¬MarkedText.markerStart <+: s.toList
  | .text _ => False
  | .element _ => False
  | .nodes _ => False
  | .array items => AllUnmarked items
  | .record entries => EntriesUnmarked entries
  | .transformer .. => False
  | _ => True

def AllUnmarked : List Value → Prop
  | [] => True
  | v :: vs => v.Unmarked ∧ AllUnmarked vs

def EntriesUnmarked : List (String × Value) → Prop
  | [] => True
  | (_, v) :: es => v.Unmarked ∧ EntriesUnmarked es

end

theorem allUnmarked_iff {vs : List Value} : AllUnmarked vs ↔ ∀ v ∈ vs, v.Unmarked := by
  induction vs with
  | nil => simp [AllUnmarked]
  | cons v vs ih => simp [AllUnmarked, ih]

theorem entriesUnmarked_iff {es : List (String × Value)} :
    EntriesUnmarked es ↔ ∀ e ∈ es, e.2.Unmarked := by
  induction es with
  | nil => simp [EntriesUnmarked]
  | cons e es ih => simp [EntriesUnmarked, ih]

theorem encodeString_of_not_isPrefix {s : String} (h : ¬MarkedText.markerStart <+: s.toList) :
    MarkedText.encodeString s = .string s :=
  if_neg (mt List.isPrefixOf_iff_prefix.mp h)

/-- The views agree at every place of an unmarked value. -/
theorem plainJson_eq_encode {v : Value} (hv : v.Unmarked) : v.plainJson = MarkedText.encode v := by
  induction v using Value.induction with
  | leaf v hleaf =>
    cases v with
    | array items | record es | transformer name args op => cases hleaf
    | null | boolean b | number x => rfl
    | string s => exact (encodeString_of_not_isPrefix hv).symm
    | text s | element e | nodes ns => exact hv.elim
  | array items ih =>
    have hitems := allUnmarked_iff.mp hv
    rw [isView_plainJson.array, isView_encode.array,
      List.map_congr_left fun w hw => ih w hw (hitems w hw)]
  | record es ih =>
    have hentries := entriesUnmarked_iff.mp hv
    have hmap : (es.map fun e => (e.1, e.2.plainJson)) =
        es.map fun e => (e.1, MarkedText.encode e.2) :=
      List.map_congr_left fun e he => congrArg (Prod.mk e.1) (ih e he (hentries e he))
    rw [isView_plainJson.record, isView_encode.record, hmap]
  | transformer name args op => exact hv.elim

theorem stringOf_eq_text {v : Value} (hkind : v.kind = .array ∨ v.kind = .record) :
    v.stringOf = v.plainJson.text := by
  cases v with
  | array items | record es => rfl
  | _ => rcases hkind with h | h <;> cases h

/-- An unmarked array or record has the same text and marked text. -/
theorem stringOf_eq_stringify {v : Value} (hkind : v.kind = .array ∨ v.kind = .record)
    (hv : v.Unmarked) : v.stringOf = MarkedText.stringify v := by
  rw [stringOf_eq_text hkind, plainJson_eq_encode hv]
  rfl

/-- A record with a key that starts like a marker, numbers that are not finite and keys that are
not in order. -/
def unmarked : Value :=
  .record [("b", .array [.number .nan, .string "%-%%-", .record [("%%-text-%%", .boolean true)]]),
    ("a", .array [.number (.infinity true), .null, .number (.zero true)])]

theorem stringOf_eq_stringify_unmarked :
    unmarked.kind = .record ∧ unmarked.Unmarked ∧
      unmarked.stringOf =
        "\x7b\"a\":[null,null,0],\"b\":[null,\"%-%%-\",\x7b\"%%-text-%%\":true\x7d]\x7d" ∧
      unmarked.stringOf = MarkedText.stringify unmarked := by
  have hstring : ¬MarkedText.markerStart <+: "%-%%-".toList := by decide
  have hunmarked : unmarked.Unmarked :=
    ⟨⟨trivial, hstring, ⟨trivial, trivial⟩, trivial⟩, ⟨trivial, trivial, trivial, trivial⟩, trivial⟩
  exact ⟨rfl, hunmarked, by decide +kernel, stringOf_eq_stringify (.inr rfl) hunmarked⟩

end Value
end MarkupEval
