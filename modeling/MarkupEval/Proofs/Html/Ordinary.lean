import MarkupEval.Html.Document
import MarkupEval.Proofs.Html.Forest
import MarkupEval.Proofs.Html.Tags
import MarkupEval.Transformer.Registry

/-!
# Reading ordinary elements

Elements without rules of their own (`IsOrdinary`) are put where they stand in the text: a start tag
opens one in the innermost open element, an end tag of the same name closes it, and characters
between them gather in one text. Each lemma reads one written piece in a state that is given by the
forest and its open elements (`Builder.ofFrames`).
-/

namespace MarkupEval
namespace Html

/-- A tag that is read and written without rules of its own. -/
structure IsOrdinary (tag : String) : Prop where
  name : IsTagName tag
  startRule : StartRule.of tag = .other
  endRule : EndRule.of tag = .other
  content : ContentKind.ofTag tag = .normal

/-- A name of lower-case letters, digits and hyphens, of which there is at least one. -/
structure IsCustomTag (tag : String) : Prop where
  letter : tag.toList.head?.any Text.isAsciiLower = true
  chars : ∀ c ∈ tag.toList, Text.isAsciiLower c = true ∨ Text.isDigit c = true ∨ c = '-'
  hyphen : '-' ∈ tag.toList

/-- The tags of documents: those that force a kind, those of transformers, and custom ones. -/
def IsDocumentTag (tag : String) : Prop :=
  tag ∈ Kind.typers.map Kind.name ∨ tag ∈ Registry.builtins.names ∨ IsCustomTag tag

theorem ruleIn_eq_default {α : Type} {rules : List (α × List String)} {tag : String}
    (h : ∀ r ∈ rules, tag ∉ r.2) (default : α) : ruleIn rules default tag = default := by
  have hfind : rules.find? (·.2.contains tag) = none :=
    List.find?_eq_none.mpr fun r hr => by simpa using h r hr
  rw [ruleIn, hfind]

theorem IsCustomTag.isTagName {tag : String} (h : IsCustomTag tag) : IsTagName tag := by
  refine ⟨h.letter, fun c hc => ?_⟩
  rcases h.chars c hc with hc | hc | rfl
  · simp [isNameChar, hc]
  · simp [isNameChar, hc]
  · rfl

/-- No rule names a custom tag. -/
theorem IsCustomTag.isOrdinary {tag : String} (h : IsCustomTag tag) : IsOrdinary tag := by
  have hstart : ∀ r ∈ StartRule.rules, ∀ name ∈ r.2, '-' ∉ name.toList := by decide +kernel
  have hend : ∀ r ∈ EndRule.rules, ∀ name ∈ r.2, '-' ∉ name.toList := by decide +kernel
  have hcontent : ∀ name ∈ voidTags ++ ["script", "style"] ++ ["title", "textarea"],
      '-' ∉ name.toList := by decide +kernel
  have hlower : Text.lower tag = tag := by
    refine String.toList_injective ?_
    rw [Text.lower, String.toList_map]
    refine (List.map_congr_left fun c hc => ?_).trans (List.map_id' _)
    have hname : isNameChar c = true := h.isTagName.chars c hc
    exact Text.lowerChar_of_not_isAsciiUpper (not_isAsciiUpper_of_isNameChar hname)
  refine ⟨h.isTagName, ruleIn_eq_default (fun r hr hmem => hstart r hr _ hmem h.hyphen) _,
    ruleIn_eq_default (fun r hr hmem => hend r hr _ hmem h.hyphen) _, ?_⟩
  have hnot : tag ∉ voidTags ++ ["script", "style"] ++ ["title", "textarea"] :=
    fun hmem => hcontent _ hmem h.hyphen
  rw [List.mem_append, List.mem_append, not_or, not_or] at hnot
  simp only [ContentKind.ofTag, hlower, if_neg hnot.1.1, if_neg hnot.1.2, if_neg hnot.2]

theorem IsDocumentTag.isOrdinary {tag : String} (h : IsDocumentTag tag) : IsOrdinary tag := by
  have hfixed : ∀ tag ∈ Kind.typers.map Kind.name ++ Registry.builtins.names,
      (tag.toList.head?.any Text.isAsciiLower = true ∧ tag.toList.all isNameChar = true) ∧
        StartRule.of tag = .other ∧ EndRule.of tag = .other ∧ ContentKind.ofTag tag = .normal := by
    decide +kernel
  rw [IsDocumentTag, ← or_assoc, ← List.mem_append] at h
  rcases h with h | h
  · obtain ⟨⟨hletter, hchars⟩, hstart, hend, hcontent⟩ := hfixed tag h
    exact ⟨⟨hletter, List.all_eq_true.mp hchars⟩, hstart, hend, hcontent⟩
  · exact h.isOrdinary

namespace Builder

/-- Reading inside open elements. -/
def ofFrames (f : Forest) (frames : List Frame) : Builder where
  forest := f
  stack := frames.map fun e => ⟨e.slot, .html e.tag⟩

theorem readAll_of_next? {b : Builder} {cs rest : List Char} {ts : List Token}
    (h : b.lexer.next? (!b.current.name.isHtml) cs = some (ts, rest)) :
    b.readAll cs = (ts.foldl read b).readAll rest := by
  rw [readAll]
  split
  · next heq =>
    rw [h] at heq
    cases heq
  · next heq =>
    rw [h] at heq
    cases heq
    rfl

theorem readAll_nil (f : Forest) (frames : List Frame) :
    (ofFrames f frames).readAll [] = ofFrames f frames := by
  rw [readAll]
  rfl

variable {f : Forest} {e : Frame} {outer : List Frame}

/-- No token changes the mode. -/
theorem read_ofFrames (t : Token) :
    (ofFrames f (e :: outer)).read t = (ofFrames f (e :: outer)).inBody t := by
  cases t with
  | char c =>
    unfold read
    split
    · next heq => cases heq
    · rfl
    · rfl
  | startTag _ | endTag _ | comment | nothing => rfl

theorem read_char {c : Char} (hc : c ≠ '\x00') :
    (ofFrames f (e :: outer)).read (.char c) =
      ofFrames (f.append e.slot (.text (String.singleton c))) (e :: outer) := by
  rw [read_ofFrames]
  exact if_neg hc

theorem read_startTag {tag : Tag} (h : IsOrdinary tag.name) :
    (ofFrames f (e :: outer)).read (.startTag tag) =
      ofFrames (f.grow e.slot (.element (.html tag.name) tag.attrs))
        (⟨f.slots.size, tag.name, tag.attrs, []⟩ :: e :: outer) := by
  have hopen : (ofFrames f (e :: outer)).startTagInBody tag =
      (ofFrames f (e :: outer)).reopenFormatting.openTag tag := by
    rw [startTagInBody, h.startRule]
  rw [read_ofFrames]
  refine hopen.trans ?_
  rw [← Forest.append_created]
  rfl

theorem read_endTag (h : IsOrdinary e.tag) :
    (ofFrames f (e :: outer)).read (.endTag e.tag) = ofFrames f outer := by
  have hclose : (ofFrames f (e :: outer)).endTagInBody e.tag =
      (ofFrames f (e :: outer)).closeOther e.tag := by
    rw [endTagInBody, h.endRule]
  have hclosing : closing? e.tag (ofFrames f (e :: outer)).stack = some (ofFrames f outer).stack :=
    if_pos rfl
  rw [read_ofFrames]
  refine hclose.trans ?_
  rw [closeOther, hclosing]
  rfl

/-! ## Written pieces -/

theorem readAll_startTagChars {tag : String} {attrs : Attributes} (htag : IsOrdinary tag)
    (hattrs : ∀ a ∈ attrs.entries, Tag.IsWritable a) (rest : List Char) :
    (ofFrames f (e :: outer)).readAll (startTagChars {} tag attrs ++ rest) =
      (ofFrames (f.grow e.slot (.element (.html tag) attrs))
        (⟨f.slots.size, tag, attrs, []⟩ :: e :: outer)).readAll rest := by
  rw [readAll_of_next? (next?_startTagChars htag.name hattrs _ rest)]
  exact congrArg (readAll · rest) (read_startTag htag)

theorem readAll_endTagChars (htag : IsOrdinary e.tag) (rest : List Char) :
    (ofFrames f (e :: outer)).readAll (endTagChars {} e.tag ++ rest) =
      (ofFrames f outer).readAll rest := by
  rw [readAll_of_next? (next?_endTagChars htag.name _ rest)]
  exact congrArg (readAll · rest) (read_endTag htag)

theorem readAll_escapeChar {c : Char} (hc : c ≠ '\x00') (rest : List Char) :
    (ofFrames f (e :: outer)).readAll (escapeChar .text c ++ rest) =
      (ofFrames (f.append e.slot (.text (String.singleton c))) (e :: outer)).readAll rest := by
  rw [readAll_of_next? (next?_escapeChar .text _ c rest)]
  exact congrArg (readAll · rest) (read_char hc)

theorem singleton_append_ofList (c : Char) (cs : List Char) :
    String.singleton c ++ String.ofList cs = String.ofList (c :: cs) :=
  String.toList_injective (by simp)

/-- Characters extend the text that was just begun. -/
theorem readAll_escape_grow (he : e.slot < f.slots.size) {cs : List Char} (hcs : '\x00' ∉ cs)
    (s : String) (rest : List Char) :
    (ofFrames (f.grow e.slot (.text s)) (e :: outer)).readAll (escape .text cs ++ rest) =
      (ofFrames (f.grow e.slot (.text (s ++ String.ofList cs))) (e :: outer)).readAll rest := by
  induction cs generalizing s with
  | nil => simp [escape]
  | cons c cs ih =>
    rw [List.mem_cons, not_or] at hcs
    rw [escape, List.flatMap_cons, List.append_assoc, readAll_escapeChar (Ne.symm hcs.1),
      Forest.append_text_grow he]
    refine (ih hcs.2 _).trans ?_
    rw [String.append_assoc, singleton_append_ofList]

/-- A text that no text stands before is read as one text. -/
theorem readAll_escape (hf : f.textBefore? e.slot none = none) (he : e.slot < f.slots.size)
    {s : String} (hs : s ≠ "") (hnull : '\x00' ∉ s.toList) (rest : List Char) :
    (ofFrames f (e :: outer)).readAll (escape .text s.toList ++ rest) =
      (ofFrames (f.grow e.slot (.text s)) (e :: outer)).readAll rest := by
  obtain ⟨c, cs, hcs⟩ := List.exists_cons_of_ne_nil
    fun hnil => hs (String.toList_eq_nil_iff.mp hnil)
  have hwhole : String.singleton c ++ String.ofList cs = s := by
    rw [singleton_append_ofList, ← hcs, String.ofList_toList]
  rw [hcs, List.mem_cons, not_or] at hnull
  rw [hcs, escape, List.flatMap_cons, List.append_assoc, readAll_escapeChar (Ne.symm hnull.1),
    Forest.append_text hf]
  exact (readAll_escape_grow he hnull.2 _ rest).trans (by rw [hwhole])

end Builder
end Html
end MarkupEval
