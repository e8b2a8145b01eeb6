import MarkupEval.Html.Escape
import MarkupEval.Html.Lexer

/-!
# Escaped text reads back

The references that escaping writes stand for the characters that were escaped. In the value of an
attribute they are decoded together (`decode_escape`); in a text each is cut off as one piece that
is that character alone (`next?_escapeChar`).
-/

namespace MarkupEval
namespace Html

open NamedReference Reference

/-! ## The references that escaping writes -/

/-- The characters that escaping replaces, with the names that stand for them. -/
def escapedNames : List (Char × List Char) :=
  [('&', "amp".toList), ('<', "lt".toList), ('>', "gt".toList), ('"', "quot".toList)]

theorem readName?_semicolon {name : List Char} {s : String}
    (hname : ∀ c ∈ name, Text.isAsciiAlphanumeric c = true) (h : text? name = some s)
    (inAttribute : Bool) (cs : List Char) :
    readName? inAttribute (name ++ ';' :: cs) = some (s.toList, name.length + 1) := by
  have hword : (name ++ ';' :: cs).takeWhile Text.isAsciiAlphanumeric = name := by
    rw [List.takeWhile_append_of_pos hname]
    simp [Text.isAsciiAlphanumeric, Text.isAsciiLetter, Text.isAsciiUpper, Text.isAsciiLower,
      Text.isDigit]
  simp only [readName?, hword, List.drop_left, List.head?_cons, h]

theorem read?_escaped {c : Char} {name : List Char} (h : (c, name) ∈ escapedNames)
    (inAttribute : Bool) (cs : List Char) :
    Reference.read? inAttribute (name ++ ';' :: cs) = some ([c], name.length + 1) := by
  have hletters : ∀ e ∈ escapedNames, e.2.all Text.isAsciiAlphanumeric = true := by decide
  have htext : ∀ e ∈ escapedNames, text? e.2 = some (String.singleton e.1) := by decide +kernel
  have hname := readName?_semicolon (List.all_eq_true.mp (hletters _ h)) (htext _ h) inAttribute cs
  rw [String.toList_singleton] at hname
  simp only [escapedNames, List.mem_cons, Prod.mk.injEq, List.not_mem_nil, or_false] at h
  rcases h with ⟨-, rfl⟩ | ⟨-, rfl⟩ | ⟨-, rfl⟩ | ⟨-, rfl⟩ <;> exact hname

/-- A character is written as a reference to it or as itself. -/
theorem escapeChar_cases (m : EscapeMode) (c : Char) :
    (∃ name, (c, name) ∈ escapedNames ∧ escapeChar m c = '&' :: (name ++ [';'])) ∨
      escapeChar m c = [c] ∧ c ≠ '&' ∧ c ≠ '<' := by
  unfold escapeChar
  split
  · next h => exact .inl ⟨"amp".toList, by simp [escapedNames, h], rfl⟩
  split
  · next h => exact .inl ⟨"lt".toList, by simp [escapedNames, h], rfl⟩
  split
  · next h => exact .inl ⟨"gt".toList, by simp [escapedNames, h.1], rfl⟩
  split
  · next h => exact .inl ⟨"quot".toList, by simp [escapedNames, h.1], rfl⟩
  · next hamp hlt _ _ => exact .inr ⟨rfl, hamp, hlt⟩

/-- What an escaped text holds besides its references is written as itself. -/
theorem escapeChar_of_mem_escape {m : EscapeMode} {c : Char} {cs : List Char}
    (h : c ∈ escape m cs) (hc : c ≠ '&') : escapeChar m c = [c] := by
  have hnames : ∀ e ∈ escapedNames, (e.2 ++ [';']).all (fun d => escapeChar m d == [d]) = true := by
    cases m <;> decide
  obtain ⟨d, -, hd⟩ := List.mem_flatMap.mp h
  obtain ⟨name, hname, hwritten⟩ | ⟨hwritten, -⟩ := escapeChar_cases m d
  · rw [hwritten, List.mem_cons] at hd
    exact eq_of_beq (List.all_eq_true.mp (hnames _ hname) c (hd.resolve_left hc))
  · rw [hwritten, List.mem_singleton] at hd
    exact hd ▸ hwritten

/-! ## In the value of an attribute -/

theorem decodeFrom_skip (inAttribute : Bool) (cs r : List Char) :
    decodeFrom inAttribute cs.length (cs ++ r) = decodeFrom inAttribute 0 r := by
  induction cs with
  | nil => rfl
  | cons c cs ih => exact ih

/-- Decoding undoes escaping. -/
theorem decode_escape (m : EscapeMode) (inAttribute : Bool) (cs : List Char) :
    decode inAttribute (escape m cs) = cs := by
  unfold decode escape
  induction cs with
  | nil => rfl
  | cons c cs ih =>
    rw [List.flatMap_cons]
    obtain ⟨name, hname, hwritten⟩ | ⟨hwritten, hamp, -⟩ := escapeChar_cases m c
    · have hread := read?_escaped hname inAttribute (cs.flatMap (escapeChar m))
      have hskip := decodeFrom_skip inAttribute (name ++ [';']) (cs.flatMap (escapeChar m))
      rw [List.append_assoc, List.singleton_append, List.length_append,
        List.length_singleton] at hskip
      rw [hwritten, List.cons_append, List.append_assoc, List.singleton_append, decodeFrom,
        if_pos rfl, hread]
      exact congrArg (c :: ·) (hskip.trans ih)
    · rw [hwritten, List.singleton_append, decodeFrom, if_neg hamp, ih]

/-- No character of an escaped value closes its quotes. -/
theorem ne_quote_of_mem_escape {c : Char} {cs : List Char} (h : c ∈ escape .attribute cs) :
    c ≠ '"' := by
  rintro rfl
  exact absurd (escapeChar_of_mem_escape h (by decide)) (by decide)

/-- Escaping brings in visible characters only. -/
theorem mem_escape {m : EscapeMode} {c : Char} {cs : List Char} (h : c ∈ escape m cs) :
    c ∈ cs ∨ ' ' < c := by
  have hnames : ∀ e ∈ escapedNames, e.2.all (' ' < ·) = true := by decide
  obtain ⟨d, hd, hc⟩ := List.mem_flatMap.mp h
  obtain ⟨name, hname, hwritten⟩ | ⟨hwritten, -⟩ := escapeChar_cases m d
  · rw [hwritten, List.mem_cons, List.mem_append, List.mem_singleton] at hc
    rcases hc with rfl | hc | rfl
    · exact .inr (by decide)
    · exact .inr (of_decide_eq_true (List.all_eq_true.mp (hnames _ hname) _ hc))
    · exact .inr (by decide)
  · rw [hwritten, List.mem_singleton] at hc
    exact .inl (hc ▸ hd)

/-! ## In a text -/

/-- A written character is cut off as one piece. -/
theorem next?_escapeChar (m : EscapeMode) (inForeign : Bool) (c : Char) (cs : List Char) :
    Lexer.markup.next? inForeign (escapeChar m c ++ cs) = some ([.char c], cs) := by
  obtain ⟨name, hname, hwritten⟩ | ⟨hwritten, hamp, hlt⟩ := escapeChar_cases m c
  · have hread := read?_escaped hname false cs
    have hends : (name ++ ';' :: cs).take (name.length + 1) = name ++ [';'] := by
      rw [List.take_length_add_append]
      rfl
    have hrest : (name ++ ';' :: cs).drop (name.length + 1) = cs := by
      rw [List.drop_length_add_append]
      rfl
    rw [hwritten, List.cons_append, List.append_assoc, List.singleton_append]
    change some (Lexer.afterAmpersand (name ++ ';' :: cs)) = _
    rw [Lexer.afterAmpersand, hread]
    simp [hends, hrest, Lexer.referenceTokens]
  · rw [hwritten, List.singleton_append]
    change some (Lexer.markupPiece inForeign c cs) = _
    rw [Lexer.markupPiece, if_neg hlt, if_neg hamp]

end Html
end MarkupEval
