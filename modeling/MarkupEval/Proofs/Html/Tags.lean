import MarkupEval.Html.Writer
import MarkupEval.Proofs.Html.Escaping

/-!
# Tags read back

A start tag is read with the attributes that were written, in their order
(`next?_startTagChars`), and an end tag as one of the same name (`next?_endTagChars`), where names
consist of name characters and values hold no null character.
-/

namespace MarkupEval

namespace Attributes

theorem entries_addNew {as : Attributes} {ps : List (String × String)}
    (h : (Assoc.keys (as.entries ++ ps)).Nodup) : (as.addNew ps).entries = as.entries ++ ps := by
  unfold addNew
  induction ps generalizing as with
  | nil => simp
  | cons p ps ih =>
    have hp : p.1 ∉ Assoc.keys as.entries := Assoc.notMem_keys_of_nodup h
    have hset : (as.setNew p.1 p.2).entries ++ ps = as.entries ++ p :: ps := by
      change Assoc.insertNew p.1 p.2 as.entries ++ ps = _
      rw [Assoc.insertNew_eq_append hp, List.append_assoc, List.singleton_append]
    rw [List.foldl_cons, ih (hset ▸ h), hset]

/-- Adding the entries of attributes one after the other gives the attributes. -/
theorem addNew_entries (as : Attributes) : (∅ : Attributes).addNew as.entries = as := by
  have h : ((∅ : Attributes).addNew as.entries).entries = as.entries := entries_addNew as.nodup
  generalize (∅ : Attributes).addNew as.entries = bs at h
  obtain ⟨es, hes⟩ := bs
  obtain ⟨fs, hfs⟩ := as
  cases h
  rfl

end Attributes

namespace Html

/-- The characters of names that a document may use. -/
def isNameChar (c : Char) : Bool :=
  Text.isAsciiLower c || Text.isDigit c || c == '-' || c == '_'

/-- Names keep clear of the codes of capitals. -/
theorem val_of_isNameChar {c : Char} (h : isNameChar c = true) :
    c.val.toNat ≤ 57 ∨ 95 ≤ c.val.toNat := by
  simp only [isNameChar, Text.isAsciiLower, Text.isDigit, Char.le_def, UInt32.le_iff_toNat_le,
    Char.reduceVal, UInt32.reduceToNat, Bool.or_eq_true, Bool.and_eq_true, decide_eq_true_eq,
    beq_iff_eq] at h
  rcases h with ((hlower | hdigit) | rfl) | rfl
  · omega
  · omega
  · decide
  · decide

theorem not_isAsciiUpper_of_isNameChar {c : Char} (h : isNameChar c = true) :
    Text.isAsciiUpper c = false := by
  have hval := val_of_isNameChar h
  simp only [Text.isAsciiUpper, Char.le_def, UInt32.le_iff_toNat_le, Char.reduceVal,
    UInt32.reduceToNat, Bool.and_eq_false_iff, decide_eq_false_iff_not]
  omega

theorem ne_of_isNameChar {c d : Char} (hc : isNameChar c = true) (hd : isNameChar d = false) :
    c ≠ d := by
  rintro rfl
  rw [hc] at hd
  cases hd

theorem not_isSpace_of_isNameChar {c : Char} (h : isNameChar c = true) : isSpace c = false := by
  simp only [isSpace, Bool.or_eq_false_iff, beq_eq_false_iff_ne]
  exact ⟨⟨⟨⟨ne_of_isNameChar h rfl, ne_of_isNameChar h rfl⟩,
    ne_of_isNameChar h rfl⟩, ne_of_isNameChar h rfl⟩,
    ne_of_isNameChar h rfl⟩

namespace Tag

theorem not_endsTagName_of_isNameChar {c : Char} (h : isNameChar c = true) :
    endsTagName c = false := by
  rw [endsTagName, not_isSpace_of_isNameChar h, beq_false_of_ne (ne_of_isNameChar h rfl),
    beq_false_of_ne (ne_of_isNameChar h rfl)]
  rfl

theorem not_endsAttributeName_of_isNameChar {c : Char} (h : isNameChar c = true) :
    endsAttributeName c = false := by
  rw [endsAttributeName, not_endsTagName_of_isNameChar h,
    beq_false_of_ne (ne_of_isNameChar h rfl)]
  rfl

/-- A name is read as it is written. -/
theorem nameOf_toList {s : String} (h : ∀ c ∈ s.toList, isNameChar c = true) :
    nameOf s.toList = s := by
  have hself : ∀ c ∈ s.toList, shown (Text.lowerChar c) = c := by
    intro c hc
    rw [Text.lowerChar_of_not_isAsciiUpper (not_isAsciiUpper_of_isNameChar (h c hc)), shown,
      if_neg (ne_of_isNameChar (h c hc) rfl)]
  rw [nameOf, List.map_congr_left hself, List.map_id', String.ofList_toList]

/-! ## Attributes -/

theorem readQuoted_escape {cs : List Char} (h : '\x00' ∉ cs) (r : List Char) :
    readQuoted '"' (escape .attribute cs ++ '"' :: r) = (String.ofList cs, r) := by
  have hquote : ∀ c ∈ escape .attribute cs, (c != '"') = true := fun c hc =>
    bne_iff_ne.mpr (ne_quote_of_mem_escape hc)
  have hshown : (escape .attribute cs).map shown = escape .attribute cs := by
    refine (List.map_congr_left fun c hc => ?_).trans (List.map_id' _)
    refine if_neg ?_
    rintro rfl
    exact (mem_escape hc).elim h (by decide)
  rw [readQuoted, List.takeWhile_append_of_pos hquote, List.dropWhile_append_of_pos hquote]
  simp [valueOf, hshown, decode_escape]

/-- An attribute is read after the first character of its name. -/
theorem readAttribute_written {c : Char} {name cs : List Char}
    (hname : ∀ c' ∈ name, isNameChar c' = true) (hcs : '\x00' ∉ cs) (r : List Char) :
    readAttribute c (name ++ '=' :: '"' :: (escape .attribute cs ++ '"' :: r)) =
      ((nameOf (c :: name), String.ofList cs), r) := by
  have hends : ∀ c' ∈ name, (!endsAttributeName c') = true := by
    intro c' hc'
    rw [not_endsAttributeName_of_isNameChar (hname c' hc')]
    rfl
  have hassigned : readAssigned ('=' :: '"' :: (escape .attribute cs ++ '"' :: r)) =
      (String.ofList cs, r) := by
    change readQuoted '"' _ = _
    exact readQuoted_escape hcs r
  rw [readAttribute, List.takeWhile_append_of_pos hends, List.dropWhile_append_of_pos hends]
  simp only [List.takeWhile_cons, List.dropWhile_cons, show endsAttributeName '=' = true from rfl,
    Bool.not_true, Bool.false_eq_true, if_false, hassigned, List.append_nil]

/-- An attribute that is written so that it reads back. -/
structure IsWritable (a : String × String) : Prop where
  name_ne_empty : a.1 ≠ ""
  name : ∀ c ∈ a.1.toList, isNameChar c = true
  null : '\x00' ∉ a.2.toList
  carriageReturn : '\r' ∉ a.2.toList

theorem readAttributes_end (found : Attributes) (r : List Char) :
    readAttributes found ('>' :: r) = some (found, false, r) := by
  rw [readAttributes.eq_def]
  rfl

theorem readAttributes_space (found : Attributes) (r : List Char) :
    readAttributes found (' ' :: r) = readAttributes found r := by
  rw [readAttributes.eq_def]
  rfl

theorem readAttributes_cons {c : Char} (h : isNameChar c = true) (found : Attributes)
    (r : List Char) :
    readAttributes found (c :: r) =
      readAttributes (found.setNew (readAttribute c r).1.1 (readAttribute c r).1.2)
        (readAttribute c r).2 := by
  rw [readAttributes.eq_def]
  simp only [if_neg (ne_of_isNameChar h (show isNameChar '>' = false from rfl)),
    not_isSpace_of_isNameChar h, Bool.false_eq_true, if_false,
    if_neg (ne_of_isNameChar h (show isNameChar '/' = false from rfl))]

theorem readAttributes_attributeChars {a : String × String} (h : IsWritable a)
    (found : Attributes) (r : List Char) :
    readAttributes found (attributeChars a ++ r) = readAttributes (found.setNew a.1 a.2) r := by
  obtain ⟨c, name, hname⟩ := List.exists_cons_of_ne_nil
    fun hnil => h.name_ne_empty (String.toList_eq_nil_iff.mp hnil)
  have hchars : isNameChar c = true ∧ ∀ c' ∈ name, isNameChar c' = true :=
    List.forall_mem_cons.mp (hname ▸ h.name)
  have htext : attributeChars a ++ r =
      ' ' :: c :: (name ++ '=' :: '"' :: (escape .attribute a.2.toList ++ '"' :: r)) := by
    simp [attributeChars, hname]
  have hread := readAttribute_written (c := c) hchars.2 h.null r
  rw [← hname, nameOf_toList h.name, String.ofList_toList] at hread
  rw [htext, readAttributes_space, readAttributes_cons hchars.1, hread]

theorem readAttributes_written {as : List (String × String)} (h : ∀ a ∈ as, IsWritable a)
    (found : Attributes) (r : List Char) :
    readAttributes found (as.flatMap attributeChars ++ '>' :: r) =
      some (found.addNew as, false, r) := by
  induction as generalizing found with
  | nil =>
    rw [List.flatMap_nil, List.nil_append, readAttributes_end]
    rfl
  | cons a as ih =>
    rw [List.forall_mem_cons] at h
    rw [List.flatMap_cons, List.append_assoc, readAttributes_attributeChars h.1, ih h.2]
    rfl

/-! ## Whole tags -/

theorem read?_written {tag : String} {attrs : Attributes}
    (htag : ∀ c ∈ tag.toList, isNameChar c = true) (hattrs : ∀ a ∈ attrs.entries, IsWritable a)
    (r : List Char) :
    read? (tag.toList ++ (attrs.entries.flatMap attributeChars ++ '>' :: r)) =
      some (⟨tag, attrs, false⟩, r) := by
  have hends : ∀ c ∈ tag.toList, (!endsTagName c) = true := by
    intro c hc
    rw [not_endsTagName_of_isNameChar (htag c hc)]
    rfl
  obtain ⟨d, r', hd, hstop⟩ : ∃ d r', attrs.entries.flatMap attributeChars ++ '>' :: r = d :: r' ∧
      (!endsTagName d) = false := by
    cases attrs.entries with
    | nil => exact ⟨'>', r, rfl, rfl⟩
    | cons a as => exact ⟨' ', _, rfl, rfl⟩
  have hread := readAttributes_written hattrs ∅ r
  rw [Attributes.addNew_entries, hd] at hread
  rw [hd, read?, List.takeWhile_append_of_pos hends, List.dropWhile_append_of_pos hends,
    List.takeWhile_cons_of_neg (by simp [hstop]), List.dropWhile_cons_of_neg (by simp [hstop]),
    hread, List.append_nil, nameOf_toList htag]

end Tag

/-- A name that starts with a letter. -/
structure IsTagName (tag : String) : Prop where
  letter : tag.toList.head?.any Text.isAsciiLower = true
  chars : ∀ c ∈ tag.toList, isNameChar c = true

theorem IsTagName.exists_cons {tag : String} (h : IsTagName tag) :
    ∃ c cs, tag.toList = c :: cs ∧ Text.isAsciiLetter c = true := by
  have hletter := h.letter
  cases hcs : tag.toList with
  | nil =>
    rw [hcs] at hletter
    cases hletter
  | cons c cs =>
    rw [hcs] at hletter
    exact ⟨c, cs, rfl, Bool.or_eq_true_iff.mpr (.inr hletter)⟩

variable {tag : String} {attrs : Attributes}

/-- A written start tag is cut off as one piece. -/
theorem next?_startTagChars (htag : IsTagName tag)
    (hattrs : ∀ a ∈ attrs.entries, Tag.IsWritable a) (inForeign : Bool) (r : List Char) :
    Lexer.markup.next? inForeign (startTagChars {} tag attrs ++ r) =
      some ([.startTag ⟨tag, attrs, false⟩], r) := by
  obtain ⟨c, cs, hcs, hletter⟩ := htag.exists_cons
  have hread := Tag.read?_written htag.chars hattrs r
  have htext : startTagChars {} tag attrs ++ r =
      '<' :: (tag.toList ++ (attrs.entries.flatMap attributeChars ++ '>' :: r)) := by
    simp [startTagChars, WriteOptions.attributeOrder]
  rw [htext]
  rw [hcs, List.cons_append] at hread ⊢
  change some (Lexer.afterLess inForeign (c :: _)) = _
  rw [Lexer.afterLess, if_pos hletter, Lexer.startTag, Lexer.tag, hread]

/-- A written end tag is cut off as one piece. -/
theorem next?_endTagChars (htag : IsTagName tag) (inForeign : Bool) (r : List Char) :
    Lexer.markup.next? inForeign (endTagChars {} tag ++ r) = some ([.endTag tag], r) := by
  obtain ⟨c, cs, hcs, hletter⟩ := htag.exists_cons
  have hread := @Tag.read?_written tag ∅ htag.chars (fun a ha => nomatch ha) r
  have htext : endTagChars {} tag ++ r =
      '<' :: '/' ::
        (tag.toList ++ ((Attributes.entries ∅).flatMap attributeChars ++ '>' :: r)) := by
    rw [show Attributes.entries ∅ = [] from rfl]
    simp [endTagChars, WriteOptions.lineBreak]
  rw [htext]
  rw [hcs, List.cons_append] at hread ⊢
  change some (Lexer.afterSlash (c :: _)) = _
  rw [Lexer.afterSlash, if_pos hletter, Lexer.endTag, Lexer.tag, hread]

end Html
end MarkupEval
