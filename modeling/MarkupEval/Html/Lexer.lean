import MarkupEval.Html.RawText

/-! # Cutting a text into tokens

`next?` cuts the tokens of one piece of text off: a character, a reference, a tag, a comment, or all
the text up to the end tag where the text is neither markup nor holds references. It always takes
at least one character (`length_next?`), so reading a document ends. -/

namespace MarkupEval
namespace Html

/-- How the text is read that comes next. -/
inductive Lexer
  | markup
  /-- Text with character references, up to the end tag. -/
  | escapable (tag : String)
  /-- Text up to the end tag. -/
  | raw (tag : String)
  | script
  /-- Text up to the end of the document. -/
  | plain

namespace Lexer

/-! ## Comments and declarations -/

/-- What comes after the next closing bracket. -/
def afterBracket (cs : List Char) : List Char := (cs.dropWhile (· != '>')).drop 1

/-- What comes after the end of a comment. -/
def afterCommentEnd : List Char → List Char
  | '-' :: '-' :: '>' :: cs => cs
  | '-' :: '-' :: '!' :: '>' :: cs => cs
  | _ :: cs => afterCommentEnd cs
  | [] => []

/-- What comes after a comment of which the opening dashes are read; it may end at once. -/
def afterComment : List Char → List Char
  | '>' :: cs => cs
  | '-' :: '>' :: cs => cs
  | cs => afterCommentEnd cs

/-- The text of a character data section and what comes after it. -/
def untilDataEnd : List Char → List Char × List Char
  | [] => ([], [])
  | c :: cs =>
    if "]]>".toList.isPrefixOf (c :: cs) then ([], cs.drop 2)
    else
      let (text, rest) := untilDataEnd cs
      (c :: text, rest)

/-- Reads what follows `<!`. Character data sections are known in foreign elements only. -/
def declaration (inForeign : Bool) (cs : List Char) : List Token × List Char :=
  if "--".toList.isPrefixOf cs then ([.comment], afterComment (cs.drop 2))
  else if Text.startsWithIgnoringCase "doctype".toList cs then ([.nothing], afterBracket cs)
  else if inForeign && "[CDATA[".toList.isPrefixOf cs then
    let (text, rest) := untilDataEnd (cs.drop 7)
    (text.map .char, rest)
  else ([.comment], afterBracket cs)

/-! ## Tags -/

/-- Reads a tag from its name on; one that does not end takes all the text. -/
def tag (make : Tag → Token) (cs : List Char) : List Token × List Char :=
  match Tag.read? cs with
  | some (tag, rest) => ([make tag], rest)
  | none => ([], [])

def startTag (cs : List Char) : List Token × List Char := tag .startTag cs

def endTag (cs : List Char) : List Token × List Char := tag (fun tag => .endTag tag.name) cs

/-- Reads what follows `</`. -/
def afterSlash : List Char → List Token × List Char
  | [] => ([.char '<', .char '/'], [])
  | c :: cs =>
    if Text.isAsciiLetter c then endTag (c :: cs)
    else if c = '>' then ([.nothing], cs)
    else ([.comment], afterBracket (c :: cs))

/-- Reads what follows `<`. -/
def afterLess (inForeign : Bool) : List Char → List Token × List Char
  | [] => ([.char '<'], [])
  | c :: cs =>
    if Text.isAsciiLetter c then startTag (c :: cs)
    else if c = '/' then afterSlash cs
    else if c = '!' then declaration inForeign cs
    else if c = '?' then ([.comment], afterBracket cs)
    else ([.char '<'], c :: cs)

/-- The tokens of what a reference stands for; `written` is the reference after its ampersand. -/
def referenceTokens (written text : List Char) : List Token :=
  if written.getLast? = some ';' then text.map .char else .nothing :: text.map .char

/-- Reads what follows `&`. -/
def afterAmpersand (cs : List Char) : List Token × List Char :=
  match Reference.read? false cs with
  | some (text, n) => (referenceTokens (cs.take n) text, cs.drop n)
  | none => ([.char '&'], cs)

/-! ## One piece of text -/

/-- Reads one piece of text that starts with a character. -/
def markupPiece (inForeign : Bool) (c : Char) (cs : List Char) : List Token × List Char :=
  if c = '<' then afterLess inForeign cs
  else if c = '&' then afterAmpersand cs
  else ([.char c], cs)

/-- Reads one piece of a text with references that ends in an end tag. -/
def escapablePiece (tag : List Char) (c : Char) (cs : List Char) : List Token × List Char :=
  if RawText.startsEndTag tag (c :: cs) then endTag (cs.drop 1)
  else if c = '&' then afterAmpersand cs
  else ([.char (shown c)], cs)

/-- A byte order mark at the start of a text is not part of it. -/
def dropMark : List Char → List Char
  | '\uFEFF' :: cs => cs
  | cs => cs

/-- Reads the end tag of a script from its name on. A script may write to the document, so a new
text begins after it. -/
def scriptEndTag (cs : List Char) : List Token × List Char :=
  let (ts, rest) := endTag cs
  (ts, dropMark rest)

/-- Turns a text and its rest into tokens; where there is no text, the rest starts with the end
tag. -/
def textPiece (close : List Char → List Token × List Char) :
    List Char × List Char → List Token × List Char
  | ([], rest) => close (rest.drop 2)
  | (text, rest) => ((text.map shown).map .char, rest)

/-- Cuts one piece off a text that starts with a character. -/
def piece (inForeign : Bool) (c : Char) (cs : List Char) : Lexer → List Token × List Char
  | .markup => markupPiece inForeign c cs
  | .escapable tag => escapablePiece tag.toList c cs
  | .raw tag => textPiece endTag (RawText.untilEndTag tag.toList (c :: cs))
  | .script => textPiece scriptEndTag (RawText.untilScriptEnd .bare (c :: cs))
  | .plain => textPiece endTag (c :: cs, [])

/-- Cuts one piece off a text that is not empty. -/
def next? (inForeign : Bool) (lexer : Lexer) : List Char → Option (List Token × List Char)
  | [] => none
  | c :: cs => some (lexer.piece inForeign c cs)

/-! ## Every piece takes a character -/

theorem length_afterBracket (cs : List Char) : (afterBracket cs).length ≤ cs.length := by
  have := Tag.length_dropWhile_le (· != '>') cs
  simp only [afterBracket, List.length_drop]
  omega

theorem length_afterCommentEnd (cs : List Char) : (afterCommentEnd cs).length ≤ cs.length := by
  fun_induction afterCommentEnd cs with
  | case1 | case2 => simp only [List.length_cons]; omega
  | case3 _ _ _ _ ih => exact Nat.le_succ_of_le ih
  | case4 => exact Nat.le_refl _

theorem length_afterComment (cs : List Char) : (afterComment cs).length ≤ cs.length := by
  unfold afterComment
  split
  · simp
  · simp only [List.length_cons]; omega
  · exact length_afterCommentEnd _

theorem length_untilDataEnd (cs : List Char) : (untilDataEnd cs).2.length ≤ cs.length := by
  induction cs with
  | nil => simp [untilDataEnd]
  | cons c cs ih =>
    unfold untilDataEnd
    split
    · simp only [List.length_drop, List.length_cons]; omega
    · exact Nat.le_succ_of_le ih

theorem length_declaration (inForeign : Bool) (cs : List Char) :
    (declaration inForeign cs).2.length ≤ cs.length := by
  unfold declaration
  split
  · have := length_afterComment (cs.drop 2)
    simp only [List.length_drop] at this ⊢
    omega
  split
  · exact length_afterBracket cs
  split
  · have := length_untilDataEnd (cs.drop 7)
    simp only [List.length_drop] at this ⊢
    omega
  · exact length_afterBracket cs

theorem length_tag (make : Tag → Token) (cs : List Char) : (tag make cs).2.length ≤ cs.length := by
  unfold tag
  split
  · next h => exact Nat.le_of_lt (Tag.length_read? h)
  · exact Nat.zero_le _

theorem length_afterSlash (cs : List Char) : (afterSlash cs).2.length ≤ cs.length := by
  unfold afterSlash
  split
  · exact Nat.le_refl _
  split
  · exact length_tag _ _
  split
  · exact Nat.le_succ _
  · exact length_afterBracket _

theorem length_afterLess (inForeign : Bool) (cs : List Char) :
    (afterLess inForeign cs).2.length ≤ cs.length := by
  unfold afterLess
  split
  · exact Nat.le_refl _
  split
  · exact length_tag _ _
  split
  · exact Nat.le_succ_of_le (length_afterSlash _)
  split
  · exact Nat.le_succ_of_le (length_declaration _ _)
  split
  · exact Nat.le_succ_of_le (length_afterBracket _)
  · exact Nat.le_refl _

theorem length_afterAmpersand (cs : List Char) : (afterAmpersand cs).2.length ≤ cs.length := by
  unfold afterAmpersand
  split
  · simp only [List.length_drop]; omega
  · exact Nat.le_refl _

theorem length_markupPiece (inForeign : Bool) (c : Char) (cs : List Char) :
    (markupPiece inForeign c cs).2.length ≤ cs.length := by
  unfold markupPiece
  split
  · exact length_afterLess _ _
  split
  · exact length_afterAmpersand _
  · exact Nat.le_refl _

theorem length_endTag (cs : List Char) : (endTag cs).2.length ≤ cs.length := length_tag _ cs

theorem length_dropMark (cs : List Char) : (dropMark cs).length ≤ cs.length := by
  unfold dropMark
  split
  · exact Nat.le_succ _
  · exact Nat.le_refl _

theorem length_scriptEndTag (cs : List Char) : (scriptEndTag cs).2.length ≤ cs.length :=
  Nat.le_trans (length_dropMark _) (length_endTag cs)

theorem length_escapablePiece (tag : List Char) (c : Char) (cs : List Char) :
    (escapablePiece tag c cs).2.length ≤ cs.length := by
  unfold escapablePiece
  split
  · have := length_endTag (cs.drop 1)
    simp only [List.length_drop] at this
    omega
  split
  · exact length_afterAmpersand _
  · exact Nat.le_refl _

theorem length_textPiece {close : List Char → List Token × List Char}
    (hclose : ∀ cs, (close cs).2.length ≤ cs.length) {split : List Char × List Char}
    {cs : List Char} (h : split.1 ++ split.2 = cs) (hne : cs ≠ []) :
    (textPiece close split).2.length < cs.length := by
  obtain ⟨text, rest⟩ := split
  subst h
  cases text with
  | nil =>
    have hpos := List.length_pos_iff.mpr hne
    have := hclose (rest.drop 2)
    simp only [textPiece, List.nil_append, List.length_drop] at hpos this ⊢
    omega
  | cons c text => simp only [textPiece, List.length_append, List.length_cons]; omega

theorem length_piece (inForeign : Bool) (c : Char) (cs : List Char) (lexer : Lexer) :
    (lexer.piece inForeign c cs).2.length < (c :: cs).length := by
  have hne := List.cons_ne_nil c cs
  cases lexer with
  | markup => exact Nat.lt_succ_of_le (length_markupPiece inForeign c cs)
  | escapable tag => exact Nat.lt_succ_of_le (length_escapablePiece tag.toList c cs)
  | raw tag => exact length_textPiece length_endTag (RawText.untilEndTag_append tag.toList _) hne
  | script => exact length_textPiece length_scriptEndTag (RawText.untilScriptEnd_append .bare _) hne
  | plain => exact length_textPiece length_endTag (List.append_nil _) hne

theorem length_next? {lexer : Lexer} {inForeign : Bool} {cs rest : List Char} {ts : List Token}
    (h : lexer.next? inForeign cs = some (ts, rest)) : rest.length < cs.length := by
  cases cs with
  | nil => simp [next?] at h
  | cons c cs =>
    simp only [next?, Option.some.injEq] at h
    have := length_piece inForeign c cs lexer
    rwa [h] at this

end Lexer
end Html
end MarkupEval
