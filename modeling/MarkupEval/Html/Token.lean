import MarkupEval.Html.Reference
import MarkupEval.Markup.Attributes

/-! # Tokens and tags

What the text of a document is cut into: single characters, tags and comments. Of a tag the letters
of the name and of the attribute names are lower-case, and of two attributes of one name the first
one counts. A tag that the text ends in is none. -/

namespace MarkupEval
namespace Html

structure Tag where
  name : String
  attrs : Attributes := ∅
  selfClosing : Bool := false

inductive Token
  | char (c : Char)
  | startTag (tag : Tag)
  | endTag (name : String)
  | comment
  /-- What leaves no trace: a document type, an end tag without a name, the place where a reference
  lacks its semicolon. It only parts what stands on both sides of it. -/
  | nothing

/-- The blanks of markup. -/
def isSpace (c : Char) : Bool := c == ' ' || c == '\t' || c == '\n' || c == '\x0C' || c == '\r'

/-- A character that cannot be part of a document is replaced. -/
def shown (c : Char) : Char := if c = '\x00' then Reference.replacement else c

/-- Lines end in a line feed, whichever way they ended. -/
def unifyLines : List Char → List Char
  | '\r' :: '\n' :: cs => '\n' :: unifyLines cs
  | '\r' :: cs => '\n' :: unifyLines cs
  | c :: cs => c :: unifyLines cs
  | [] => []

namespace Tag

def endsTagName (c : Char) : Bool := isSpace c || c == '/' || c == '>'

def endsAttributeName (c : Char) : Bool := endsTagName c || c == '='

def endsBareValue (c : Char) : Bool := isSpace c || c == '>'

/-- A name as it is written, in lower-case letters. -/
def nameOf (cs : List Char) : String := String.ofList (cs.map fun c => shown (Text.lowerChar c))

/-- The value of an attribute as it is written, with its references decoded. -/
def valueOf (cs : List Char) : String := String.ofList (Reference.decode true (cs.map shown))

/-! ## Reading attributes -/

/-- Reads a value up to its closing quote. -/
def readQuoted (quote : Char) (cs : List Char) : String × List Char :=
  (valueOf (cs.takeWhile (· != quote)), (cs.dropWhile (· != quote)).drop 1)

def readValue (cs : List Char) : String × List Char :=
  match cs.dropWhile isSpace with
  | '"' :: cs => readQuoted '"' cs
  | '\'' :: cs => readQuoted '\'' cs
  | cs => (valueOf (cs.takeWhile (!endsBareValue ·)), cs.dropWhile (!endsBareValue ·))

/-- What follows the name of an attribute: a value after an equals sign, if there is one. -/
def readAssigned (cs : List Char) : String × List Char :=
  match cs.dropWhile isSpace with
  | '=' :: cs => readValue cs
  | cs => ("", cs)

/-- Reads an attribute after the first character of its name, which may be any one. -/
def readAttribute (c : Char) (cs : List Char) : (String × String) × List Char :=
  let (value, rest) := readAssigned (cs.dropWhile (!endsAttributeName ·))
  ((nameOf (c :: cs.takeWhile (!endsAttributeName ·)), value), rest)

theorem length_dropWhile_le (p : Char → Bool) (cs : List Char) :
    (cs.dropWhile p).length ≤ cs.length :=
  (List.dropWhile_suffix p).length_le

theorem length_readQuoted (quote : Char) (cs : List Char) :
    (readQuoted quote cs).2.length ≤ cs.length := by
  have := length_dropWhile_le (· != quote) cs
  simp only [readQuoted, List.length_drop]
  omega

theorem length_readValue (cs : List Char) : (readValue cs).2.length ≤ cs.length := by
  have h := length_dropWhile_le isSpace cs
  unfold readValue
  split
  · next hc =>
    have := length_readQuoted '"' (by assumption)
    simp only [hc, List.length_cons] at h
    omega
  · next hc =>
    have := length_readQuoted '\'' (by assumption)
    simp only [hc, List.length_cons] at h
    omega
  · exact Nat.le_trans (length_dropWhile_le _ _) h

theorem length_readAssigned (cs : List Char) : (readAssigned cs).2.length ≤ cs.length := by
  have h := length_dropWhile_le isSpace cs
  unfold readAssigned
  split
  · next rest hc =>
    have := length_readValue rest
    simp only [hc, List.length_cons] at h
    omega
  · exact h

theorem length_readAttribute (c : Char) (cs : List Char) :
    (readAttribute c cs).2.length ≤ cs.length :=
  Nat.le_trans (length_readAssigned _) (length_dropWhile_le _ _)

/-- Reads attributes up to the end of the tag; the flag says whether the tag closes itself. -/
def readAttributes (found : Attributes) : List Char → Option (Attributes × Bool × List Char)
  | [] => none
  | c :: cs =>
    if c = '>' then some (found, false, cs)
    else if isSpace c then readAttributes found cs
    else if c = '/' then
      match cs with
      | '>' :: cs => some (found, true, cs)
      | cs => readAttributes found cs
    else
      let read := readAttribute c cs
      readAttributes (found.setNew read.1.1 read.1.2) read.2
termination_by cs => cs.length
decreasing_by
  all_goals simp_wf
  have := length_readAttribute c cs
  omega

theorem length_readAttributes {found : Attributes} {cs rest : List Char} {as : Attributes}
    {closed : Bool} (h : readAttributes found cs = some (as, closed, rest)) :
    rest.length < cs.length := by
  fun_induction readAttributes found cs with
  | case1 => simp at h
  | case2 =>
    simp only [Option.some.injEq, Prod.mk.injEq] at h
    simp [← h.2.2]
  | case3 _ _ _ _ _ ih => exact Nat.lt_succ_of_lt (ih h)
  | case4 =>
    simp only [Option.some.injEq, Prod.mk.injEq] at h
    simp only [← h.2.2, List.length_cons]
    omega
  | case5 _ _ _ _ _ ih => exact Nat.lt_succ_of_lt (ih h)
  | case6 _ c cs _ _ _ _ ih =>
    exact Nat.lt_of_lt_of_le (ih h) (Nat.le_succ_of_le (length_readAttribute c cs))

/-! ## Reading a tag -/

/-- Reads a tag from its name on. -/
def read? (cs : List Char) : Option (Tag × List Char) :=
  match readAttributes ∅ (cs.dropWhile (!endsTagName ·)) with
  | some (attrs, selfClosing, rest) =>
    some (⟨nameOf (cs.takeWhile (!endsTagName ·)), attrs, selfClosing⟩, rest)
  | none => none

theorem length_read? {cs rest : List Char} {tag : Tag} (h : read? cs = some (tag, rest)) :
    rest.length < cs.length := by
  unfold read? at h
  split at h
  · next heq =>
    have := length_readAttributes heq
    have := length_dropWhile_le (!endsTagName ·) cs
    simp only [Option.some.injEq, Prod.mk.injEq] at h
    rw [← h.2]
    omega
  · simp at h

end Tag
end Html
end MarkupEval
