import MarkupEval.Html.Token

/-! # Text that is not markup

Inside a few elements the text is no markup: it runs to the end tag of the element. Inside a script
there is one more twist: after `<!--` a nested script element hides an end tag, up to its own end
tag or to `-->`. Each function cuts off the text; the rest starts with the end tag, if there is
one. -/

namespace MarkupEval
namespace Html
namespace RawText

/-- Whether a text goes on with a whole word, the case of letters ignored. -/
def startsWord (word : List Char) (cs : List Char) : Bool :=
  Text.startsWithIgnoringCase word cs && (cs.drop word.length).head?.any Tag.endsTagName

/-- Whether the end tag of an element starts here. -/
def startsEndTag (tag : List Char) : List Char → Bool
  | '<' :: '/' :: cs => startsWord tag cs
  | _ => false

def untilEndTag (tag : List Char) : List Char → List Char × List Char
  | [] => ([], [])
  | c :: cs =>
    if startsEndTag tag (c :: cs) then ([], c :: cs)
    else
      let (text, rest) := untilEndTag tag cs
      (c :: text, rest)

/-! ## Scripts -/

def scriptTag : List Char := "script".toList

/-- How far a script is inside `<!--`. The numbers count the dashes just before. -/
inductive ScriptState
  | bare
  | commented (dashes : Nat)
  /-- Inside a nested script element. -/
  | nested (dashes : Nat)

namespace ScriptState

/-- The state after a character that is followed by the given ones. -/
def next (c : Char) (cs : List Char) : ScriptState → ScriptState
  | .bare => if c = '<' ∧ "!--".toList.isPrefixOf cs then .commented 0 else .bare
  | .commented n =>
    if c = '-' then .commented (n + 1)
    else if c = '>' ∧ 2 ≤ n then .bare
    else if c = '<' ∧ startsWord scriptTag cs then .nested 0
    else .commented 0
  | .nested n =>
    if c = '-' then .nested (n + 1)
    else if c = '>' ∧ 2 ≤ n then .bare
    else if startsEndTag scriptTag (c :: cs) then .commented 0
    else .nested 0

def hidesEndTag : ScriptState → Bool
  | .nested _ => true
  | _ => false

end ScriptState

def untilScriptEnd (state : ScriptState) : List Char → List Char × List Char
  | [] => ([], [])
  | c :: cs =>
    if !state.hidesEndTag && startsEndTag scriptTag (c :: cs) then ([], c :: cs)
    else
      let (text, rest) := untilScriptEnd (state.next c cs) cs
      (c :: text, rest)

/-! ## Nothing is lost -/

theorem untilEndTag_append (tag cs : List Char) :
    (untilEndTag tag cs).1 ++ (untilEndTag tag cs).2 = cs := by
  induction cs with
  | nil => rfl
  | cons c cs ih =>
    unfold untilEndTag
    split
    · rfl
    · simpa using ih

theorem untilScriptEnd_append (state : ScriptState) (cs : List Char) :
    (untilScriptEnd state cs).1 ++ (untilScriptEnd state cs).2 = cs := by
  induction cs generalizing state with
  | nil => rfl
  | cons c cs ih =>
    unfold untilScriptEnd
    split
    · rfl
    · simpa using ih _

end RawText
end Html
end MarkupEval
