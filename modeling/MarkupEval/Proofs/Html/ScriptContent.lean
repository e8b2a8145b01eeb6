import Mathlib.Data.List.Infix
import MarkupEval.Html.Writer

/-!
# What stands in a script

Nothing between the tags of a written script closes it, except where its texts are cut in the
middle of what does: each text is written on its own (`htmlWith_script`).

The scan of a text is followed with an arbitrary text after it (`closesScript_escapeScript_append`).
What it changes always starts with the opening `<` of an end tag, so a text and its written form
agree up to their next `<` (`untilOpen`), and the rest of an end tag that has begun is found in both
or in neither.
-/

namespace MarkupEval
namespace Html

open Text (lowerChar startsWithIgnoringCase)

/-! ## Ends of scripts in texts -/

/-- The start of an end tag of scripts occurs in a text, in any case of its letters. -/
def ClosesScript (cs : List Char) : Prop := scriptEnd <:+: cs.map lowerChar

/-- The start of an end tag of scripts begins in a text and ends in what comes after it. -/
def ClosesInto (cs after : List Char) : Prop :=
  ∃ b, b <:+ cs ∧ b ≠ [] ∧ b.length < scriptEnd.length ∧ scriptEnd <+: (b ++ after).map lowerChar

/-- The start of an end tag of scripts goes across the end of a text into those that follow. -/
def ClosesAcross (ts : List (List Char)) : Prop :=
  ∃ before t after, ts = before ++ t :: after ∧ ClosesInto t after.flatten

/-- The texts among children. -/
def textsOf (children : List Node) : List (List Char) :=
  (children.filterMap Node.text?).map String.toList

variable {c : Char} {cs r x y : List Char} {t : List Char} {ts : List (List Char)}

theorem closesScript_cons : ClosesScript (c :: cs) ↔
    scriptEnd <+: (c :: cs).map lowerChar ∨ ClosesScript cs := List.infix_cons_iff

theorem not_closesInto_nil : ¬ClosesInto [] x := fun ⟨_, hb, hne, _⟩ =>
  hne (List.suffix_nil.mp hb)

theorem closesInto_cons : ClosesInto (c :: cs) x ↔
    ((c :: cs).length < scriptEnd.length ∧ scriptEnd <+: (c :: cs ++ x).map lowerChar) ∨
      ClosesInto cs x := by
  constructor
  · rintro ⟨b, hb, hne, hlength, hprefix⟩
    rcases List.suffix_cons_iff.mp hb with rfl | hb
    · exact .inl ⟨hlength, hprefix⟩
    · exact .inr ⟨b, hb, hne, hlength, hprefix⟩
  · rintro (⟨hlength, hprefix⟩ | ⟨b, hb, hrest⟩)
    · exact ⟨c :: cs, List.suffix_rfl, List.cons_ne_nil _ _, hlength, hprefix⟩
    · exact ⟨b, hb.trans (List.suffix_cons _ _), hrest⟩

theorem not_closesAcross_nil : ¬ClosesAcross [] := by
  rintro ⟨before, t, after, hsplit, -⟩
  simp at hsplit

theorem closesAcross_cons : ClosesAcross (t :: ts) ↔ ClosesInto t ts.flatten ∨ ClosesAcross ts := by
  constructor
  · rintro ⟨before, u, after, hsplit, h⟩
    cases before with
    | nil =>
      cases hsplit
      exact .inl h
    | cons _ before =>
      cases hsplit
      exact .inr ⟨before, u, after, rfl, h⟩
  · rintro (h | ⟨before, u, after, rfl, h⟩)
    · exact ⟨[], t, ts, rfl, h⟩
    · exact ⟨t :: before, u, after, rfl, h⟩

instance (cs : List Char) : Decidable (ClosesScript cs) :=
  inferInstanceAs (Decidable (scriptEnd <:+: cs.map lowerChar))

instance decidableClosesInto (x : List Char) : ∀ cs, Decidable (ClosesInto cs x)
  | [] => .isFalse not_closesInto_nil
  | _ :: cs =>
    have := decidableClosesInto x cs
    decidable_of_iff' _ closesInto_cons

instance decidableClosesAcross : ∀ ts, Decidable (ClosesAcross ts)
  | [] => .isFalse not_closesAcross_nil
  | _ :: ts =>
    have := decidableClosesAcross ts
    decidable_of_iff' _ closesAcross_cons

theorem startsWith_scriptEnd_iff :
    startsWithIgnoringCase scriptEnd cs = true ↔ scriptEnd <+: cs.map lowerChar := by
  rw [Text.startsWithIgnoringCase_iff, show scriptEnd.map lowerChar = scriptEnd by decide]

/-! ## Up to the next opening character -/

def untilOpen (cs : List Char) : List Char := cs.takeWhile (· ≠ '<')

theorem untilOpen_append (h : untilOpen x = untilOpen y) (cs : List Char) :
    untilOpen (cs ++ x) = untilOpen (cs ++ y) := by
  unfold untilOpen at h ⊢
  rw [List.takeWhile_append, List.takeWhile_append, h]

theorem untilOpen_open : untilOpen ('<' :: cs) = [] := rfl

theorem untilOpen_cons (hc : c ≠ '<') : untilOpen (c :: cs) = c :: untilOpen cs :=
  List.takeWhile_cons_of_pos (decide_eq_true hc)

theorem prefix_untilOpen_iff {w : List Char} (hw : '<' ∉ w) :
    w <+: cs.map lowerChar ↔ w <+: (untilOpen cs).map lowerChar := by
  induction w generalizing cs with
  | nil => simp
  | cons d w ih =>
    rw [List.mem_cons, not_or] at hw
    cases cs with
    | nil => rfl
    | cons c cs =>
      by_cases hc : c = '<'
      · subst hc
        have hd : d ≠ lowerChar '<' := Ne.symm hw.1
        rw [untilOpen_open, List.map_cons, List.cons_prefix_cons]
        simp [hd]
      · rw [untilOpen_cons hc, List.map_cons, List.map_cons, List.cons_prefix_cons,
          List.cons_prefix_cons, ih hw.2]

theorem scriptEnd_eq_cons : scriptEnd = '<' :: "/script".toList := by decide

theorem scriptEnd_length : scriptEnd.length = 8 := by decide

/-- Whether an end tag of scripts starts at a character depends on what follows up to the next
opening character. -/
theorem scriptEnd_prefix_congr (h : untilOpen x = untilOpen y) :
    scriptEnd <+: (c :: x).map lowerChar ↔ scriptEnd <+: (c :: y).map lowerChar := by
  have hw : '<' ∉ "/script".toList := by decide
  rw [List.map_cons, List.map_cons, scriptEnd_eq_cons, List.cons_prefix_cons,
    List.cons_prefix_cons, prefix_untilOpen_iff hw, h, ← prefix_untilOpen_iff hw]

theorem closesInto_congr (h : untilOpen x = untilOpen y) : ClosesInto cs x ↔ ClosesInto cs y := by
  induction cs with
  | nil => exact iff_of_false not_closesInto_nil not_closesInto_nil
  | cons c cs ih =>
    rw [closesInto_cons, closesInto_cons, ih, List.cons_append, List.cons_append,
      scriptEnd_prefix_congr (untilOpen_append h cs)]

/-! ## What the scan changes -/

theorem escapeScriptFrom_eq_drop (n : Nat) (cs : List Char) :
    escapeScriptFrom n cs = escapeScript (cs.drop n) := by
  induction cs generalizing n with
  | nil => simp [escapeScript, escapeScriptFrom]
  | cons c cs ih =>
    cases n with
    | zero => rfl
    | succ n => rw [escapeScriptFrom, ih, List.drop_succ_cons]

theorem escapeScript_of_starts (h : scriptEnd <+: (c :: cs).map lowerChar) :
    escapeScript (c :: cs) = "<\\/script".toList ++ escapeScript (cs.drop 7) := by
  rw [escapeScript, escapeScriptFrom, if_pos (startsWith_scriptEnd_iff.mpr h),
    escapeScriptFrom_eq_drop]
  rfl

theorem escapeScript_of_not_starts (h : ¬scriptEnd <+: (c :: cs).map lowerChar) :
    escapeScript (c :: cs) = c :: escapeScript cs := by
  rw [escapeScript, escapeScriptFrom, if_neg (mt startsWith_scriptEnd_iff.mp h)]
  rfl

theorem eq_of_starts (h : scriptEnd <+: (c :: cs).map lowerChar) :
    c = '<' ∧ ∃ p r, cs = p ++ r ∧ p.length = 7 ∧ '<' ∉ p := by
  rw [scriptEnd_eq_cons, List.map_cons, List.cons_prefix_cons] at h
  obtain ⟨hc, r', hr'⟩ := h
  obtain ⟨p, r, rfl, hp, -⟩ := List.map_eq_append_iff.mp hr'.symm
  refine ⟨Text.eq_of_lowerChar_eq hc.symm (by decide), p, r, rfl, ?_, fun hmem => ?_⟩
  · rw [← List.length_map lowerChar, hp]
    rfl
  · have hlower : lowerChar '<' ∈ p.map lowerChar := List.mem_map_of_mem hmem
    rw [hp] at hlower
    exact absurd hlower (by decide)

theorem escapeScript_eq_self (h : ¬ClosesScript cs) : escapeScript cs = cs := by
  induction cs with
  | nil => rfl
  | cons c cs ih =>
    rw [closesScript_cons, not_or] at h
    rw [escapeScript_of_not_starts h.1, ih h.2]

theorem untilOpen_escapeScript_append (h : untilOpen x = untilOpen y) :
    untilOpen (escapeScript cs ++ x) = untilOpen (cs ++ y) := by
  induction cs with
  | nil => exact h
  | cons c cs ih =>
    by_cases hstarts : scriptEnd <+: (c :: cs).map lowerChar
    · obtain ⟨rfl, -⟩ := eq_of_starts hstarts
      rw [escapeScript_of_starts hstarts]
      rfl
    · rw [escapeScript_of_not_starts hstarts]
      exact untilOpen_append ih [c]

theorem untilOpen_flatMap (ts : List (List Char)) :
    untilOpen (ts.flatMap escapeScript) = untilOpen ts.flatten := by
  induction ts with
  | nil => rfl
  | cons t ts ih =>
    rw [List.flatMap_cons, List.flatten_cons]
    exact untilOpen_escapeScript_append ih

/-! ## Characters that open nothing -/

theorem not_prefix_of_ne (hc : c ≠ '<') : ¬scriptEnd <+: (c :: cs).map lowerChar := by
  intro h
  exact hc (eq_of_starts h).1

theorem closesScript_append_of_notMem (h : '<' ∉ r) :
    ClosesScript (r ++ cs) ↔ ClosesScript cs := by
  induction r with
  | nil => rfl
  | cons c r ih =>
    rw [List.mem_cons, not_or] at h
    rw [List.cons_append, closesScript_cons, ih h.2]
    exact or_iff_right (not_prefix_of_ne (Ne.symm h.1))

theorem closesInto_append_of_notMem (h : '<' ∉ r) : ClosesInto (r ++ cs) x ↔ ClosesInto cs x := by
  induction r with
  | nil => rfl
  | cons c r ih =>
    rw [List.mem_cons, not_or] at h
    rw [List.cons_append, closesInto_cons, ih h.2]
    exact or_iff_right fun hstarts => not_prefix_of_ne (Ne.symm h.1) hstarts.2

/-! ## What closes a script -/

/-- What the scan puts in the place of an end tag closes nothing. -/
theorem closesScript_broken_append (x : List Char) :
    ClosesScript ("<\\/script".toList ++ x) ↔ ClosesScript x := by
  have hbroken : ¬scriptEnd <+: ('<' :: ("\\/script".toList ++ x)).map lowerChar := by
    intro h
    rw [scriptEnd_eq_cons, List.map_cons, List.cons_prefix_cons] at h
    exact absurd (List.cons_prefix_cons.mp h.2).1 (by decide)
  exact closesScript_cons.trans
    ((or_iff_right hbroken).trans
      (closesScript_append_of_notMem (r := "\\/script".toList) (by decide)))

/-- An end tag that is in a text as a whole does not end after it. -/
theorem closesInto_of_length {p : List Char} (hlength : p.length = 7) (hopen : '<' ∉ p) :
    ClosesInto (c :: (p ++ r)) x ↔ ClosesInto r x := by
  rw [closesInto_cons, closesInto_append_of_notMem hopen]
  refine or_iff_right fun h => absurd h.1 ?_
  rw [scriptEnd_length, List.length_cons, List.length_append, hlength]
  omega

/-- An end tag at the start of a text, but not in it as a whole, ends after it. -/
theorem length_lt_of_starts (hstarts : ¬scriptEnd <+: cs.map lowerChar)
    (h : scriptEnd <+: (cs ++ x).map lowerChar) : cs.length < scriptEnd.length := by
  by_contra hlong
  rw [List.map_append] at h
  refine hstarts (List.prefix_of_prefix_length_le h (List.prefix_append _ _) ?_)
  rw [List.length_map]
  exact not_lt.mp hlong

/-- After its scan a text holds no end of a script but the start of one that ends in what comes
after it. -/
theorem closesScript_escapeScript_append (x : List Char) : ∀ cs : List Char,
    ClosesScript (escapeScript cs ++ x) ↔ ClosesInto cs x ∨ ClosesScript x
  | [] => (or_iff_right not_closesInto_nil).symm
  | c :: cs => by
    by_cases hstarts : scriptEnd <+: (c :: cs).map lowerChar
    · obtain ⟨-, p, r, rfl, hlength, hopen⟩ := eq_of_starts hstarts
      have ih := closesScript_escapeScript_append x r
      have hdrop : (p ++ r).drop 7 = r := List.drop_left' hlength
      rw [escapeScript_of_starts hstarts, hdrop, List.append_assoc, closesScript_broken_append, ih,
        closesInto_of_length hlength hopen]
    · have ih := closesScript_escapeScript_append x cs
      have hnext : scriptEnd <+: (c :: (escapeScript cs ++ x)).map lowerChar ↔
          scriptEnd <+: (c :: cs ++ x).map lowerChar :=
        scriptEnd_prefix_congr (untilOpen_escapeScript_append rfl)
      have hends : scriptEnd <+: (c :: cs ++ x).map lowerChar ↔
          (c :: cs).length < scriptEnd.length ∧ scriptEnd <+: (c :: cs ++ x).map lowerChar :=
        ⟨fun h => ⟨length_lt_of_starts hstarts h, h⟩, And.right⟩
      rw [escapeScript_of_not_starts hstarts, List.cons_append, closesScript_cons, ih, hnext, hends,
        closesInto_cons, or_assoc]
termination_by cs => cs.length

theorem closesScript_flatMap (ts : List (List Char)) :
    ClosesScript (ts.flatMap escapeScript) ↔ ClosesAcross ts := by
  induction ts with
  | nil =>
    exact iff_of_false (fun h => absurd (List.infix_nil.mp h) (by decide)) not_closesAcross_nil
  | cons t ts ih =>
    rw [List.flatMap_cons, closesScript_escapeScript_append, ih, closesAcross_cons,
      closesInto_congr (untilOpen_flatMap ts)]

theorem flatMap_escapeScript_eq_flatten (h : ∀ t ∈ ts, ¬ClosesScript t) :
    ts.flatMap escapeScript = ts.flatten := by
  induction ts with
  | nil => rfl
  | cons t ts ih =>
    rw [List.forall_mem_cons] at h
    rw [List.flatMap_cons, List.flatten_cons, escapeScript_eq_self h.1, ih h.2]

/-! ## Written scripts -/

theorem textChars_eq_flatMap (write : List Char → List Char) (children : List Node) :
    textChars write children = (textsOf children).flatMap write := by
  induction children with
  | nil => rfl
  | cons n children ih =>
    cases n with
    | text s => exact congrArg (write s.toList ++ ·) ih
    | element tag attrs children => exact ih

/-- What stands between the tags of a script closes it if and only if something that does goes
across the end of one of its texts. Texts stay as they are if none of them closes a script. -/
theorem htmlWith_script {e : Element} {o : WriteOptions} (htag : Text.lower e.tag = "script")
    (ho : o.escapeScriptEnds = true) :
    ∃ content, (e.htmlWith o).toList =
        startTagChars o e.tag e.attrs ++ content ++ endTagChars o e.tag ∧
      (ClosesScript content ↔ ClosesAcross (textsOf e.children)) ∧
      ((∀ t ∈ textsOf e.children, ¬ClosesScript t) →
        content = (textsOf e.children).flatten) := by
  refine ⟨(textsOf e.children).flatMap escapeScript, ?_, closesScript_flatMap _,
    flatMap_escapeScript_eq_flatten⟩
  have hkind : ContentKind.ofTag e.tag = .raw := by
    rw [ContentKind.ofTag, htag]
    decide
  have hraw : rawChars o e.tag = escapeScript := by
    funext cs
    rw [rawChars, ho, htag]
    rfl
  have hmargin : o.margin 0 = [] := by
    unfold WriteOptions.margin
    split <;> rfl
  rw [Element.htmlWith, String.toList_ofList, Element.toNode, nodeChars, hkind, hmargin]
  dsimp only
  rw [textChars_eq_flatMap, hraw, List.nil_append, List.append_assoc]

/-- A script with an end tag in its first text, and the start of one at the end of its last one. -/
def brokenScript : Element :=
  ⟨"Script", ∅, [.text "a</SCRIPT >", .element "b" ∅ [.text "c"], .text "</"]⟩

theorem htmlWith_script_broken :
    Text.lower brokenScript.tag = "script" ∧
      ∃ content, (brokenScript.htmlWith { pretty := true }).toList =
          startTagChars { pretty := true } "Script" ∅ ++ content ++
            endTagChars { pretty := true } "Script" ∧
        ¬ClosesScript content := by
  have htag : Text.lower brokenScript.tag = "script" := by decide +kernel
  obtain ⟨content, hwritten, hcloses, -⟩ :=
    htmlWith_script (e := brokenScript) (o := { pretty := true }) htag rfl
  exact ⟨htag, content, hwritten, hcloses.not.mpr (by decide +kernel)⟩

/-- A script whose two texts are an end tag only together. -/
def splitScript : Element := ⟨"script", ∅, [.text "</scr", .text "ipt>"]⟩

/-- The end tag that two texts make is not broken up. -/
theorem exists_closesScript_htmlWith :
    ¬∀ (e : Element) (o : WriteOptions) (content : List Char), Text.lower e.tag = "script" →
      o.escapeScriptEnds = true →
      (e.htmlWith o).toList = startTagChars o e.tag e.attrs ++ content ++ endTagChars o e.tag →
      ¬ClosesScript content := by
  intro h
  have htag : Text.lower splitScript.tag = "script" := by decide +kernel
  have hwritten : (splitScript.htmlWith {}).toList =
      startTagChars {} "script" ∅ ++ "</script>".toList ++ endTagChars {} "script" := by
    decide +kernel
  exact h splitScript {} _ htag rfl hwritten (by decide)

end Html
end MarkupEval
