import MarkupEval.Html.Writer

/-!
# Pretty HTML

The line breaks and margins of a pretty text are blanks among the children of elements that hold
elements. Where no texts stand beside elements, a pretty text is the plain one of the same markup
with these blanks put in as texts (`htmlWith_pretty`).

`laidOut` puts them in: a line break with its margin before every child, and one more after the
last. Written plainly, each node then ends where its line ends in the pretty text
(`nodeChars_laidOut`).
-/

namespace MarkupEval
namespace Html

mutual

/-- The content that is written of an element has no texts beside elements, at any depth. -/
def Unmixed : Node → Prop
  | .text _ => True
  | .element tag _ children => ContentKind.ofTag tag = .normal →
    (children.all Node.isText = true ∨ children.all Node.isElement = true) ∧ AllUnmixed children

def AllUnmixed : List Node → Prop
  | [] => True
  | n :: ns => Unmixed n ∧ AllUnmixed ns

end

mutual

/-- The second node is the first one with blank texts put in among the children of elements that
have an element among them. -/
inductive Spaced : Node → Node → Prop
  | refl (n : Node) : Spaced n n
  | element {tag : String} {attrs : Attributes} {ns ms : List Node}
    (helement : ns.any Node.isElement = true) (h : AllSpaced ns ms) :
    Spaced (.element tag attrs ns) (.element tag attrs ms)

inductive AllSpaced : List Node → List Node → Prop
  | nil : AllSpaced [] []
  | blank {s : String} {ns ms : List Node} (hs : Text.isLayout s = true) (h : AllSpaced ns ms) :
    AllSpaced ns (.text s :: ms)
  | cons {n m : Node} {ns ms : List Node} (hn : Spaced n m) (h : AllSpaced ns ms) :
    AllSpaced (n :: ns) (m :: ms)

end

/-! ## Putting the layout in -/

section
variable (o : WriteOptions)

/-- A line break and the margin of the next line. -/
def lineStart (depth : Nat) : Node := .text (String.ofList ('\n' :: o.margin depth))

mutual

def laidOut (depth : Nat) : Node → Node
  | .text s => .text s
  | .element tag attrs children =>
    if ContentKind.ofTag tag = .normal ∧ children.all Node.isText = false then
      .element tag attrs (allLaidOut (depth + 1) children ++ [lineStart o depth])
    else .element tag attrs children

def allLaidOut (depth : Nat) : List Node → List Node
  | [] => []
  | n :: ns => lineStart o depth :: laidOut depth n :: allLaidOut depth ns

end

end

variable {o : WriteOptions} {n : Node} {ns ms : List Node} {depth : Nat}

theorem isText_laidOut : (laidOut o depth n).isText = n.isText := by
  cases n with
  | text s => rfl
  | element tag attrs children =>
    rw [laidOut]
    split <;> rfl

theorem all_isText_allLaidOut : (allLaidOut o depth ns).all Node.isText = ns.all Node.isText := by
  induction ns with
  | nil => rfl
  | cons n ns ih =>
    rw [allLaidOut, List.all_cons, List.all_cons, List.all_cons, isText_laidOut, ih]
    rfl

theorem not_all_isText_iff :
    ns.all Node.isText = false ↔ ns.any Node.isElement = true := by
  have hkind : (fun n : Node => !n.isText) = Node.isElement := by
    funext n
    cases n <;> rfl
  rw [← hkind, ← List.not_all_eq_any_not, Bool.not_eq_true']

/-! ## Blanks -/

theorem isBlank_of_mem_margin (hindent : Text.isLayout o.indent = true) {c : Char}
    (hc : c ∈ o.margin depth) : Text.isBlank c = true := by
  unfold WriteOptions.margin at hc
  split at hc
  · obtain ⟨l, hl, hc⟩ := List.mem_flatten.mp hc
    rw [List.eq_of_mem_replicate hl] at hc
    exact List.all_eq_true.mp hindent c hc
  · cases hc

theorem isLayout_lineStart (hindent : Text.isLayout o.indent = true) (depth : Nat) :
    Text.isLayout (String.ofList ('\n' :: o.margin depth)) = true := by
  rw [Text.isLayout, String.toList_ofList, List.all_cons, List.all_eq_true.mpr fun c hc =>
    isBlank_of_mem_margin hindent hc]
  decide

theorem escape_of_isBlank {cs : List Char} (h : ∀ c ∈ cs, Text.isBlank c = true) :
    escape .text cs = cs := by
  induction cs with
  | nil => rfl
  | cons c cs ih =>
    rw [List.forall_mem_cons] at h
    have hne : ∀ d : Char, Text.isBlank d = false → c ≠ d := by
      rintro d hd rfl
      rw [h.1] at hd
      cases hd
    have hc : escapeChar .text c = [c] := by
      simp [escapeChar, hne '&' rfl, hne '<' rfl, hne '>' rfl]
    rw [escape, List.flatMap_cons, hc]
    exact congrArg (c :: ·) (ih h.2)

mutual

theorem spaced_laidOut (hindent : Text.isLayout o.indent = true) : ∀ (n : Node) (depth : Nat),
    Spaced n (laidOut o depth n)
  | .text _, _ => .refl _
  | .element tag attrs children, depth => by
    rw [laidOut]
    split
    · next h =>
      exact .element (not_all_isText_iff.mp h.2) (allSpaced_allLaidOut hindent children _ depth)
    · exact .refl _

theorem allSpaced_allLaidOut (hindent : Text.isLayout o.indent = true) :
    ∀ (ns : List Node) (depth outer : Nat),
      AllSpaced ns (allLaidOut o depth ns ++ [lineStart o outer])
  | [], _, outer => .blank (isLayout_lineStart hindent outer) .nil
  | n :: ns, depth, outer => .blank (isLayout_lineStart hindent depth)
    (.cons (spaced_laidOut hindent n depth) (allSpaced_allLaidOut hindent ns depth outer))

end

/-! ## The text -/

theorem nodesChars_append (o : WriteOptions) (depth : Nat) (ns ms : List Node) :
    nodesChars o depth (ns ++ ms) = nodesChars o depth ns ++ nodesChars o depth ms := by
  induction ns with
  | nil => rfl
  | cons n ns ih => rw [List.cons_append, nodesChars, nodesChars, ih, List.append_assoc]

theorem nodeChars_lineStart (hindent : Text.isLayout o.indent = true) (depth k : Nat) :
    nodeChars { o with pretty := false } k (lineStart o depth) = '\n' :: o.margin depth := by
  have hblank : ∀ c ∈ '\n' :: o.margin depth, Text.isBlank c = true := by
    rw [List.forall_mem_cons]
    exact ⟨by decide, fun c hc => isBlank_of_mem_margin hindent hc⟩
  rw [lineStart, nodeChars, String.toList_ofList, escape_of_isBlank hblank]
  simp [WriteOptions.margin, WriteOptions.lineBreak]

theorem endTagChars_pretty (ho : o.pretty = true) (tag : String) :
    endTagChars o tag = endTagChars { o with pretty := false } tag ++ ['\n'] := by
  simp [endTagChars, WriteOptions.lineBreak, ho]

/-- An element on one line ends where its line does. -/
theorem nodeChars_pretty (ho : o.pretty = true) {tag : String} {attrs : Attributes}
    {children : List Node}
    (h : ¬(ContentKind.ofTag tag = .normal ∧ children.all Node.isText = false)) (depth k : Nat) :
    nodeChars o depth (.element tag attrs children) =
      o.margin depth ++ nodeChars { o with pretty := false } k (.element tag attrs children) ++
        ['\n'] := by
  have hbreak : o.lineBreak = ['\n'] := if_pos ho
  have hplain : WriteOptions.lineBreak { o with pretty := false } = [] := rfl
  have hmargin : WriteOptions.margin { o with pretty := false } k = [] := rfl
  have hstart : startTagChars { o with pretty := false } tag attrs = startTagChars o tag attrs :=
    rfl
  have hraw : rawChars { o with pretty := false } tag = rawChars o tag := rfl
  rw [nodeChars, nodeChars, endTagChars_pretty ho, hbreak, hplain, hmargin, hstart, hraw]
  cases hkind : ContentKind.ofTag tag with
  | void | raw | escapable => simp only [List.append_assoc, List.nil_append, List.append_nil]
  | normal =>
    have htexts : children.all Node.isText = true := by simpa [hkind] using h
    simp only [htexts, if_true, List.append_assoc, List.nil_append]

/-- The children of an element stand between its tags, each after the margin of its line. -/
theorem nodeChars_mixed (o : WriteOptions) {tag : String} {attrs : Attributes}
    {children : List Node} (hkind : ContentKind.ofTag tag = .normal)
    (hmixed : children.all Node.isText = false) (depth : Nat) :
    nodeChars o depth (.element tag attrs children) =
      o.margin depth ++ startTagChars o tag attrs ++ o.lineBreak ++
        nodesChars o (depth + 1) children ++ o.margin depth ++ endTagChars o tag := by
  rw [nodeChars, hkind, hmixed]
  simp only [Bool.false_eq_true, if_false, List.append_assoc]

mutual

/-- The lines of an element in a pretty text are its plain text with its layout put in. -/
theorem nodeChars_laidOut (ho : o.pretty = true) (hindent : Text.isLayout o.indent = true) :
    ∀ {n : Node}, n.isElement = true → Unmixed n → ∀ depth k,
      nodeChars o depth n =
        o.margin depth ++ nodeChars { o with pretty := false } k (laidOut o depth n) ++ ['\n']
  | .element tag attrs children, _, hunmixed, depth, k => by
    rw [laidOut]
    split
    · next h =>
      obtain ⟨hcontent, hchildren⟩ := hunmixed h.1
      have helements : children.all Node.isElement = true :=
        hcontent.resolve_left (by rw [h.2]; exact Bool.false_ne_true)
      have hinside := nodesChars_laidOut ho hindent helements hchildren (depth + 1) (k + 1)
      have hmixed : (allLaidOut o (depth + 1) children ++ [lineStart o depth]).all Node.isText =
          false := by
        rw [List.all_append, all_isText_allLaidOut, h.2]
        rfl
      have hlaidOut : nodesChars { o with pretty := false } (k + 1)
          (allLaidOut o (depth + 1) children ++ [lineStart o depth]) =
            '\n' :: nodesChars o (depth + 1) children ++ o.margin depth := by
        rw [nodesChars_append, nodesChars, nodesChars, nodeChars_lineStart hindent, hinside]
        simp
      rw [nodeChars_mixed o h.1 h.2, nodeChars_mixed _ h.1 hmixed, hlaidOut, endTagChars_pretty ho,
        show o.lineBreak = ['\n'] from if_pos ho]
      simp [WriteOptions.margin, WriteOptions.lineBreak, startTagChars, WriteOptions.attributeOrder]
    · next h => exact nodeChars_pretty ho h depth k

theorem nodesChars_laidOut (ho : o.pretty = true) (hindent : Text.isLayout o.indent = true) :
    ∀ {ns : List Node}, ns.all Node.isElement = true → AllUnmixed ns → ∀ depth k,
      '\n' :: nodesChars o depth ns =
        nodesChars { o with pretty := false } k (allLaidOut o depth ns) ++ ['\n']
  | [], _, _, _, _ => rfl
  | n :: ns, helements, hunmixed, depth, k => by
    rw [List.all_cons, Bool.and_eq_true] at helements
    have hn := nodeChars_laidOut ho hindent helements.1 hunmixed.1 depth k
    have hns := nodesChars_laidOut ho hindent helements.2 hunmixed.2 depth k
    rw [allLaidOut, nodesChars, nodesChars, nodesChars, nodeChars_lineStart hindent, hn]
    simp only [List.append_assoc, List.cons_append, List.nil_append, hns]

end

theorem exists_element_laidOut (o : WriteOptions) (depth : Nat) (e : Element) :
    ∃ e' : Element, laidOut o depth e.toNode = e'.toNode := by
  rw [Element.toNode, laidOut]
  split
  · exact ⟨{ e with children := allLaidOut o (depth + 1) e.children ++ [lineStart o depth] }, rfl⟩
  · exact ⟨e, rfl⟩

/-- A pretty text adds nothing but layout: it is, up to its last line break, the plain text of the
same markup with blank texts put in beside elements. -/
theorem htmlWith_pretty {e : Element} {o : WriteOptions} (hunmixed : Unmixed e.toNode)
    (hindent : Text.isLayout o.indent = true) :
    ∃ e' : Element, Spaced e.toNode e'.toNode ∧
      e.htmlWith { o with pretty := true } = e'.htmlWith { o with pretty := false } ++ "\n" := by
  have hspaced := spaced_laidOut (o := { o with pretty := true }) hindent e.toNode 0
  have hwritten := nodeChars_laidOut (o := { o with pretty := true }) rfl hindent rfl hunmixed 0 0
  obtain ⟨e', he'⟩ := exists_element_laidOut { o with pretty := true } 0 e
  rw [he'] at hspaced hwritten
  refine ⟨e', hspaced, ?_⟩
  rw [Element.htmlWith, Element.htmlWith, hwritten, String.ofList_append]
  rfl

/-- Elements of every kind of content, two levels deep. -/
def leveled : Element :=
  ⟨"ul", ∅, [.element "li" ∅ [.element "b" ∅ [.text "a<b"], .element "br" ∅ []],
    .element "script" ∅ [.text "1 < 2", .element "i" ∅ []], .element "li" ∅ []]⟩

theorem htmlWith_pretty_leveled :
    Unmixed leveled.toNode ∧ Text.isLayout "\t" = true ∧
      ∃ e' : Element, Spaced leveled.toNode e'.toNode ∧
        leveled.htmlWith { pretty := true, indent := "\t" } =
          e'.htmlWith { indent := "\t" } ++ "\n" := by
  have hitem : Unmixed (.element "li" ∅ [.element "b" ∅ [.text "a<b"], .element "br" ∅ []]) :=
    fun _ => ⟨.inr rfl, fun _ => ⟨.inl rfl, trivial, trivial⟩, fun _ => ⟨.inl rfl, trivial⟩,
      trivial⟩
  have hscript : Unmixed (.element "script" ∅ [.text "1 < 2", .element "i" ∅ []]) :=
    fun h => absurd h (by decide +kernel)
  have hleveled : Unmixed leveled.toNode :=
    fun _ => ⟨.inr rfl, hitem, hscript, fun _ => ⟨.inl rfl, trivial⟩, trivial⟩
  have hindent : Text.isLayout "\t" = true := by decide
  exact ⟨hleveled, hindent, htmlWith_pretty (o := { indent := "\t" }) hleveled hindent⟩

end Html
end MarkupEval
