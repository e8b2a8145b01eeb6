import MarkupEval.Proofs.Html.Ordinary

/-!
# Written HTML reads back

The nodes that are read from the written text of nodes are the nodes themselves
(`parseFragment_write`), for elements with the tags of documents, whose names and texts need no
repair. The text is read node by node: every node is put last among the children of the innermost
open element (`readAll_nodeChars`).
-/

namespace MarkupEval
namespace Html

mutual

/-- Markup that reads back: the tags of documents, names of name characters, no null character and
no carriage return, no empty texts and no two texts side by side. -/
def Writable : Node → Prop
  | .text s => s ≠ "" ∧ '\x00' ∉ s.toList ∧ '\r' ∉ s.toList
  | .element tag attrs children =>
    IsDocumentTag tag ∧ (∀ a ∈ attrs.entries, Tag.IsWritable a) ∧ AllWritable children

def AllWritable : List Node → Prop
  | [] => True
  | n :: ns => Writable n ∧ ¬(n.isText = true ∧ ns.head?.any Node.isText = true) ∧ AllWritable ns

end

/-! ## The text -/

theorem nodeChars_text (depth : Nat) (s : String) :
    nodeChars {} depth (.text s) = escape .text s.toList := by
  rw [nodeChars]
  simp [WriteOptions.margin, WriteOptions.lineBreak]

theorem textChars_eq_nodesChars {ns : List Node} (h : ns.all Node.isText = true) (depth : Nat) :
    textChars (escape .text) ns = nodesChars {} depth ns := by
  induction ns with
  | nil => rfl
  | cons n ns ih =>
    rw [List.all_cons, Bool.and_eq_true] at h
    cases n with
    | text s =>
      rw [nodesChars, nodeChars_text, ← ih h.2]
      rfl
    | element tag attrs children => exact absurd h.1 Bool.false_ne_true

/-- Between its tags an element is written as its children are. -/
theorem nodeChars_element {tag : String} (h : ContentKind.ofTag tag = .normal) (depth : Nat)
    (attrs : Attributes) (children : List Node) :
    nodeChars {} depth (.element tag attrs children) =
      startTagChars {} tag attrs ++ (nodesChars {} (depth + 1) children ++ endTagChars {} tag) := by
  have hmargin : WriteOptions.margin {} depth = [] := rfl
  have hbreak : WriteOptions.lineBreak {} = [] := rfl
  rw [nodeChars, h, hmargin, List.nil_append]
  dsimp only
  split
  · next hall => rw [textChars_eq_nodesChars hall (depth + 1)]
  · rw [hbreak, List.append_nil, List.nil_append]

/-! ## No line ends to unify -/

theorem unifyLines_eq_self {cs : List Char} (h : '\r' ∉ cs) : unifyLines cs = cs := by
  fun_induction unifyLines cs with
  | case1 cs ih => simp at h
  | case2 cs hne ih => simp at h
  | case3 c cs hne hne' ih => rw [ih fun hcs => h (List.mem_cons_of_mem _ hcs)]
  | case4 => rfl

theorem notMem_escape {m : EscapeMode} {c : Char} {cs : List Char} (hc : ¬(' ' < c)) (h : c ∉ cs) :
    c ∉ escape m cs := fun hmem => (mem_escape hmem).elim h hc

theorem notMem_name {cs : List Char} (h : ∀ c ∈ cs, isNameChar c = true) : '\r' ∉ cs :=
  fun hmem => Bool.false_ne_true (h _ hmem)

theorem notMem_startTagChars {tag : String} {attrs : Attributes} (htag : IsTagName tag)
    (hattrs : ∀ a ∈ attrs.entries, Tag.IsWritable a) : '\r' ∉ startTagChars {} tag attrs := by
  have hattribute : ∀ a ∈ attrs.entries, '\r' ∉ attributeChars a := by
    intro a ha
    have hname := notMem_name (hattrs a ha).name
    have hvalue := notMem_escape (m := .attribute) (by decide) (hattrs a ha).carriageReturn
    simp [attributeChars, hname, hvalue]
  have hflat : '\r' ∉ attrs.entries.flatMap attributeChars := by
    intro hmem
    obtain ⟨a, ha, hr⟩ := List.mem_flatMap.mp hmem
    exact hattribute a ha hr
  have hname := notMem_name htag.chars
  simp only [startTagChars, WriteOptions.attributeOrder, Bool.false_eq_true, if_false,
    List.mem_append, List.mem_cons, hname, hflat]
  decide

theorem notMem_endTagChars {tag : String} (htag : IsTagName tag) : '\r' ∉ endTagChars {} tag := by
  have hname := notMem_name htag.chars
  simp only [endTagChars, WriteOptions.lineBreak, Bool.false_eq_true, if_false, List.cons_append,
    List.mem_append, List.mem_cons, List.not_mem_nil, hname]
  decide

mutual

theorem notMem_nodeChars : ∀ {n : Node}, Writable n → ∀ depth, '\r' ∉ nodeChars {} depth n
  | .text s, ⟨_, _, hreturn⟩, depth => by
    rw [nodeChars_text]
    exact notMem_escape (by decide) hreturn
  | .element tag attrs children, ⟨htag, hattrs, hchildren⟩, depth => by
    have htag := htag.isOrdinary
    rw [nodeChars_element htag.content, List.mem_append, List.mem_append, not_or, not_or]
    exact ⟨notMem_startTagChars htag.name hattrs, notMem_nodesChars hchildren (depth + 1),
      notMem_endTagChars htag.name⟩

theorem notMem_nodesChars : ∀ {ns : List Node}, AllWritable ns → ∀ depth,
    '\r' ∉ nodesChars {} depth ns
  | [], _, _ => List.not_mem_nil
  | n :: ns, ⟨hn, _, hns⟩, depth => by
    rw [nodesChars, List.mem_append, not_or]
    exact ⟨notMem_nodeChars hn depth, notMem_nodesChars hns depth⟩

end

/-! ## Node by node -/

namespace Builder

/-- A text does not follow a text. -/
def MayFollow (e : Frame) (n : Node) : Prop :=
  n.isText = true → ∀ m, e.children.getLast? = some m → m.isText = false

mutual

/-- A node that is read is the next child of the innermost open element. -/
theorem readAll_nodeChars : ∀ {n : Node} {f : Forest} {e : Frame} {outer : List Frame},
    Writable n → Stands f (e :: outer) → MayFollow e n → ∀ (depth : Nat) (rest : List Char),
    ∃ g, (ofFrames f (e :: outer)).readAll (nodeChars {} depth n ++ rest) =
      (ofFrames g (e :: outer)).readAll rest ∧ Stands g (e.push n :: outer)
  | .text s, f, e, outer, ⟨hs, hnull, _⟩, hf, hlast, depth, rest => by
    have hbefore := hf.textBefore?_eq_none (hlast rfl)
    rw [nodeChars_text, readAll_escape hbefore hf.lt_size hs hnull]
    exact ⟨_, rfl, hf.text s⟩
  | .element tag attrs children, f, e, outer, ⟨htag, hattrs, hchildren⟩, hf, _, depth, rest => by
    have htag := htag.isOrdinary
    have hopen := hf.openTag tag attrs
    obtain ⟨g, hread, hg⟩ := readAll_nodesChars hchildren hopen
      (fun n _ _ m hm => nomatch hm) (depth + 1) (endTagChars {} tag ++ rest)
    refine ⟨g, ?_, hg.close⟩
    rw [nodeChars_element htag.content, List.append_assoc, List.append_assoc,
      readAll_startTagChars htag hattrs, hread]
    exact readAll_endTagChars htag rest

theorem readAll_nodesChars : ∀ {ns : List Node} {f : Forest} {e : Frame} {outer : List Frame},
    AllWritable ns → Stands f (e :: outer) → (∀ n, ns.head? = some n → MayFollow e n) →
    ∀ (depth : Nat) (rest : List Char),
    ∃ g, (ofFrames f (e :: outer)).readAll (nodesChars {} depth ns ++ rest) =
      (ofFrames g (e :: outer)).readAll rest ∧
      Stands g ({ e with children := e.children ++ ns } :: outer)
  | [], f, e, outer, _, hf, _, depth, rest => by
    refine ⟨f, rfl, ?_⟩
    rw [List.append_nil]
    exact hf
  | n :: ns, f, e, outer, ⟨hn, hparted, hns⟩, hf, hlast, depth, rest => by
    obtain ⟨g, hread, hg⟩ := readAll_nodeChars hn hf (hlast n rfl) depth
      (nodesChars {} depth ns ++ rest)
    have hnext : ∀ m, ns.head? = some m → MayFollow (e.push n) m := by
      intro m hm hmtext k hk
      rw [Frame.push, List.getLast?_append, List.getLast?_singleton] at hk
      cases hk
      refine Bool.eq_false_iff.mpr fun hntext => hparted ⟨hntext, ?_⟩
      rw [hm]
      exact hmtext
    obtain ⟨g', hread', hg'⟩ := readAll_nodesChars hns hg hnext depth rest
    refine ⟨g', ?_, ?_⟩
    · rw [nodesChars, List.append_assoc, hread]
      exact hread'
    · simpa [Frame.push] using hg'

end

/-- The start of a document stands for an empty body. -/
theorem stands_start : Stands startForest
    [⟨bodySlot, "body", ∅, []⟩, ⟨rootSlot, "html", ∅, []⟩] := by
  refine ⟨by decide, ⟨⟨some rootSlot, [], rfl, trivial⟩, ⟨some documentSlot, [], rfl, trivial⟩,
    trivial⟩, rfl⟩

end Builder

/-- The nodes that are read from written markup are the nodes that were written. -/
theorem parseFragment_write {ns : List Node} (h : AllWritable ns) :
    parseFragment (write {} ns) = ns := by
  obtain ⟨g, hread, hg⟩ := Builder.readAll_nodesChars h Builder.stands_start
    (fun n _ _ m hm => nomatch hm) 0 []
  have htext : unifyLines (write {} ns).toList = nodesChars {} 0 ns := by
    rw [write, String.toList_ofList]
    exact unifyLines_eq_self (notMem_nodesChars h 0)
  rw [List.append_nil, Builder.readAll_nil] at hread
  have hbody : Builder.start.readAll (unifyLines (write {} ns).toList) = _ := htext ▸ hread
  simp only [parseFragment, parseBody, hbody]
  rw [show (Builder.ofFrames g _).forest = g from rfl,
    show g.node? Builder.bodySlot = _ from hg.node?_eq_some]
  rfl

/-- Nested elements with all sorts of tags, and texts that need references. -/
def nested : List Node :=
  [.text "\n a<b & \"c\"",
   .element "record" (.ofPairs [("_name", "\"&quot;\n<")])
    [.element "x-y1" ∅ [], .text "&amp;", .element "ref" ∅ [.text "/\uFEFF"]],
   .element "setattribute" ∅ []]

theorem parseFragment_write_nested : parseFragment (write {} nested) = nested := by
  have hattrs : ∀ a ∈ (Attributes.ofPairs [("_name", "\"&quot;\n<")]).entries,
      Tag.IsWritable a := by
    intro a ha
    cases List.mem_singleton.mp ha
    exact ⟨by decide, List.all_eq_true.mp (by decide +kernel), by decide +kernel, by decide +kernel⟩
  have hnone : ∀ a ∈ (∅ : Attributes).entries, Tag.IsWritable a := fun a ha => nomatch ha
  have htexts : ∀ s ∈ ["\n a<b & \"c\"", "&amp;", "/\uFEFF"],
      s ≠ "" ∧ '\x00' ∉ s.toList ∧ '\r' ∉ s.toList := by decide +kernel
  have hchars : ∀ c ∈ ['x', '-', 'y', '1'],
      Text.isAsciiLower c = true ∨ Text.isDigit c = true ∨ c = '-' := by
    simp [Text.isAsciiLower, Text.isDigit]
  have hcustom : Writable (.element "x-y1" ∅ []) :=
    ⟨.inr (.inr ⟨by decide, hchars, by decide⟩), hnone, trivial⟩
  have href : Writable (.element "ref" ∅ [.text "/\uFEFF"]) :=
    ⟨.inr (.inl (by decide +kernel)), hnone, htexts _ (by simp), by simp, trivial⟩
  have hset : Writable (.element "setattribute" ∅ []) :=
    ⟨.inr (.inl (by decide +kernel)), hnone, trivial⟩
  have hrecord : IsDocumentTag "record" := .inl (by decide +kernel)
  exact parseFragment_write ⟨htexts _ (by simp), by simp [Node.isText],
    ⟨hrecord, hattrs, hcustom, by simp [Node.isText], htexts "&amp;" (by simp),
      by simp [Node.isText], href, by simp, trivial⟩,
    by simp [Node.isText], hset, by simp, trivial⟩

end Html
end MarkupEval
