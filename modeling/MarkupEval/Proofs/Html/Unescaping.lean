import MarkupEval.Proofs.Html.Escaping

/-!
# Decoding the references of escaping alone

Escaping writes four references, and these decide what an escaped text is: decoding them once, from
left to right, gives the text back, and the escaped text has none of the characters that end or open
something where it stands (`escape_invertible`). A text may hold references and parts of references
of its own. They stay apart, since a `&` is always written as a reference.
-/

namespace MarkupEval
namespace Html

/-- Puts its character for each of the four references, from left to right and without a second
look at what was put. All else stays as it is. -/
def unescape : List Char → List Char
  | '&' :: 'a' :: 'm' :: 'p' :: ';' :: r => '&' :: unescape r
  | '&' :: 'l' :: 't' :: ';' :: r => '<' :: unescape r
  | '&' :: 'g' :: 't' :: ';' :: r => '>' :: unescape r
  | '&' :: 'q' :: 'u' :: 'o' :: 't' :: ';' :: r => '"' :: unescape r
  | c :: r => c :: unescape r
  | [] => []

variable {m : EscapeMode} {c : Char} {cs r : List Char}

/-! ## Decoding undoes escaping -/

theorem unescape_reference {name : List Char} (h : (c, name) ∈ escapedNames) (r : List Char) :
    unescape ('&' :: (name ++ ';' :: r)) = c :: unescape r := by
  simp only [escapedNames, List.mem_cons, Prod.mk.injEq, List.not_mem_nil, or_false] at h
  rcases h with ⟨rfl, rfl⟩ | ⟨rfl, rfl⟩ | ⟨rfl, rfl⟩ | ⟨rfl, rfl⟩ <;> simp [unescape]

theorem unescape_cons_of_ne (h : c ≠ '&') (r : List Char) :
    unescape (c :: r) = c :: unescape r := by
  rw [unescape] <;> rintro _ rfl <;> exact absurd rfl h

/-- A written character is decoded on its own, whatever follows it. -/
theorem unescape_escapeChar (m : EscapeMode) (c : Char) (r : List Char) :
    unescape (escapeChar m c ++ r) = c :: unescape r := by
  obtain ⟨name, hname, hwritten⟩ | ⟨hwritten, hamp, -⟩ := escapeChar_cases m c
  · rw [hwritten, List.cons_append, List.append_assoc, List.singleton_append]
    exact unescape_reference hname r
  · rw [hwritten, List.singleton_append, unescape_cons_of_ne hamp]

theorem unescape_escape (m : EscapeMode) (cs : List Char) : unescape (escape m cs) = cs := by
  induction cs with
  | nil => rfl
  | cons c cs ih =>
    rw [escape, List.flatMap_cons, unescape_escapeChar]
    exact congrArg (c :: ·) ih

/-! ## Where a reference starts -/

theorem suffix_of_suffix_append (hc : c ∉ cs) {t : List Char} (h : c :: r <:+ cs ++ t) :
    c :: r <:+ t := by
  induction cs with
  | nil => exact h
  | cons d cs ih =>
    rw [List.mem_cons, not_or] at hc
    rcases List.suffix_cons_iff.mp h with heq | h
    · exact absurd (List.cons.inj heq).1 hc.1
    · exact ih hc.2 h

theorem amp_notMem_reference {name : List Char} (h : (c, name) ∈ escapedNames) :
    '&' ∉ name ++ [';'] := by
  have hnames : ∀ e ∈ escapedNames, '&' ∉ e.2 ++ [';'] := by decide
  exact hnames _ h

/-- Each `&` of an escaped text starts one of the references that escaping writes. -/
theorem reference_of_suffix_escape (h : '&' :: r <:+ escape m cs) :
    ∃ e ∈ escapedNames, e.2 ++ [';'] <+: r := by
  induction cs with
  | nil => exact absurd (List.suffix_nil.mp h) (List.cons_ne_nil _ _)
  | cons c cs ih =>
    rw [escape, List.flatMap_cons] at h
    obtain ⟨name, hname, hwritten⟩ | ⟨hwritten, hamp, -⟩ := escapeChar_cases m c
    · rw [hwritten, List.cons_append] at h
      -- The first `&` is that of the reference, and the reference has no other.
      rcases List.suffix_cons_iff.mp h with heq | h
      · exact ⟨_, hname, (List.cons.inj heq).2 ▸ List.prefix_append _ _⟩
      · exact ih (suffix_of_suffix_append (amp_notMem_reference hname) h)
    · rw [hwritten] at h
      exact ih (suffix_of_suffix_append (by simpa using hamp.symm) h)

/-! ## The three places -/

/-- Escaping is undone by decoding, and an escaped text neither ends nor opens anything where it was
escaped for. -/
theorem escape_invertible (m : EscapeMode) (cs : List Char) :
    unescape (escape m cs) = cs ∧
      '<' ∉ escape m cs ∧
      (m ≠ .escapable → '>' ∉ escape m cs) ∧
      (m = .attribute → '"' ∉ escape m cs) ∧
      ∀ before after, escape m cs = before ++ '&' :: after →
        ∃ reference ∈ ["amp;", "lt;", "gt;", "quot;"], reference.toList <+: after := by
  refine ⟨unescape_escape m cs, ?opens, ?closes, ?quotes, ?references⟩
  case opens =>
    intro h
    have hself := escapeChar_of_mem_escape h (by decide)
    simp [escapeChar] at hself
  case closes =>
    intro hm h
    have hself := escapeChar_of_mem_escape h (by decide)
    simp [escapeChar, hm] at hself
  case quotes =>
    rintro rfl h
    exact ne_quote_of_mem_escape h rfl
  case references =>
    intro before after h
    have hspelled : ∀ e ∈ escapedNames,
        ∃ reference ∈ ["amp;", "lt;", "gt;", "quot;"], reference.toList = e.2 ++ [';'] := by
      decide
    obtain ⟨e, he, hprefix⟩ := reference_of_suffix_escape ⟨before, h.symm⟩
    obtain ⟨reference, hmem, hreference⟩ := hspelled e he
    exact ⟨reference, hmem, hreference ▸ hprefix⟩

/-- A reference and a tag with an empty attribute. -/
def tagAfterReference : List Char := "&lt;<b id=\"\">".toList

/-- The `&` of the reference is escaped like any other, and what is left of it stays as it is. -/
theorem escape_invertible_attribute :
    unescape (escape .attribute tagAfterReference) = tagAfterReference ∧
      '<' ∉ escape .attribute tagAfterReference ∧
      '>' ∉ escape .attribute tagAfterReference ∧
      '"' ∉ escape .attribute tagAfterReference ∧
      escape .attribute tagAfterReference =
        "&amp;lt;".toList ++ '&' :: "lt;b id=&quot;&quot;&gt;".toList ∧
      ∃ reference ∈ ["amp;", "lt;", "gt;", "quot;"],
        reference.toList <+: "lt;b id=&quot;&quot;&gt;".toList := by
  obtain ⟨hdecoded, hopens, hcloses, hquotes, hreferences⟩ :=
    escape_invertible .attribute tagAfterReference
  have hwritten : escape .attribute tagAfterReference =
      "&amp;lt;".toList ++ '&' :: "lt;b id=&quot;&quot;&gt;".toList := by decide
  exact ⟨hdecoded, hopens, hcloses (by decide), hquotes rfl, hwritten, hreferences _ _ hwritten⟩

end Html
end MarkupEval
