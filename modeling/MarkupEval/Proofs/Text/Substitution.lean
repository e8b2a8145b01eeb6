import Mathlib.Data.List.Infix
import MarkupEval.Text.Substitution

/-!
# What literal substitution does

`Replaced` says it by occurrences: the first one gives way to the replacement, and so on in what
comes after it. The scan computes just that (`replaced_iff`). A replacement that is not empty and
shares no character with the pattern leaves no occurrence behind (`not_occurs_substitute`), since
none can go across it.
-/

namespace MarkupEval
namespace Text

/-- The second text is the first one with the occurrences of a pattern replaced, each searched for
after the one before it. -/
inductive Replaced (pattern replacement : List Char) : List Char → List Char → Prop
  | rest {s : List Char} (h : ¬pattern <:+: s) : Replaced pattern replacement s s
  | first {before after t : List Char}
    (hfirst : ∀ b a, before ++ pattern ++ after = b ++ pattern ++ a → before.length ≤ b.length)
    (h : Replaced pattern replacement after t) :
    Replaced pattern replacement (before ++ pattern ++ after) (before ++ replacement ++ t)

variable {p r s t : List Char} {c : Char}

/-! ## The scan -/

theorem substituteFrom_eq_drop (n : Nat) (s : List Char) :
    substituteFrom p r n s = substitute p r (s.drop n) := by
  induction s generalizing n with
  | nil => simp [substitute, substituteFrom]
  | cons c s ih =>
    cases n with
    | zero => rfl
    | succ n => rw [substituteFrom, ih, List.drop_succ_cons]

theorem substitute_cons_of_not_starts (h : ¬p <+: c :: s) :
    substitute p r (c :: s) = c :: substitute p r s := by
  rw [substitute, substituteFrom, if_neg (mt List.isPrefixOf_iff_prefix.mp h)]
  rfl

theorem substitute_pattern_append (hp : p ≠ []) (s : List Char) :
    substitute p r (p ++ s) = r ++ substitute p r s := by
  obtain ⟨c, q, rfl⟩ := List.exists_cons_of_ne_nil hp
  have hstarts : (c :: q).isPrefixOf (c :: (q ++ s)) = true :=
    List.isPrefixOf_iff_prefix.mpr (List.prefix_append (c :: q) s)
  rw [List.cons_append, substitute, substituteFrom, if_pos hstarts, substituteFrom_eq_drop,
    List.length_cons, Nat.add_sub_cancel, List.drop_left]

/-! ## Occurrences -/

/-- A character at which no occurrence starts stays in front. -/
theorem Replaced.cons (hc : ¬p <+: c :: s) (h : Replaced p r s t) :
    Replaced p r (c :: s) (c :: t) := by
  cases h with
  | rest h => exact .rest fun hs => (List.infix_cons_iff.mp hs).elim hc h
  | @first before after t hfirst h =>
    refine @Replaced.first p r (c :: before) after t (fun b a heq => ?_) h
    cases b with
    | nil => exact absurd ⟨a, heq.symm⟩ hc
    | cons d b => exact Nat.succ_le_succ (hfirst b a (List.cons.inj heq).2)

theorem Replaced.pattern_append (h : Replaced p r s t) : Replaced p r (p ++ s) (r ++ t) :=
  @Replaced.first p r [] s t (fun _ _ _ => Nat.zero_le _) h

theorem replaced_substitute (hp : p ≠ []) : ∀ s : List Char, Replaced p r s (substitute p r s)
  | [] => .rest fun h => hp (List.infix_nil.mp h)
  | c :: s => by
    by_cases hstarts : p <+: c :: s
    · obtain ⟨rest, hrest⟩ := hstarts
      have hshorter : rest.length < s.length + 1 := by
        rw [← List.length_cons, ← hrest, List.length_append]
        exact Nat.lt_add_of_pos_left (List.length_pos_of_ne_nil hp)
      rw [← hrest, substitute_pattern_append hp]
      exact (replaced_substitute hp rest).pattern_append
    · rw [substitute_cons_of_not_starts hstarts]
      exact (replaced_substitute hp s).cons hstarts
termination_by s => s.length

theorem Replaced.inv (h : Replaced p r s t) : (¬p <:+: s ∧ t = s) ∨
    ∃ before after t', s = before ++ p ++ after ∧ t = before ++ r ++ t' ∧
      (∀ b a, s = b ++ p ++ a → before.length ≤ b.length) ∧ Replaced p r after t' := by
  cases h with
  | rest h => exact .inl ⟨h, rfl⟩
  | first hfirst h => exact .inr ⟨_, _, _, rfl, rfl, hfirst, h⟩

/-- The occurrences determine what becomes of a text. -/
theorem Replaced.unique {t' : List Char} (h : Replaced p r s t) (h' : Replaced p r s t') :
    t = t' := by
  induction h generalizing t' with
  | rest hnone =>
    obtain ⟨-, rfl⟩ | ⟨before, after, -, heq, -⟩ := h'.inv
    · rfl
    · exact absurd ⟨before, after, heq.symm⟩ hnone
  | @first before after t hfirst _ ih =>
    obtain ⟨hnone, -⟩ | ⟨before', after', u, heq, rfl, hfirst', h'⟩ := h'.inv
    · exact absurd ⟨before, after, rfl⟩ hnone
    · have hlength : before.length = before'.length :=
        Nat.le_antisymm (hfirst _ _ heq) (hfirst' _ _ rfl)
      rw [List.append_assoc, List.append_assoc] at heq
      obtain ⟨rfl, hrest⟩ := List.append_inj heq hlength
      obtain rfl := List.append_cancel_left hrest
      rw [ih h']

/-- The scan replaces the occurrences, and nothing else does. -/
theorem replaced_iff (hp : p ≠ []) : Replaced p r s t ↔ t = substitute p r s :=
  ⟨fun h => h.unique (replaced_substitute hp s), fun h => h ▸ replaced_substitute hp s⟩

theorem substitute_eq_self (hp : p ≠ []) (h : ¬p <:+: s) : substitute p r s = s :=
  ((replaced_iff hp).mp (.rest h)).symm

theorem Replaced.eq_of_same (h : Replaced p p s t) : t = s := by
  induction h with
  | rest => rfl
  | first _ _ ih => rw [ih]

/-! ## What is left -/

/-- An occurrence lies on one side of a character that the pattern does not have. -/
theorem infix_or_infix_of_notMem (hp : p ≠ []) (hc : c ∉ p) (h : p <:+: s ++ c :: t) :
    p <:+: s ∨ p <:+: t := by
  rcases List.infix_append_iff.mp h with h | h | ⟨q, q', rfl, hq, hq'⟩
  · exact .inl h
  · refine .inr ((List.infix_cons_iff.mp h).resolve_left fun hstarts => ?_)
    obtain ⟨d, q, rfl⟩ := List.exists_cons_of_ne_nil hp
    obtain ⟨rfl, -⟩ := List.cons_prefix_cons.mp hstarts
    exact hc (List.mem_cons_self ..)
  · cases q' with
    | nil => exact .inl (by rw [List.append_nil]; exact hq.isInfix)
    | cons d q' =>
      obtain ⟨rfl, -⟩ := List.cons_prefix_cons.mp hq'
      exact absurd (List.mem_append_right q (List.mem_cons_self ..)) hc

theorem infix_of_append (hp : p ≠ []) (hdisjoint : ∀ c ∈ r, c ∉ p) (h : p <:+: r ++ t) :
    p <:+: t := by
  induction r with
  | nil => exact h
  | cons c r ih =>
    rw [List.forall_mem_cons] at hdisjoint
    refine ih hdisjoint.2 ((infix_or_infix_of_notMem (s := []) hp hdisjoint.1 h).resolve_left ?_)
    exact fun hnil => hp (List.infix_nil.mp hnil)

/-- No occurrence is left in the gaps, and none goes across a replacement. -/
theorem Replaced.not_occurs (hp : p ≠ []) (hr : r ≠ []) (hdisjoint : ∀ c ∈ r, c ∉ p)
    (h : Replaced p r s t) : ¬p <:+: t := by
  obtain ⟨c, q, rfl⟩ := List.exists_cons_of_ne_nil hr
  rw [List.forall_mem_cons] at hdisjoint
  induction h with
  | rest h => exact h
  | @first before after t hfirst _ ih =>
    intro hoccurs
    rw [List.append_assoc, List.cons_append] at hoccurs
    rcases infix_or_infix_of_notMem hp hdisjoint.1 hoccurs with ⟨b, a, rfl⟩ | hafter
    · have hlength := hfirst b (a ++ p ++ after) (by simp)
      have hpos := List.length_pos_of_ne_nil hp
      simp only [List.length_append] at hlength
      omega
    · exact ih (infix_of_append hp hdisjoint.2 hafter)

theorem not_occurs_substitute (hp : p ≠ []) (hr : r ≠ []) (hdisjoint : ∀ c ∈ r, c ∉ p)
    (s : List Char) : ¬p <:+: substitute p r s :=
  (replaced_substitute hp s).not_occurs hp hr hdisjoint

/-- An empty replacement brings together what it stood between. -/
example : substitute "ab".toList [] "aabb".toList = "ab".toList := by decide

end Text
end MarkupEval
