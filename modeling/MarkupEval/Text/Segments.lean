/-! # Segments

A text cut at every occurrence of a separator. There is always at least one segment, and there are
empty ones where separators meet or stand at an end. -/

namespace MarkupEval
namespace Text

def segments (separator : Char) : List Char → List (List Char)
  | [] => [[]]
  | c :: r =>
    if c = separator then [] :: segments separator r
    else
      match segments separator r with
      | [] => [[c]]
      | s :: ss => (c :: s) :: ss

def segmentStrings (separator : Char) (s : String) : List String :=
  (segments separator s.toList).map String.ofList

theorem segments_ne_nil (separator : Char) (cs : List Char) : segments separator cs ≠ [] := by
  cases cs with
  | nil => simp [segments]
  | cons c r =>
    rw [segments]
    split
    · simp
    · split <;> simp

variable {separator : Char}

/-- Characters without a separator come before the first segment of what follows. -/
theorem segments_append {s r a : List Char} {l : List (List Char)} (hs : separator ∉ s)
    (hr : segments separator r = a :: l) : segments separator (s ++ r) = (s ++ a) :: l := by
  induction s with
  | nil => exact hr
  | cons c s ih =>
    rw [List.mem_cons, not_or] at hs
    rw [List.cons_append, segments, if_neg (Ne.symm hs.1), ih hs.2]
    rfl

/-- Texts with a separator before each of them are the segments after the first, empty one. -/
theorem segments_flatMap {ss : List (List Char)} (h : ∀ s ∈ ss, separator ∉ s) :
    segments separator (ss.flatMap (separator :: ·)) = [] :: ss := by
  induction ss with
  | nil => rfl
  | cons s ss ih =>
    rw [List.forall_mem_cons] at h
    rw [List.flatMap_cons, List.cons_append, segments, if_pos rfl, segments_append h.1 (ih h.2),
      List.append_nil]

theorem notMem_of_mem_segments {cs s : List Char} (h : s ∈ segments separator cs) :
    separator ∉ s := by
  induction cs generalizing s with
  | nil => simp_all [segments]
  | cons c cs ih =>
    rw [segments] at h
    split at h
    · rcases List.mem_cons.mp h with rfl | h
      · simp
      · exact ih h
    · next hc =>
      split at h
      · next heq => exact absurd heq (segments_ne_nil separator cs)
      · next s' ss heq =>
        rw [heq] at ih
        rcases List.mem_cons.mp h with rfl | h
        · rw [List.mem_cons, not_or]
          exact ⟨Ne.symm hc, ih (List.mem_cons_self ..)⟩
        · exact ih (List.mem_cons_of_mem _ h)

end Text
end MarkupEval
