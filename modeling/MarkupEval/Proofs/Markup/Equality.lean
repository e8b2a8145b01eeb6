import Mathlib.Data.List.Nodup
import Mathlib.Data.List.Perm.Subperm
import MarkupEval.Markup.Node

/-!
# Equality of markup

Maps are equal if they have the same entries in some order. So attributes are equal if their entries
are a permutation of each other (`Attributes.same_iff`), and equality of nodes is an equivalence
(`Node.same_refl`, `Node.same_symm`, `Node.same_trans`).
-/

namespace MarkupEval

/-! ## Equal maps -/

namespace Assoc

variable {α β : Type} [DecidableEq α] {xs ys : List (α × β)}

/-- Equal maps have the same entries. -/
theorem perm_of_sameEntries [BEq β] [LawfulBEq β] (hxs : (keys xs).Nodup)
    (h : sameEntries xs ys = true) : xs.Perm ys := by
  obtain ⟨hlength, hentries⟩ := Bool.and_eq_true_iff.mp h
  have hsubset : xs ⊆ ys := by
    intro e he
    have hpartner := List.all_eq_true.mp hentries e he
    split at hpartner
    · next v hv =>
      have hmem := mem_of_get? hv
      rwa [← eq_of_beq hpartner] at hmem
    · cases hpartner
  exact (List.subperm_of_subset (List.Nodup.of_map _ hxs) hsubset).perm_of_length_le
    (Nat.le_of_eq (eq_of_beq hlength).symm)

theorem sameEntries_of_perm [BEq β] [ReflBEq β] (hys : (keys ys).Nodup) (h : xs.Perm ys) :
    sameEntries xs ys = true := by
  rw [sameEntries, h.length_eq, beq_self_eq_true, Bool.true_and, List.all_eq_true]
  intro e he
  rw [get?_of_mem (v := e.2) hys (h.subset he)]
  exact beq_self_eq_true e.2

/-- Look-ups determine the entries up to their order. -/
theorem perm_of_get?_eq (hxs : (keys xs).Nodup) (hys : (keys ys).Nodup)
    (h : ∀ k, get? k xs = get? k ys) : xs.Perm ys := by
  refine (List.perm_ext_iff_of_nodup (.of_map _ hxs) (.of_map _ hys)).mpr fun e => ⟨?_, ?_⟩
  · exact fun he => mem_of_get? (h e.1 ▸ get?_of_mem hxs he)
  · exact fun he => mem_of_get? (h e.1 ▸ get?_of_mem hys he)

end Assoc

/-! ## Equal nodes -/

theorem Attributes.same_iff {as bs : Attributes} :
    as.same bs = true ↔ as.entries.Perm bs.entries :=
  ⟨Assoc.perm_of_sameEntries as.nodup, Assoc.sameEntries_of_perm bs.nodup⟩

theorem Attributes.same_refl (as : Attributes) : as.same as = true := same_iff.mpr (.refl _)

namespace Node

theorem same_element_iff {tag tag' : String} {attrs attrs' : Attributes} {ns ms : List Node} :
    (element tag attrs ns).same (element tag' attrs' ms) = true ↔
      tag = tag' ∧ attrs.same attrs' = true ∧ sameList ns ms = true := by
  rw [same, Bool.and_eq_true, Bool.and_eq_true, beq_iff_eq, and_assoc]

mutual

theorem same_refl : ∀ n : Node, n.same n = true
  | .text s => beq_self_eq_true s
  | .element _ attrs children =>
    same_element_iff.mpr ⟨rfl, attrs.same_refl, sameList_refl children⟩

theorem sameList_refl : ∀ ns : List Node, sameList ns ns = true
  | [] => rfl
  | n :: ns => Bool.and_eq_true_iff.mpr ⟨same_refl n, sameList_refl ns⟩

end

mutual

theorem same_symm : ∀ {n m : Node}, n.same m = true → m.same n = true
  | .text _, .text _, h => beq_iff_eq.mpr (beq_iff_eq.mp h).symm
  | .element .., .element .., h => by
    obtain ⟨htag, hattrs, hchildren⟩ := same_element_iff.mp h
    exact same_element_iff.mpr
      ⟨htag.symm, Attributes.same_iff.mpr (Attributes.same_iff.mp hattrs).symm,
        sameList_symm hchildren⟩

theorem sameList_symm : ∀ {ns ms : List Node}, sameList ns ms = true → sameList ms ns = true
  | [], [], _ => rfl
  | _ :: _, _ :: _, h => by
    obtain ⟨hn, hns⟩ := Bool.and_eq_true_iff.mp h
    exact Bool.and_eq_true_iff.mpr ⟨same_symm hn, sameList_symm hns⟩

end

mutual

theorem same_trans : ∀ {n m l : Node}, n.same m = true → m.same l = true → n.same l = true
  | .text _, .text _, .text _, h, h' => beq_iff_eq.mpr ((beq_iff_eq.mp h).trans (beq_iff_eq.mp h'))
  | .element .., .element .., .element .., h, h' => by
    obtain ⟨htag, hattrs, hchildren⟩ := same_element_iff.mp h
    obtain ⟨htag', hattrs', hchildren'⟩ := same_element_iff.mp h'
    exact same_element_iff.mpr
      ⟨htag.trans htag',
        Attributes.same_iff.mpr
          ((Attributes.same_iff.mp hattrs).trans (Attributes.same_iff.mp hattrs')),
        sameList_trans hchildren hchildren'⟩

theorem sameList_trans : ∀ {ns ms ls : List Node}, sameList ns ms = true →
    sameList ms ls = true → sameList ns ls = true
  | [], [], [], _, _ => rfl
  | _ :: _, _ :: _, _ :: _, h, h' => by
    obtain ⟨hn, hns⟩ := Bool.and_eq_true_iff.mp h
    obtain ⟨hn', hns'⟩ := Bool.and_eq_true_iff.mp h'
    exact Bool.and_eq_true_iff.mpr ⟨same_trans hn hn', sameList_trans hns hns'⟩

end

/-- Texts are equal only to themselves. -/
theorem eq_of_sameList : ∀ {ns ms : List Node}, ns.all isText = true → sameList ns ms = true →
    ns = ms
  | [], [], _, _ => rfl
  | .text _ :: _, .text _ :: _, htexts, h => by
    obtain ⟨hn, hns⟩ := Bool.and_eq_true_iff.mp h
    obtain ⟨-, htexts⟩ := Bool.and_eq_true_iff.mp htexts
    rw [eq_of_beq hn, eq_of_sameList htexts hns]

end Node
end MarkupEval
