import Mathlib.Data.List.Perm.Basic
import Mathlib.Data.String.Basic
import MarkupEval.Assoc
import MarkupEval.Sorted

/-!
# Laws of maps in ascending key order

Setting pairs one after the other gives entries in strictly ascending order (`ascending_ofPairs`).
If the keys of the pairs differ, the entries are the pairs in another order (`ofPairs_perm`), and
entries that ascend already stay as they are (`ofPairs_eq_self`).
-/

namespace MarkupEval
namespace Sorted

variable {β γ : Type}

/-- The keys ascend strictly. -/
def Ascending (es : List (String × β)) : Prop := (Assoc.keys es).Pairwise (· < ·)

theorem Ascending.nodup {es : List (String × β)} (h : Ascending es) : (Assoc.keys es).Nodup :=
  h.imp ne_of_lt

theorem mem_keys_insert {k k' : String} {v : β} {es : List (String × β)} :
    k' ∈ Assoc.keys (insert k v es) ↔ k' = k ∨ k' ∈ Assoc.keys es := by
  induction es with
  | nil => simp [insert]
  | cons e es ih =>
    unfold insert
    split
    · next h => simp [h]
    split
    · simp
    · simp only [Assoc.keys_cons, List.mem_cons, ih]
      exact or_left_comm

theorem Ascending.insert {k : String} {v : β} {es : List (String × β)} (h : Ascending es) :
    Ascending (insert k v es) := by
  induction es with
  | nil => exact List.pairwise_singleton _ _
  | cons e es ih =>
    obtain ⟨hhead, htail⟩ := List.pairwise_cons.mp h
    unfold Sorted.insert
    split
    · next heq =>
      subst heq
      exact h
    split
    · next hlt =>
      refine List.pairwise_cons.mpr ⟨fun k' hk' => ?_, h⟩
      rcases List.mem_cons.mp hk' with rfl | hk'
      · exact hlt
      · exact hlt.trans (hhead _ hk')
    · next hne hnlt =>
      refine List.pairwise_cons.mpr ⟨fun k' hk' => ?_, ih htail⟩
      rcases mem_keys_insert.mp hk' with rfl | hk'
      · exact lt_of_le_of_ne (not_lt.mp hnlt) (Ne.symm hne)
      · exact hhead _ hk'

theorem ascending_ofPairs (ps : List (String × β)) : Ascending (ofPairs ps) := by
  suffices ∀ es : List (String × β), Ascending es →
      Ascending (ps.foldl (fun es p => insert p.1 p.2 es) es) from this [] .nil
  induction ps with
  | nil => exact fun _ h => h
  | cons p ps ih => exact fun es h => ih _ h.insert

theorem mem_of_mem_insert {k : String} {v : β} {e : String × β} {es : List (String × β)}
    (h : e ∈ insert k v es) : e = (k, v) ∨ e ∈ es := by
  induction es with
  | nil => simpa [insert] using h
  | cons e' es ih =>
    unfold insert at h
    split at h
    · exact (List.mem_cons.mp h).imp_right (List.mem_cons_of_mem _)
    split at h
    · exact List.mem_cons.mp h
    · rcases List.mem_cons.mp h with rfl | h
      · exact .inr (List.mem_cons_self ..)
      · exact (ih h).imp_right (List.mem_cons_of_mem _)

theorem mem_of_mem_ofPairs {e : String × β} {ps : List (String × β)} (h : e ∈ ofPairs ps) :
    e ∈ ps := by
  suffices ∀ es : List (String × β),
      e ∈ ps.foldl (fun es p => insert p.1 p.2 es) es → e ∈ es ∨ e ∈ ps by
    simpa using this [] h
  clear h
  induction ps with
  | nil => exact fun _ h => .inl h
  | cons p ps ih =>
    intro es h
    rcases ih _ h with h | h
    · exact (mem_of_mem_insert h).elim (fun h => .inr (h ▸ List.mem_cons_self ..)) .inl
    · exact .inr (List.mem_cons_of_mem _ h)

/-! ## Mapped values -/

theorem insert_map (f : β → γ) (k : String) (v : β) (es : List (String × β)) :
    insert k (f v) (es.map fun e => (e.1, f e.2)) = (insert k v es).map fun e => (e.1, f e.2) := by
  induction es with
  | nil => rfl
  | cons e es ih =>
    rw [List.map_cons, insert, insert]
    split
    · rfl
    split
    · rfl
    · rw [List.map_cons, ih]

/-- The place of an entry depends on its key only. -/
theorem ofPairs_map (f : β → γ) (ps : List (String × β)) :
    ofPairs (ps.map fun e => (e.1, f e.2)) = (ofPairs ps).map fun e => (e.1, f e.2) := by
  suffices ∀ es : List (String × β),
      (ps.map fun e => (e.1, f e.2)).foldl (fun es p => insert p.1 p.2 es)
        (es.map fun e => (e.1, f e.2)) =
      (ps.foldl (fun es p => insert p.1 p.2 es) es).map fun e => (e.1, f e.2) from this []
  induction ps with
  | nil => exact fun _ => rfl
  | cons p ps ih =>
    intro es
    rw [List.map_cons, List.foldl_cons, List.foldl_cons, ← ih, ← insert_map]

/-! ## Pairs whose keys differ -/

theorem insert_perm {k : String} {v : β} {es : List (String × β)} (h : k ∉ Assoc.keys es) :
    (insert k v es).Perm ((k, v) :: es) := by
  induction es with
  | nil => exact .refl _
  | cons e es ih =>
    rw [Assoc.keys_cons, List.mem_cons, not_or] at h
    unfold insert
    rw [if_neg h.1]
    split
    · exact .refl _
    · exact ((ih h.2).cons e).trans (.swap _ _ _)

theorem ofPairs_perm {ps : List (String × β)} (h : (Assoc.keys ps).Nodup) :
    (ofPairs ps).Perm ps := by
  suffices ∀ es : List (String × β), (Assoc.keys (es ++ ps)).Nodup →
      (ps.foldl (fun es p => insert p.1 p.2 es) es).Perm (es ++ ps) from this [] h
  clear h
  induction ps with
  | nil => simp
  | cons p ps ih =>
    intro es h
    have hp : p.1 ∉ Assoc.keys es := Assoc.notMem_keys_of_nodup h
    have hmoved : (insert p.1 p.2 es ++ ps).Perm (es ++ p :: ps) :=
      ((insert_perm hp).append_right ps).trans List.perm_middle.symm
    exact (ih _ (((hmoved.map Prod.fst).nodup_iff).mpr h)).trans hmoved

/-- Of the entries of a map only one arrangement ascends. -/
theorem Ascending.eq_of_perm {es fs : List (String × β)} (hes : Ascending es) (hfs : Ascending fs)
    (h : es.Perm fs) : es = fs := by
  have hentries {es : List (String × β)} (h : Ascending es) :
      es.Pairwise fun a b => a.1 < b.1 := List.pairwise_map.mp h
  exact h.eq_of_pairwise (fun a b _ _ hab hba => absurd hab hba.asymm) (hentries hes) (hentries hfs)

/-- Entries that ascend already stay as they are. -/
theorem ofPairs_eq_self {es : List (String × β)} (h : Ascending es) : ofPairs es = es :=
  (ascending_ofPairs es).eq_of_perm h (ofPairs_perm h.nodup)

/-- The order in which pairs with different keys are given does not matter. -/
theorem ofPairs_congr {ps qs : List (String × β)} (hnodup : (Assoc.keys ps).Nodup)
    (h : ps.Perm qs) : ofPairs ps = ofPairs qs := by
  have hnodup' : (Assoc.keys qs).Nodup := (h.map Prod.fst).nodup_iff.mp hnodup
  exact (ascending_ofPairs ps).eq_of_perm (ascending_ofPairs qs)
    ((ofPairs_perm hnodup).trans (h.trans (ofPairs_perm hnodup').symm))

end Sorted
end MarkupEval
