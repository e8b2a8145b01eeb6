/-! # Insertion-ordered maps

An ordered map is its list of entries, oldest first. `insert` gives a key that is already there its
new value at the old place and puts a new key last, so the order of the keys is the order of their
first insertion. The laws below say what each operation does to the keys and to look-ups. -/

namespace MarkupEval
namespace Assoc

variable {α β γ : Type} [DecidableEq α]

/-- The value under a key, if the key is there. -/
def get? (k : α) : List (α × β) → Option β
  | [] => none
  | (k', v) :: r => if k = k' then some v else get? k r

def keys (es : List (α × β)) : List α := es.map Prod.fst

/-- Overwrites in place; a new key comes last. -/
def insert (k : α) (v : β) : List (α × β) → List (α × β)
  | [] => [(k, v)]
  | (k', v') :: r => if k = k' then (k', v) :: r else (k', v') :: insert k v r

/-- Adds a key that is not there yet, last; a key that is there keeps its value. -/
def insertNew (k : α) (v : β) : List (α × β) → List (α × β)
  | [] => [(k, v)]
  | (k', v') :: r => if k = k' then (k', v') :: r else (k', v') :: insertNew k v r

/-- Removes a key; the other entries keep their order. -/
def erase (k : α) : List (α × β) → List (α × β)
  | [] => []
  | (k', v) :: r => if k = k' then r else (k', v) :: erase k r

/-- The map that inserting the pairs one after the other gives. -/
def ofPairs (ps : List (α × β)) : List (α × β) :=
  ps.foldl (fun es p => insert p.1 p.2 es) []

/-- Equality that ignores the order of the entries: as many of them, and each with an equal
partner under its key. -/
def sameEntries [BEq β] (xs ys : List (α × β)) : Bool :=
  xs.length == ys.length && xs.all fun e =>
    match get? e.1 ys with
    | some v => e.2 == v
    | none => false

/-! ## Keys -/

omit [DecidableEq α] in
@[simp] theorem keys_nil : keys ([] : List (α × β)) = [] := rfl

omit [DecidableEq α] in
@[simp] theorem keys_cons (e : α × β) (es : List (α × β)) : keys (e :: es) = e.1 :: keys es := rfl

theorem mem_keys_insert {k k' : α} {v : β} {es : List (α × β)} :
    k' ∈ keys (insert k v es) ↔ k' = k ∨ k' ∈ keys es := by
  induction es with
  | nil => simp [insert]
  | cons e es ih =>
    by_cases h : k = e.1
    · simp [insert, h]
    · simp [insert, h, ih]
      grind

theorem mem_keys_insertNew {k k' : α} {v : β} {es : List (α × β)} :
    k' ∈ keys (insertNew k v es) ↔ k' = k ∨ k' ∈ keys es := by
  induction es with
  | nil => simp [insertNew]
  | cons e es ih =>
    by_cases h : k = e.1
    · simp [insertNew, h]
    · simp [insertNew, h, ih]
      grind

theorem mem_keys_of_mem_keys_erase {k k' : α} {es : List (α × β)} (h : k' ∈ keys (erase k es)) :
    k' ∈ keys es := by
  induction es with
  | nil => simp [erase] at h
  | cons e es ih =>
    by_cases hk : k = e.1
    · simp only [erase, hk, if_true] at h
      exact List.mem_cons_of_mem _ h
    · simp only [erase, hk, if_false, keys_cons, List.mem_cons] at h ⊢
      exact h.imp id ih

theorem nodup_keys_insert {k : α} {v : β} {es : List (α × β)} (h : (keys es).Nodup) :
    (keys (insert k v es)).Nodup := by
  induction es with
  | nil => simp [insert]
  | cons e es ih =>
    rw [keys_cons, List.nodup_cons] at h
    by_cases hk : k = e.1
    · simpa [insert, hk] using h
    · simp only [insert, hk, if_false, keys_cons, List.nodup_cons, mem_keys_insert]
      exact ⟨fun h' => h'.elim (fun h' => hk h'.symm) h.1, ih h.2⟩

theorem nodup_keys_insertNew {k : α} {v : β} {es : List (α × β)} (h : (keys es).Nodup) :
    (keys (insertNew k v es)).Nodup := by
  induction es with
  | nil => simp [insertNew]
  | cons e es ih =>
    rw [keys_cons, List.nodup_cons] at h
    by_cases hk : k = e.1
    · simpa [insertNew, hk] using h
    · simp only [insertNew, hk, if_false, keys_cons, List.nodup_cons, mem_keys_insertNew]
      exact ⟨fun h' => h'.elim (fun h' => hk h'.symm) h.1, ih h.2⟩

theorem nodup_keys_erase {k : α} {es : List (α × β)} (h : (keys es).Nodup) :
    (keys (erase k es)).Nodup := by
  induction es with
  | nil => simp [erase]
  | cons e es ih =>
    rw [keys_cons, List.nodup_cons] at h
    by_cases hk : k = e.1
    · simpa [erase, hk] using h.2
    · simp only [erase, hk, if_false, keys_cons, List.nodup_cons]
      exact ⟨fun h' => h.1 (mem_keys_of_mem_keys_erase h'), ih h.2⟩

theorem nodup_keys_ofPairs (ps : List (α × β)) : (keys (ofPairs ps)).Nodup := by
  suffices ∀ es : List (α × β), (keys es).Nodup →
      (keys (ps.foldl (fun es p => insert p.1 p.2 es) es)).Nodup from this [] (by simp)
  induction ps with
  | nil => exact fun _ h => h
  | cons p ps ih => exact fun es h => ih _ (nodup_keys_insert h)

omit [DecidableEq α] in
theorem notMem_keys_of_nodup {p : α × β} {es ps : List (α × β)}
    (h : (keys (es ++ p :: ps)).Nodup) : p.1 ∉ keys es := by
  intro hp
  simp only [keys, List.map_append, List.map_cons] at h hp
  exact (List.nodup_append.mp h).2.2 _ hp _ (List.mem_cons_self ..) rfl

theorem insert_eq_append {k : α} {v : β} {es : List (α × β)} (h : k ∉ keys es) :
    insert k v es = es ++ [(k, v)] := by
  induction es with
  | nil => rfl
  | cons e es ih =>
    rw [keys_cons, List.mem_cons, not_or] at h
    simp [insert, h.1, ih h.2]

theorem keys_insert_of_mem {k : α} {v : β} {es : List (α × β)} (h : k ∈ keys es) :
    keys (insert k v es) = keys es := by
  induction es with
  | nil => cases h
  | cons e es ih =>
    by_cases hk : k = e.1
    · simp [insert, hk]
    · rcases List.mem_cons.mp h with h | h
      · exact absurd h hk
      · simp [insert, hk, ih h]

theorem insertNew_eq_append {k : α} {v : β} {es : List (α × β)} (h : k ∉ keys es) :
    insertNew k v es = es ++ [(k, v)] := by
  induction es with
  | nil => rfl
  | cons e es ih =>
    rw [keys_cons, List.mem_cons, not_or] at h
    simp [insertNew, h.1, ih h.2]

theorem insertNew_of_mem {k : α} {v : β} {es : List (α × β)} (h : k ∈ keys es) :
    insertNew k v es = es := by
  induction es with
  | nil => cases h
  | cons e es ih =>
    by_cases hk : k = e.1
    · simp [insertNew, hk]
    · simp [insertNew, hk, ih ((List.mem_cons.mp h).resolve_left hk)]

theorem insert_insert (k : α) (v w : β) (es : List (α × β)) :
    insert k w (insert k v es) = insert k w es := by
  induction es with
  | nil => simp [insert]
  | cons e es ih =>
    by_cases hk : k = e.1
    · simp [insert, hk]
    · simp [insert, hk, ih]

theorem ofPairs_concat (ps : List (α × β)) (p : α × β) :
    ofPairs (ps ++ [p]) = insert p.1 p.2 (ofPairs ps) :=
  List.foldl_append

/-- Setting pairs whose keys differ one after the other gives the pairs themselves. -/
theorem ofPairs_eq_self {ps : List (α × β)} (h : (keys ps).Nodup) : ofPairs ps = ps := by
  suffices ∀ es : List (α × β), (keys (es ++ ps)).Nodup →
      ps.foldl (fun es p => insert p.1 p.2 es) es = es ++ ps from this [] h
  clear h
  induction ps with
  | nil => simp
  | cons p ps ih =>
    intro es h
    rw [List.foldl_cons, insert_eq_append (notMem_keys_of_nodup h), ih _ (by simpa using h)]
    simp

/-! ## Look-ups -/

@[simp] theorem get?_nil (k : α) : get? k ([] : List (α × β)) = none := rfl

theorem get?_insert (k k' : α) (v : β) (es : List (α × β)) :
    get? k' (insert k v es) = if k' = k then some v else get? k' es := by
  induction es with
  | nil => simp [insert, get?]
  | cons e es ih =>
    by_cases hk : k = e.1
    · by_cases hk' : k' = k <;> simp [insert, get?, hk] <;> grind
    · simp only [insert, hk, if_false, get?, ih]
      grind

theorem mem_of_get? {k : α} {v : β} {es : List (α × β)} (h : get? k es = some v) :
    (k, v) ∈ es := by
  induction es with
  | nil => simp at h
  | cons e es ih =>
    by_cases hk : k = e.1
    · simp only [get?, hk, if_true, Option.some.injEq] at h
      exact List.mem_cons.mpr (.inl (Prod.ext hk h.symm))
    · simp only [get?, hk, if_false] at h
      exact List.mem_cons_of_mem _ (ih h)

theorem get?_of_mem {k : α} {v : β} {es : List (α × β)} (hnodup : (keys es).Nodup)
    (h : (k, v) ∈ es) : get? k es = some v := by
  induction es with
  | nil => simp at h
  | cons e es ih =>
    rw [keys_cons, List.nodup_cons] at hnodup
    rcases List.mem_cons.mp h with rfl | h
    · simp [get?]
    · have hk : k ≠ e.1 := fun hk => hnodup.1 (hk ▸ List.mem_map_of_mem h)
      simpa [get?, hk] using ih hnodup.2 h

theorem mem_of_mem_insert {k : α} {v : β} {e : α × β} {es : List (α × β)}
    (h : e ∈ insert k v es) : e = (k, v) ∨ e ∈ es := by
  induction es with
  | nil => simpa [insert] using h
  | cons e' es ih =>
    by_cases hk : k = e'.1
    · simp only [insert, hk, if_true, List.mem_cons] at h ⊢
      exact h.imp_right .inr
    · simp only [insert, hk, if_false, List.mem_cons] at h ⊢
      rcases h with rfl | h
      · exact .inr (.inl rfl)
      · exact (ih h).imp_right .inr

theorem mem_of_mem_ofPairs {e : α × β} {ps : List (α × β)} (h : e ∈ ofPairs ps) : e ∈ ps := by
  suffices ∀ es : List (α × β), e ∈ ps.foldl (fun es p => insert p.1 p.2 es) es → e ∈ es ∨ e ∈ ps by
    simpa using this [] h
  clear h
  induction ps with
  | nil => exact fun _ h => .inl h
  | cons p ps ih =>
    intro es h
    rcases ih _ h with h | h
    · exact (mem_of_mem_insert h).elim (fun h => .inr (h ▸ List.mem_cons_self ..)) .inl
    · exact .inr (List.mem_cons_of_mem _ h)

theorem get?_map (f : β → γ) (k : α) (es : List (α × β)) :
    get? k (es.map fun e => (e.1, f e.2)) = (get? k es).map f := by
  induction es with
  | nil => rfl
  | cons e es ih =>
    by_cases hk : k = e.1
    · simp [get?, hk]
    · simp [get?, hk, ih]

theorem insert_map (f : β → γ) (k : α) (v : β) (es : List (α × β)) :
    insert k (f v) (es.map fun e => (e.1, f e.2)) = (insert k v es).map fun e => (e.1, f e.2) := by
  induction es with
  | nil => rfl
  | cons e es ih =>
    by_cases hk : k = e.1
    · simp [insert, hk]
    · simp [insert, hk, ih]

/-- A key that is there stands in front of the others, up to order, and so it does with a new
value. -/
theorem exists_perm_of_get? {k : α} {v : β} {es : List (α × β)} (h : get? k es = some v) :
    ∃ rest, es.Perm ((k, v) :: rest) ∧ ∀ w, (insert k w es).Perm ((k, w) :: rest) := by
  induction es with
  | nil => simp at h
  | cons e es ih =>
    by_cases hk : k = e.1
    · subst hk
      simp only [get?, if_true, Option.some.injEq] at h
      subst h
      refine ⟨es, .refl _, fun w => ?_⟩
      simp [insert]
    · simp only [get?, hk, if_false] at h
      obtain ⟨rest, hperm, hinsert⟩ := ih h
      refine ⟨e :: rest, (hperm.cons e).trans (.swap ..), fun w => ?_⟩
      simp only [insert, hk, if_false]
      exact ((hinsert w).cons e).trans (.swap ..)

theorem get?_eq_none_iff {k : α} {es : List (α × β)} : get? k es = none ↔ k ∉ keys es := by
  induction es with
  | nil => simp
  | cons e es ih =>
    by_cases hk : k = e.1
    · simp [get?, hk]
    · simp [get?, hk, ih]

end Assoc
end MarkupEval
