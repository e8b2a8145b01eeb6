import Mathlib.Data.List.Forall2
import MarkupEval.Proofs.Markup.Equality
import MarkupEval.Proofs.Value.WellFormed

/-!
# Equality of values

Equality of values is taken apart at the root (`same_iff`). Records are equal if they have equal
values under the same keys (`same_record_iff`), and so equality is an equivalence on plain values
(`Plain.same_refl`, `same_symm`, `same_trans`).
-/

namespace MarkupEval

namespace Binary64

variable {x y z : Binary64}

theorem same_iff : x.same y = true ↔
    x = y ∨ (x.isZero = true ∧ y.isZero = true) ∨ (x.isNaN = true ∧ y.isNaN = true) := by
  rw [same, Bool.or_eq_true, Bool.or_eq_true, beq_iff_eq, Bool.and_eq_true, Bool.and_eq_true,
    or_assoc]

theorem not_isNaN_of_isZero (h : x.isZero = true) : ¬x.isNaN = true := by
  have hzero : x.magnitude = 0 := beq_iff_eq.mp h
  simp [isNaN, hzero]

theorem same_symm (h : x.same y = true) : y.same x = true := by
  rw [same_iff] at h ⊢
  exact h.imp Eq.symm (Or.imp And.symm And.symm)

theorem same_trans (h : x.same y = true) (h' : y.same z = true) : x.same z = true := by
  rw [same_iff] at h h' ⊢
  rcases h with rfl | ⟨hx, hy⟩ | ⟨hx, hy⟩
  · exact h'
  · rcases h' with rfl | ⟨-, hz⟩ | ⟨hy', -⟩
    · exact .inr (.inl ⟨hx, hy⟩)
    · exact .inr (.inl ⟨hx, hz⟩)
    · exact absurd hy' (not_isNaN_of_isZero hy)
  · rcases h' with rfl | ⟨hy', -⟩ | ⟨-, hz⟩
    · exact .inr (.inr ⟨hx, hy⟩)
    · exact absurd hy (not_isNaN_of_isZero hy')
    · exact .inr (.inr ⟨hx, hz⟩)

end Binary64

namespace Value

/-- Induction on the values inside of arrays and records. -/
@[elab_as_elim]
theorem induction {motive : Value → Prop} (leaf : ∀ v, v.isLeaf = true → motive v)
    (array : ∀ items, (∀ v ∈ items, motive v) → motive (.array items))
    (record : ∀ es : List (String × Value), (∀ e ∈ es, motive e.2) → motive (.record es))
    (transformer : ∀ name args op, motive (.transformer name args op)) (v : Value) : motive v :=
  @Value.rec motive (fun vs => ∀ v ∈ vs, motive v) (fun es => ∀ e ∈ es, motive e.2)
    (fun e => motive e.2) (leaf _ rfl) (fun _ => leaf _ rfl) (fun _ => leaf _ rfl)
    (fun _ => leaf _ rfl) (fun _ => leaf _ rfl) (fun _ => leaf _ rfl) (fun _ => leaf _ rfl)
    array record (fun name args op _ => transformer name args op)
    nofun (fun _ _ hv hvs => List.forall_mem_cons.mpr ⟨hv, hvs⟩)
    nofun (fun _ _ he hes => List.forall_mem_cons.mpr ⟨he, hes⟩) (fun _ _ hv => hv) v

/-! ## At the root -/

/-- Equality of values, with equality of the values inside. -/
inductive Alike : Value → Value → Prop
  | null : Alike .null .null
  | boolean (b : Bool) : Alike (.boolean b) (.boolean b)
  | number {x y : Binary64} (h : x.same y = true) : Alike (.number x) (.number y)
  | string (s : String) : Alike (.string s) (.string s)
  | text (s : String) : Alike (.text s) (.text s)
  | element {a b : Element} (h : a.same b = true) : Alike (.element a) (.element b)
  | nodes {ns ms : List Node} (h : Node.sameList ns ms = true) : Alike (.nodes ns) (.nodes ms)
  | array {xs ys : List Value} (h : List.Forall₂ (fun x y => x.same y = true) xs ys) :
    Alike (.array xs) (.array ys)
  | record {es fs : List (String × Value)} (hlength : es.length = fs.length)
    (h : ∀ e ∈ es, ∃ w, Assoc.get? e.1 fs = some w ∧ e.2.same w = true) :
    Alike (.record es) (.record fs)

theorem sameItems_iff {xs ys : List Value} :
    sameItems xs ys = true ↔ List.Forall₂ (fun x y => x.same y = true) xs ys := by
  induction xs generalizing ys with
  | nil => cases ys <;> simp [sameItems]
  | cons x xs ih => cases ys <;> simp [sameItems, ih]

theorem sameEntries_iff {es fs : List (String × Value)} :
    sameEntries es fs = true ↔
      ∀ e ∈ es, ∃ w, Assoc.get? e.1 fs = some w ∧ e.2.same w = true := by
  induction es with
  | nil => simp [sameEntries]
  | cons e es ih =>
    obtain ⟨k, v⟩ := e
    rw [sameEntries, Bool.and_eq_true, ih, List.forall_mem_cons]
    refine and_congr_left fun _ => ?_
    cases Assoc.get? k fs with
    | none => simp
    | some w => simp

theorem alike_of_same : ∀ {v w : Value}, v.same w = true → Alike v w
  | .null, .null, _ => .null
  | .boolean a, .boolean b, h => by
    obtain rfl := beq_iff_eq.mp h
    exact .boolean a
  | .number _, .number _, h => .number h
  | .string s, .string t, h => by
    obtain rfl := beq_iff_eq.mp h
    exact .string s
  | .text s, .text t, h => by
    obtain rfl := beq_iff_eq.mp h
    exact .text s
  | .element _, .element _, h => .element h
  | .nodes _, .nodes _, h => .nodes h
  | .array _, .array _, h => .array (sameItems_iff.mp h)
  | .record _, .record _, h => by
    obtain ⟨hlength, hentries⟩ := Bool.and_eq_true_iff.mp h
    exact .record (beq_iff_eq.mp hlength) (sameEntries_iff.mp hentries)

theorem Alike.same {v w : Value} (h : Alike v w) : v.same w = true := by
  cases h with
  | null => rfl
  | boolean b => exact beq_self_eq_true b
  | string s | text s => exact beq_self_eq_true s
  | number h | element h | nodes h => exact h
  | array h => exact sameItems_iff.mpr h
  | record hlength h =>
    exact Bool.and_eq_true_iff.mpr ⟨beq_iff_eq.mpr hlength, sameEntries_iff.mpr h⟩

theorem same_iff {v w : Value} : v.same w = true ↔ Alike v w := ⟨alike_of_same, Alike.same⟩

/-! ## Inside of arrays and records -/

/-- Both values are there and equal, or there is none. -/
abbrev SameAt (v w : Option Value) : Prop := Option.Rel (fun v w => v.same w = true) v w

theorem same_array_iff {xs ys : List Value} :
    (array xs).same (array ys) = true ↔ ∀ i : Nat, SameAt xs[i]? ys[i]? := by
  refine sameItems_iff.trans ⟨fun h => ?_, fun h => ?_⟩
  · induction h with
    | nil => exact fun _ => .none
    | cons hx _ ih =>
      intro i
      cases i with
      | zero => exact .some hx
      | succ i => exact ih i
  · induction xs generalizing ys with
    | nil =>
      cases ys with
      | nil => exact .nil
      | cons y ys => cases h 0
    | cons x xs ih =>
      cases ys with
      | nil => cases h 0
      | cons y ys =>
        cases h 0 with
        | some hx => exact .cons hx (ih fun i => h (i + 1))

section
variable {es fs : List (String × Value)}

theorem sameAt_keys {k : String} (h : SameAt (Assoc.get? k es) (Assoc.get? k fs)) :
    k ∈ Assoc.keys es ↔ k ∈ Assoc.keys fs := by
  rw [← not_iff_not, ← Assoc.get?_eq_none_iff, ← Assoc.get?_eq_none_iff]
  generalize Assoc.get? k es = v, Assoc.get? k fs = w at h
  cases h <;> simp

/-- Equal records have equal values under the same keys. -/
theorem same_record_iff (hes : (Assoc.keys es).Nodup) (hfs : (Assoc.keys fs).Nodup) :
    (record es).same (record fs) = true ↔ ∀ k, SameAt (Assoc.get? k es) (Assoc.get? k fs) := by
  constructor
  · intro h k
    cases alike_of_same h with
    | record hlength h =>
      have hsubset : Assoc.keys es ⊆ Assoc.keys fs := by
        intro k hk
        obtain ⟨e, he, rfl⟩ := List.mem_map.mp hk
        obtain ⟨w, hw, -⟩ := h e he
        exact List.mem_map.mpr ⟨_, Assoc.mem_of_get? hw, rfl⟩
      have hperm : (Assoc.keys es).Perm (Assoc.keys fs) :=
        (List.subperm_of_subset hes hsubset).perm_of_length_le
          (by rw [Assoc.keys, Assoc.keys, List.length_map, List.length_map, hlength])
      cases hv : Assoc.get? k es with
      | some v =>
        obtain ⟨w, hw, hsame⟩ := h _ (Assoc.mem_of_get? hv)
        rw [hw]
        exact .some hsame
      | none =>
        have hnone := mt hperm.mem_iff.mpr (Assoc.get?_eq_none_iff.mp hv)
        rw [Assoc.get?_eq_none_iff.mpr hnone]
        exact .none
  · intro h
    have hperm : (Assoc.keys es).Perm (Assoc.keys fs) :=
      (List.perm_ext_iff_of_nodup hes hfs).mpr fun k => sameAt_keys (h k)
    refine (Alike.record ?_ fun e he => ?_).same
    · simpa [Assoc.keys] using hperm.length_eq
    · have hsame := h e.1
      rw [Assoc.get?_of_mem hes he] at hsame
      cases hw : Assoc.get? e.1 fs with
      | none =>
        rw [hw] at hsame
        cases hsame
      | some w =>
        rw [hw] at hsame
        cases hsame with
        | some hsame => exact ⟨w, rfl, hsame⟩

end

section
variable {u v w : Option Value}

theorem SameAt.refl (h : ∀ x, v = some x → x.same x = true) : SameAt v v := by
  cases v with
  | none => exact .none
  | some x => exact .some (h x rfl)

theorem SameAt.symm (h : SameAt v w)
    (hsymm : ∀ x, v = some x → ∀ y, w = some y → x.same y = true → y.same x = true) :
    SameAt w v := by
  cases h with
  | none => exact .none
  | some h => exact .some (hsymm _ rfl _ rfl h)

theorem SameAt.trans (h : SameAt u v) (h' : SameAt v w)
    (htrans : ∀ x, u = some x → ∀ y, v = some y → ∀ z, w = some z →
      x.same y = true → y.same z = true → x.same z = true) : SameAt u w := by
  cases h with
  | none => exact h'
  | some h =>
    cases h' with
    | some h' => exact .some (htrans _ rfl _ rfl _ rfl h h')

end

/-! ## An equivalence -/

theorem Plain.same_refl {v : Value} (hv : v.Plain) : v.same v = true := by
  induction v using Value.induction with
  | leaf v hleaf =>
    cases v with
    | array items | record es | transformer name args op => cases hleaf
    | null => rfl
    | boolean b => exact beq_self_eq_true b
    | number x => exact x.same_refl
    | string s | text s => exact beq_self_eq_true s
    | element e => exact e.toNode.same_refl
    | nodes ns => exact Node.sameList_refl ns
  | array items ih =>
    have hitems := plain_array.mp hv
    refine same_array_iff.mpr fun i => .refl fun x hx => ?_
    have hmem := List.mem_of_getElem? hx
    exact ih x hmem (hitems x hmem)
  | record es ih =>
    obtain ⟨hkeys, hentries⟩ := plain_record.mp hv
    refine (same_record_iff hkeys hkeys).mpr fun k => .refl fun x hx => ?_
    have hmem := Assoc.mem_of_get? hx
    exact ih _ hmem (hentries _ hmem)
  | transformer name args op => exact absurd hv not_plain_transformer

theorem same_symm {v w : Value} (hv : v.WellFormed) (hw : w.WellFormed) (h : v.same w = true) :
    w.same v = true := by
  induction v using Value.induction generalizing w with
  | leaf v hleaf =>
    cases alike_of_same h with
    | array _ | record _ _ => cases hleaf
    | number hxy => exact Binary64.same_symm hxy
    | element hab => exact Node.same_symm hab
    | nodes hns => exact Node.sameList_symm hns
    | null | boolean b | string s | text s => exact h
  | array items ih =>
    cases alike_of_same h with
    | @array _ ys _ =>
      rw [wellFormed_array] at hv hw
      refine same_array_iff.mpr fun i => (same_array_iff.mp h i).symm fun x hx y hy => ?_
      have hmem := List.mem_of_getElem? hx
      exact ih x hmem (hv x hmem) (hw y (List.mem_of_getElem? hy))
  | record es ih =>
    cases alike_of_same h with
    | @record _ fs _ _ =>
      obtain ⟨hes, hvs⟩ := wellFormed_record.mp hv
      obtain ⟨hfs, hws⟩ := wellFormed_record.mp hw
      refine (same_record_iff hfs hes).mpr fun k =>
        ((same_record_iff hes hfs).mp h k).symm fun x hx y hy => ?_
      have hmem := Assoc.mem_of_get? hx
      exact ih _ hmem (hvs _ hmem) (hws _ (Assoc.mem_of_get? hy))
  | transformer name args op => cases alike_of_same h

theorem same_trans {u v w : Value} (hu : u.WellFormed) (hv : v.WellFormed) (hw : w.WellFormed)
    (h : u.same v = true) (h' : v.same w = true) : u.same w = true := by
  induction u using Value.induction generalizing v w with
  | leaf u hleaf =>
    cases alike_of_same h with
    | array _ | record _ _ => cases hleaf
    | null | boolean b | string s | text s => exact h'
    | number hxy =>
      cases alike_of_same h' with
      | number hyz => exact Binary64.same_trans hxy hyz
    | element hab =>
      cases alike_of_same h' with
      | element hbc => exact Node.same_trans hab hbc
    | nodes hns =>
      cases alike_of_same h' with
      | nodes hms => exact Node.sameList_trans hns hms
  | array items ih =>
    cases alike_of_same h with
    | @array _ ys _ =>
      cases alike_of_same h' with
      | @array _ zs _ =>
        rw [wellFormed_array] at hu hv hw
        refine same_array_iff.mpr fun i =>
          (same_array_iff.mp h i).trans (same_array_iff.mp h' i) fun x hx y hy z hz => ?_
        have hmem := List.mem_of_getElem? hx
        exact ih x hmem (hu x hmem) (hv y (List.mem_of_getElem? hy))
          (hw z (List.mem_of_getElem? hz))
  | record es ih =>
    cases alike_of_same h with
    | @record _ fs _ _ =>
      cases alike_of_same h' with
      | @record _ gs _ _ =>
        obtain ⟨hes, hus⟩ := wellFormed_record.mp hu
        obtain ⟨hfs, hvs⟩ := wellFormed_record.mp hv
        obtain ⟨hgs, hws⟩ := wellFormed_record.mp hw
        refine (same_record_iff hes hgs).mpr fun k =>
          ((same_record_iff hes hfs).mp h k).trans ((same_record_iff hfs hgs).mp h' k)
            fun x hx y hy z hz => ?_
        have hmem := Assoc.mem_of_get? hx
        exact ih _ hmem (hus _ hmem) (hvs _ (Assoc.mem_of_get? hy)) (hws _ (Assoc.mem_of_get? hz))
  | transformer name args op => cases alike_of_same h

end Value
end MarkupEval
