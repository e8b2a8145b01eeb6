import Mathlib.Logic.Relation
import MarkupEval.Proofs.Html.Forest

/-!
# Links in both directions

The links of a forest agree if a slot is among the children of another one just where that one is
its parent. `Linked` says so, and that no slot is below itself. Every operation keeps it, on the
condition that no node is put under itself or under one below it (`Linked.insert`,
`Linked.moveChildren`).
-/

namespace MarkupEval
namespace Html
namespace Forest

open Relation (ReflTransGen TransGen)

variable {f g : Forest} {i j p q : Nat}

/-- The second slot is the parent of the first one. -/
def HasParent (f : Forest) (i p : Nat) : Prop := f.parent? i = some p

/-- The first slot is the second one or stands below it. -/
def Below (f : Forest) : Nat → Nat → Prop := ReflTransGen f.HasParent

structure Linked (f : Forest) : Prop where
  mem_children_iff : ∀ {p i}, i ∈ f.children p ↔ f.parent? i = some p
  nodup : ∀ p, (f.children p).Nodup
  acyclic : ∀ i, ¬TransGen f.HasParent i i

/-! ## Parents and children after a change -/

theorem lt_size_of_parent? (h : f.parent? i = some p) : i < f.slots.size := by
  obtain ⟨s, hs, -⟩ := Option.bind_eq_some_iff.mp h
  exact lt_size_of_slot? hs

theorem lt_size_of_mem_children (h : i ∈ f.children p) : p < f.slots.size := by
  cases hs : f.slot? p with
  | none =>
    rw [children, hs] at h
    cases h
  | some s => exact lt_size_of_slot? hs

theorem parent?_modify {change : Slot → Slot} (h : ∀ s, (change s).parent = s.parent)
    (f : Forest) (i j : Nat) : (f.modify i change).parent? j = f.parent? j := by
  rw [parent?, slot?_modify]
  split
  · cases hs : f.slot? j with
    | none => simp [parent?, hs]
    | some s => simp [parent?, hs, h]
  · rfl

theorem children_modify {change : Slot → Slot} (h : ∀ s, (change s).children = s.children)
    (f : Forest) (i j : Nat) : (f.modify i change).children j = f.children j := by
  rw [children, slot?_modify]
  split
  · cases hs : f.slot? j with
    | none => simp [children, hs]
    | some s => simp [children, hs, h]
  · rfl

theorem parent?_setParent (hi : i < f.slots.size) (x : Option Nat) (j : Nat) :
    (f.modify i fun s => { s with parent := x }).parent? j = if j = i then x else f.parent? j := by
  rw [parent?, slot?_modify]
  by_cases hj : j = i
  · obtain ⟨s, hs⟩ : ∃ s, f.slot? i = some s := ⟨_, Array.getElem?_eq_getElem hi⟩
    simp [hj, hs]
  · simp [hj, Ne.symm hj, parent?]

theorem children_setChildren (hp : p < f.slots.size) (change : List Nat → List Nat) (q : Nat) :
    (f.modify p fun s => { s with children := change s.children }).children q =
      if q = p then change (f.children p) else f.children q := by
  rw [children, slot?_modify]
  by_cases hq : q = p
  · obtain ⟨s, hs⟩ : ∃ s, f.slot? p = some s := ⟨_, Array.getElem?_eq_getElem hp⟩
    simp [hq, hs, children]
  · simp [hq, Ne.symm hq, children]

theorem children_setParent (f : Forest) (i : Nat) (x : Option Nat) (j : Nat) :
    (f.modify i fun s => { s with parent := x }).children j = f.children j :=
  children_modify (fun _ => by rfl) f i j

theorem parent?_setChildren (f : Forest) (p : Nat) (change : Slot → List Nat) (j : Nat) :
    (f.modify p fun s => { s with children := change s }).parent? j = f.parent? j :=
  parent?_modify (fun _ => by rfl) f p j

theorem size_create (f : Forest) (content : SlotContent) :
    (f.create content).2.slots.size = f.slots.size + 1 := by
  simp [create]

theorem parent?_create (f : Forest) (content : SlotContent) (j : Nat) :
    (f.create content).2.parent? j = f.parent? j := by
  rw [parent?, slot?_create]
  split
  · next hj =>
    have hnone : f.slot? j = none := Array.getElem?_eq_none (Nat.le_of_eq hj.symm)
    simp [parent?, hnone]
  · rfl

theorem children_create (f : Forest) (content : SlotContent) (j : Nat) :
    (f.create content).2.children j = f.children j := by
  rw [children, slot?_create]
  split
  · next hj =>
    have hnone : f.slot? j = none := Array.getElem?_eq_none (Nat.le_of_eq hj.symm)
    simp [children, hnone]
  · rfl

theorem parent?_link (hi : i < f.slots.size) (p : Nat) (before : Option Nat) (j : Nat) :
    (f.link p before i).parent? j = if j = i then some p else f.parent? j := by
  rw [link, parent?_setParent (by rwa [size_modify]), parent?_setChildren]

theorem children_link (hp : p < f.slots.size) (before : Option Nat) (i q : Nat) :
    (f.link p before i).children q =
      if q = p then (f.children p).insertIdx (position (f.children p) before) i
      else f.children q := by
  rw [link, children_setParent]
  exact children_setChildren hp (fun children => children.insertIdx (position children before) i) q

theorem position_le_length (children : List Nat) (before : Option Nat) :
    position children before ≤ children.length := by
  cases before with
  | none => exact Nat.le_refl _
  | some sibling => exact List.idxOf_le_length

theorem size_detach (f : Forest) (i : Nat) : (f.detach i).slots.size = f.slots.size := by
  unfold detach
  cases f.parent? i with
  | none => rfl
  | some p => simp only [size_modify]

theorem parent?_detach (f : Forest) (i j : Nat) :
    (f.detach i).parent? j = if j = i then none else f.parent? j := by
  unfold detach
  cases hp : f.parent? i with
  | none =>
    by_cases hj : j = i
    · rw [if_pos hj, hj, hp]
    · rw [if_neg hj]
  | some p =>
    simp only
    rw [parent?_setChildren, parent?_setParent (lt_size_of_parent? hp)]

/-- Taking a node out links nothing. -/
theorem hasParent_of_detach (h : (f.detach i).HasParent j p) : f.HasParent j p := by
  rw [HasParent, parent?_detach] at h
  split at h
  · cases h
  · exact h

/-! ## Slots that get another parent -/

/-- If all that has another parent now has the same one, and this one is not below any of it, then
still no slot is below itself. -/
theorem acyclic_of_moved (moved : Nat → Prop) (h : ∀ i, ¬TransGen f.HasParent i i)
    (hstep : ∀ i q, g.parent? i = some q → f.parent? i = some q ∨ moved i ∧ q = p)
    (hmoved : ∀ i, moved i → ¬f.Below p i) : ∀ i, ¬TransGen g.HasParent i i := by
  -- On a way up there is no moved slot, or a first one and then the way from the new parent.
  have hway : ∀ {i j}, TransGen g.HasParent i j → TransGen f.HasParent i j ∨
      ∃ m, moved m ∧ f.Below i m ∧ f.Below p j := by
    intro i j hij
    induction hij with
    | single hlink =>
      obtain hold | ⟨hm, rfl⟩ := hstep _ _ hlink
      · exact .inl (.single hold)
      · exact .inr ⟨i, hm, .refl, .refl⟩
    | tail _ hlink ih =>
      obtain hold | ⟨hm, rfl⟩ := hstep _ _ hlink
      · obtain hway | ⟨m, hm, him, hpj⟩ := ih
        · exact .inl (hway.tail hold)
        · exact .inr ⟨m, hm, him, hpj.tail hold⟩
      · obtain hway | ⟨m, hm', him, -⟩ := ih
        · exact .inr ⟨_, hm, hway.to_reflTransGen, .refl⟩
        · exact .inr ⟨m, hm', him, .refl⟩
  intro i hi
  obtain hold | ⟨m, hm, him, hpi⟩ := hway hi
  · exact h i hold
  · exact hmoved m hm (ReflTransGen.trans hpi him)

namespace Linked

theorem congr (h : f.Linked) (hparent : ∀ i, g.parent? i = f.parent? i)
    (hchildren : ∀ p, g.children p = f.children p) : g.Linked where
  mem_children_iff := by
    intro p i
    rw [hchildren, hparent]
    exact h.mem_children_iff
  nodup p := by
    rw [hchildren]
    exact h.nodup p
  acyclic i hi :=
    h.acyclic i (TransGen.mono (fun c _ hq => (hparent c).symm.trans hq) _ _ hi)

theorem parent_lt_size (h : f.Linked) (hp : f.parent? i = some p) : p < f.slots.size :=
  lt_size_of_mem_children (h.mem_children_iff.mpr hp)

theorem notMem_children (h : f.Linked) (hne : f.parent? i ≠ some p) : i ∉ f.children p :=
  mt h.mem_children_iff.mp hne

theorem not_below_child (h : f.Linked) (hi : f.parent? i = some p) : ¬f.Below p i :=
  fun hbelow => h.acyclic i (.head' hi hbelow)

/-! ## Operations -/

theorem create (h : f.Linked) (content : SlotContent) : (f.create content).2.Linked :=
  h.congr (parent?_create f content) (children_create f content)

theorem setContent (h : f.Linked) (i : Nat) (content : Slot → SlotContent) :
    (f.modify i fun s => { s with content := content s }).Linked :=
  h.congr (parent?_modify (fun _ => by rfl) f i) (children_modify (fun _ => by rfl) f i)

theorem children_detach (h : f.Linked) (i q : Nat) :
    (f.detach i).children q = (f.children q).filter (· != i) := by
  have hfilter : f.parent? i ≠ some q → f.children q = (f.children q).filter (· != i) := by
    intro hne
    refine (List.filter_eq_self.mpr fun c hc => bne_iff_ne.mpr ?_).symm
    rintro rfl
    exact h.notMem_children hne hc
  unfold Forest.detach
  cases hp : f.parent? i with
  | none => exact hfilter (by simp [hp])
  | some p =>
    have hsize := h.parent_lt_size hp
    refine (children_setChildren (by rwa [size_modify]) (List.filter (· != i)) q).trans ?_
    rw [children_setParent, children_setParent]
    split
    · next hq => rw [hq]
    · next hq =>
      refine hfilter fun hi => hq ?_
      rw [hp] at hi
      exact (Option.some.inj hi).symm

theorem detach (h : f.Linked) (i : Nat) : (f.detach i).Linked where
  mem_children_iff := by
    intro p c
    rw [h.children_detach, parent?_detach, List.mem_filter, bne_iff_ne, h.mem_children_iff]
    by_cases hc : c = i
    · simp [hc]
    · simp [hc]
  nodup p := by
    rw [h.children_detach]
    exact (h.nodup p).filter _
  acyclic c hc := h.acyclic c (TransGen.mono (fun _ _ => hasParent_of_detach) _ _ hc)

theorem link (h : f.Linked) (hp : p < f.slots.size) (hi : i < f.slots.size)
    (hroot : f.parent? i = none) (hnot : ¬f.Below p i) (before : Option Nat) :
    (f.link p before i).Linked where
  mem_children_iff := by
    intro q c
    rw [children_link hp, parent?_link hi]
    by_cases hq : q = p
    · rw [if_pos hq, List.mem_insertIdx (position_le_length ..), h.mem_children_iff, hq]
      by_cases hc : c = i <;> simp [hc]
    · rw [if_neg hq, h.mem_children_iff]
      by_cases hc : c = i
      · simp [hc, hroot, Ne.symm hq]
      · simp [hc]
  nodup q := by
    rw [children_link hp]
    split
    · refine (List.perm_insertIdx i _ (position_le_length ..)).nodup_iff.mpr ?_
      exact List.nodup_cons.mpr ⟨h.notMem_children (by simp [hroot]), h.nodup p⟩
    · exact h.nodup q
  acyclic := by
    refine acyclic_of_moved (p := p) (· = i) h.acyclic (fun c q hq => ?_)
      (fun _ hc => hc ▸ hnot)
    rw [parent?_link hi] at hq
    split at hq
    · next hc => exact .inr ⟨hc, (Option.some.inj hq).symm⟩
    · exact .inl hq

end Linked

/-! ## Putting pieces in -/

/-- A piece may be put under a slot: a node that this slot is not, nor is below, or a text. -/
def MayPut (f : Forest) (p : Nat) : Piece → Prop
  | .node i => i < f.slots.size ∧ ¬f.Below p i
  | .text _ => True

theorem Linked.insert (h : f.Linked) (hp : p < f.slots.size) {piece : Piece}
    (hpiece : f.MayPut p piece) (before : Option Nat) : (f.insert p before piece).Linked := by
  cases piece with
  | node i =>
    obtain ⟨hi, hnot⟩ := hpiece
    have hsize := size_detach f i
    refine (h.detach i).link (hsize ▸ hp) (hsize ▸ hi) ?_ (fun hbelow => hnot ?_) before
    · rw [parent?_detach, if_pos rfl]
    · exact ReflTransGen.mono (fun _ _ => hasParent_of_detach) _ _ hbelow
  | text s =>
    rw [Forest.insert]
    split
    · exact h.setContent _ _
    · have hsize : f.slots.size < (f.create (.text s)).2.slots.size := by
        rw [size_create]
        exact Nat.lt_succ_self _
      refine (h.create (.text s)).link (Nat.lt_trans hp hsize) hsize ?_ ?_ before
      · rw [parent?_create]
        exact Option.eq_none_iff_forall_ne_some.mpr fun q hq =>
          Nat.lt_irrefl _ (lt_size_of_parent? hq)
      · -- Nothing is below a slot that is not there yet.
        intro hbelow
        obtain heq | ⟨c, -, hc⟩ := ReflTransGen.cases_tail hbelow
        · exact Nat.lt_irrefl _ (heq ▸ hp)
        · rw [HasParent, parent?_create] at hc
          exact Nat.lt_irrefl _ (h.parent_lt_size hc)

/-! ## Moving children -/

theorem slot?_adopt (target j : Nat) (moved : List Nat) (f : Forest) :
    (moved.foldl (fun f i => f.modify i fun s => { s with parent := some target }) f).slot? j =
      if j ∈ moved then (f.slot? j).map fun s => { s with parent := some target }
      else f.slot? j := by
  induction moved generalizing f with
  | nil => simp
  | cons i moved ih =>
    rw [List.foldl_cons, ih, slot?_modify]
    by_cases hi : i = j
    · subst hi
      by_cases hmem : i ∈ moved <;> simp [hmem, Function.comp_def]
    · simp [hi, Ne.symm hi]

theorem size_adopt (target : Nat) (moved : List Nat) (f : Forest) :
    (moved.foldl (fun f i => f.modify i fun s => { s with parent := some target }) f).slots.size =
      f.slots.size := by
  induction moved generalizing f with
  | nil => rfl
  | cons i moved ih => rw [List.foldl_cons, ih, size_modify]

namespace Linked

variable {source target : Nat}

theorem parent?_moveChildren (h : f.Linked) (source target i : Nat) :
    (f.moveChildren source target).parent? i =
      if f.parent? i = some source then some target else f.parent? i := by
  rw [Forest.moveChildren, parent?_setChildren, parent?, slot?_adopt, slot?_modify]
  simp only [h.mem_children_iff]
  split
  · next hi =>
    obtain ⟨s, hs⟩ : ∃ s, f.slot? i = some s :=
      ⟨_, Array.getElem?_eq_getElem (lt_size_of_parent? hi)⟩
    split <;> simp [hs]
  · split
    · cases hs : f.slot? i <;> simp [parent?, hs]
    · rfl

theorem children_moveChildren (ht : target < f.slots.size) (source q : Nat) :
    (f.moveChildren source target).children q =
      if q = target then (if q = source then [] else f.children q) ++ f.children source
      else if q = source then [] else f.children q := by
  have hkept : ∀ q, ((f.children source).foldl
      (fun f i => f.modify i fun s => { s with parent := some target })
      (f.modify source fun s => { s with children := [] })).children q =
        if q = source then [] else f.children q := by
    intro q
    rw [children, slot?_adopt, slot?_modify]
    by_cases hq : q = source
    · subst hq
      cases f.slot? q <;> split <;> simp
    · rw [if_neg (Ne.symm hq), if_neg hq]
      cases hs : f.slot? q <;> split <;> simp [children, hs]
  refine (children_setChildren (by rwa [size_adopt, size_modify]) (· ++ f.children source)
    q).trans ?_
  rw [hkept, hkept]
  split
  · next hq => rw [hq]
  · rfl

/-- Children may be moved to a slot that is not one of them, nor is below one. -/
theorem moveChildren (h : f.Linked) (ht : target < f.slots.size)
    (hnot : ∀ i ∈ f.children source, ¬f.Below target i) :
    (f.moveChildren source target).Linked where
  mem_children_iff := by
    intro q c
    rw [children_moveChildren ht, h.parent?_moveChildren]
    by_cases hq : q = target
    · subst hq
      by_cases hs : q = source
      · subst hs
        by_cases hc : f.parent? c = some q <;> simp [h.mem_children_iff, hc]
      · by_cases hc : f.parent? c = some source <;> simp [h.mem_children_iff, hs, hc]
    · rw [if_neg hq]
      by_cases hs : q = source
      · subst hs
        by_cases hc : f.parent? c = some q <;> simp [hc, Ne.symm hq]
      · rw [if_neg hs, h.mem_children_iff]
        by_cases hc : f.parent? c = some source <;> simp [hc, Ne.symm hq, Ne.symm hs]
  nodup q := by
    rw [children_moveChildren ht]
    split
    · split
      · exact h.nodup source
      · next hs =>
        refine List.nodup_append.mpr ⟨h.nodup q, h.nodup source, fun c hc c' hc' heq => hs ?_⟩
        rw [h.mem_children_iff] at hc hc'
        rw [heq, hc'] at hc
        exact (Option.some.inj hc).symm
    · split
      · exact List.nodup_nil
      · exact h.nodup q
  acyclic := by
    refine acyclic_of_moved (p := target) (f.parent? · = some source) h.acyclic
      (fun c q hq => ?_) (fun c hc => hnot c (h.mem_children_iff.mpr hc))
    rw [h.parent?_moveChildren] at hq
    split at hq
    · next hc => exact .inr ⟨hc, (Option.some.inj hq).symm⟩
    · exact .inl hq

end Linked

end Forest
end Html
end MarkupEval
