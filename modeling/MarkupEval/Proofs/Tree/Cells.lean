import Mathlib.Data.Fintype.Card
import Mathlib.Data.Nat.Find
import MarkupEval.Proofs.Tree.Arena

/-!
# Cells that are used again

The arena of cells does what an arena should do (`lawful_arena`), though it holds new nodes where
removed ones were: the stamp of a cell tells them apart. What lies below a node is found by looking
at so many ancestors as there are cells, since a shortest line of ancestors passes no cell twice
(`le_length_of_ancestor?`).
-/

namespace MarkupEval
namespace Cells

variable {α : Type} {cs : Cells α} {i j : CellId} {n : Slot CellId α}

/-! ## Slots -/

theorem slot?_eq_some_iff :
    cs.slot? i = some n ↔ ∃ c, cs[i.index]? = some c ∧ c.stamp = i.stamp ∧ c.slot = some n := by
  unfold slot?
  cases cs[i.index]? with
  | none => simp
  | some c => simp

theorem slot?_change (f : Slot CellId α → Slot CellId α) :
    (cs.change i f).slot? j = if j = i then (cs.slot? j).map f else cs.slot? j := by
  obtain ⟨index, stamp⟩ := i
  obtain ⟨index', stamp'⟩ := j
  simp only [slot?, change, List.getElem?_modify, CellId.mk.injEq]
  cases hc : cs[index']? with
  | none => simp
  | some c =>
    by_cases hindex : index = index'
    · by_cases hstamp : c.stamp = stamp
      · by_cases hstamp' : stamp' = stamp
        · simp [hindex, hstamp, hstamp']
        · have hne : ¬stamp = stamp' := fun h => hstamp' h.symm
          simp [hindex, hstamp, hstamp', hne]
      · by_cases hstamp' : c.stamp = stamp'
        · simp [hindex, hstamp', hstamp' ▸ hstamp]
        · simp [hindex, hstamp, hstamp']
    · have hne : ¬index' = index := fun h => hindex h.symm
      simp [hindex, hne]

theorem slot?_newNode_fresh (a : α) : cs.slot? (cs.newNode a).1 = none := by
  unfold newNode
  dsimp only
  split
  · next c hc => simp [slot?, hc]
  · next hc => simp [slot?, hc]

theorem slot_of_getElem?_findIdx {c : Cell α}
    (hc : cs[cs.findIdx fun c => c.slot.isNone]? = some c) : c.slot = none := by
  obtain ⟨hlt, rfl⟩ := List.getElem?_eq_some_iff.mp hc
  simpa using List.findIdx_getElem (w := hlt)

theorem slot?_newNode (a : α) :
    (cs.newNode a).2.slot? j = if j = (cs.newNode a).1 then some ⟨a, none⟩ else cs.slot? j := by
  obtain ⟨index, stamp⟩ := j
  cases hc : cs[cs.findIdx fun c => c.slot.isNone]? with
  | some c =>
    have hfree : c.slot = none := slot_of_getElem?_findIdx hc
    simp only [newNode, hc, slot?, List.getElem?_set, CellId.mk.injEq]
    by_cases hindex : index = cs.findIdx fun c => c.slot.isNone
    · rw [← hindex] at hc ⊢
      have hlt : index < cs.length := (List.getElem?_eq_some_iff.mp hc).1
      by_cases hstamp : stamp = c.stamp + 1
      · simp [hlt, hstamp]
      · have hne : ¬c.stamp + 1 = stamp := fun h => hstamp h.symm
        rw [hc]
        simp [hlt, hstamp, hne, hfree]
    · have hne : ¬(cs.findIdx fun c => c.slot.isNone) = index := fun h => hindex h.symm
      simp [hindex, hne]
  | none =>
    have hend : (cs.findIdx fun c => c.slot.isNone) = cs.length :=
      Nat.le_antisymm List.findIdx_le_length (List.getElem?_eq_none_iff.mp hc)
    simp only [newNode, hc, slot?, CellId.mk.injEq]
    rw [hend]
    rcases Nat.lt_trichotomy index cs.length with hlt | rfl | hgt
    · simp [List.getElem?_append_left hlt, Nat.ne_of_lt hlt]
    · by_cases hstamp : stamp = 0
      · simp [hstamp]
      · have hne : ¬0 = stamp := fun h => hstamp h.symm
        simp [hstamp, hne]
    · have hlen : (cs ++ [⟨0, some ⟨a, none⟩⟩])[index]? = none :=
        List.getElem?_eq_none (by simpa using Nat.succ_le_of_lt hgt)
      simp [hlen, List.getElem?_eq_none (Nat.le_of_lt hgt), Nat.ne_of_gt hgt]

theorem slot?_removeSubtree : (cs.removeSubtree i).slot? j =
    if cs.isBelow i j then none else cs.slot? j := by
  obtain ⟨index, stamp⟩ := j
  simp only [slot?, removeSubtree, List.getElem?_mapIdx]
  cases hc : cs[index]? with
  | none => simp
  | some c =>
    by_cases hstamp : c.stamp = stamp
    · subst hstamp
      cases h : cs.isBelow i ⟨index, c.stamp⟩ <;> simp [h]
    · cases h : cs.isBelow i ⟨index, c.stamp⟩ <;> simp [h, hstamp]

/-! ## Ancestors -/

theorem ancestor?_add (a b : Nat) (j : CellId) :
    cs.ancestor? (a + b) j = (cs.ancestor? a j).bind (cs.ancestor? b) := by
  induction a generalizing j with
  | zero => rw [Nat.zero_add]; rfl
  | succ a ih =>
    rw [Nat.add_right_comm, ancestor?, ancestor?, funext ih]
    exact (Option.bind_assoc ..).symm

theorem below_iff : Heap.Below cs.slot? i j ↔ ∃ m, cs.ancestor? m j = some i := by
  constructor
  · intro h
    induction h with
    | refl => exact ⟨0, rfl⟩
    | tail _ hlink ih =>
      obtain ⟨n, hn, hp⟩ := hlink
      obtain ⟨m, hm⟩ := ih
      exact ⟨m + 1, by simp [ancestor?, hn, hp, hm]⟩
  · rintro ⟨m, hm⟩
    induction m generalizing j with
    | zero =>
      cases hm
      exact .refl
    | succ m ih =>
      obtain ⟨p, hp, hm⟩ := Option.bind_eq_some_iff.mp hm
      obtain ⟨n, hn, hp⟩ := Option.bind_eq_some_iff.mp hp
      exact (ih hm).tail ⟨n, hn, hp⟩

/-- A shortest line of ancestors comes to no node twice. -/
theorem ancestor?_ne {m a b : Nat} (hm : cs.ancestor? m j = some i)
    (hmin : ∀ l < m, cs.ancestor? l j ≠ some i) (hab : a < b) (hb : b ≤ m) :
    cs.ancestor? a j ≠ cs.ancestor? b j := by
  intro heq
  refine hmin (a + (m - b)) (by omega) ?_
  rw [ancestor?_add, heq, ← ancestor?_add, Nat.add_sub_cancel' hb, hm]

theorem le_length_of_ancestor? {m : Nat} (hm : cs.ancestor? m j = some i)
    (hmin : ∀ l < m, cs.ancestor? l j ≠ some i) : m ≤ cs.length := by
  -- Each node on the line but the last one has a parent, so it is live and has a cell.
  have hcell : ∀ a : Fin m, ∃ x, cs.ancestor? a j = some x ∧
      ∃ c, cs[x.index]? = some c ∧ c.stamp = x.stamp := by
    intro a
    obtain ⟨l, hl⟩ : ∃ l, m = a + (l + 1) := ⟨m - a - 1, by omega⟩
    rw [hl, ancestor?_add] at hm
    obtain ⟨x, hx, hup⟩ := Option.bind_eq_some_iff.mp hm
    obtain ⟨p, hp, -⟩ := Option.bind_eq_some_iff.mp hup
    obtain ⟨n, hn, -⟩ := Option.bind_eq_some_iff.mp hp
    obtain ⟨c, hc, hstamp, -⟩ := slot?_eq_some_iff.mp hn
    exact ⟨x, hx, c, hc, hstamp⟩
  choose x hx c hc hstamp using hcell
  let f : Fin m → Fin cs.length := fun a => ⟨(x a).index, (List.getElem?_eq_some_iff.mp (hc a)).1⟩
  have hf : Function.Injective f := by
    intro a b hab
    have hindex : (x a).index = (x b).index := congrArg Fin.val hab
    have hcell : c a = c b := Option.some.inj ((hc a).symm.trans (hindex ▸ hc b))
    have heq : x a = x b := CellId.ext hindex (by rw [← hstamp a, ← hstamp b, hcell])
    have hancestor : cs.ancestor? a j = cs.ancestor? b j := by rw [hx a, hx b, heq]
    rcases Nat.lt_trichotomy a b with hlt | heq | hgt
    · exact absurd hancestor (ancestor?_ne hm hmin hlt (Nat.le_of_lt b.isLt))
    · exact Fin.ext heq
    · exact absurd hancestor.symm (ancestor?_ne hm hmin hgt (Nat.le_of_lt a.isLt))
  simpa using Fintype.card_le_of_injective f hf

theorem isBelow_iff : cs.isBelow i j = true ↔ Heap.Below cs.slot? i j := by
  simp only [isBelow, List.any_eq_true, List.mem_range, decide_eq_true_eq, below_iff]
  constructor
  · rintro ⟨m, -, hm⟩
    exact ⟨m, hm⟩
  · intro h
    have hle := le_length_of_ancestor? (Nat.find_spec h) fun _ => Nat.find_min h
    exact ⟨Nat.find h, Nat.lt_succ_of_le hle, Nat.find_spec h⟩

theorem lawful_arena (α : Type) : (arena α).Lawful where
  empty _ := rfl
  newNode_fresh a s := slot?_newNode_fresh a
  newNode a s := funext fun j => by
    rw [Function.update_apply]
    exact slot?_newNode a
  update i f s n hn := funext fun j => by
    rw [Function.update_apply]
    refine (slot?_change _).trans ?_
    split
    · next h =>
      subst h
      exact congrArg (Option.map _) hn
    · rfl
  append p i s n _ hn _ _ := funext fun j => by
    rw [Function.update_apply]
    refine (slot?_change _).trans ?_
    split
    · next h =>
      subst h
      exact congrArg (Option.map _) hn
    · rfl
  removeSubtree i s _ j := by
    have hslot : (arena α).slot? (((arena α).removeSubtree i).run s).2 j = _ := slot?_removeSubtree
    rw [hslot]
    constructor
    · intro h
      rw [if_pos (isBelow_iff.mpr h)]
    · intro h
      rw [if_neg (mt isBelow_iff.mp h)]
      rfl

end Cells
end MarkupEval
