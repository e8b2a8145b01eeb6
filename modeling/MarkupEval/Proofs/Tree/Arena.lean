import Mathlib.Data.List.Nodup
import Mathlib.Logic.Function.Basic
import Mathlib.Logic.Relation
import MarkupEval.Tree.Arena

/-!
# Trees on a heap

What an arena holds is seen as a heap of slots (`Arena.Lawful` says what each operation does to
it). `Shows` says that a wrapped tree stands on a heap, with the ids of its nodes; `Extends` that
these are all that was added to a heap before. From the two it follows that what lies below a tree
is the tree (`mem_of_below`), so that removing one tree leaves the others as they are
(`Grown.remove`).
-/

namespace MarkupEval

open Relation (ReflTransGen)

/-- The slots of the live nodes. -/
abbrev Heap (Id α : Type) := Id → Option (Slot Id α)

namespace Heap

variable {Id α : Type}

/-- The second node is the first one or lies below it. -/
def Below (h : Heap Id α) : Id → Id → Prop :=
  ReflTransGen fun p i => ∃ n, h i = some n ∧ n.parent = some p

/-- The parents of live nodes are live. -/
def Closed (h : Heap Id α) : Prop :=
  ∀ ⦃i n p⦄, h i = some n → n.parent = some p → h p ≠ none

/-- New nodes have been added to a heap, and the rest of it is as it was. -/
structure Extends (h h' : Heap Id α) (ids : List Id) : Prop where
  nodup : ids.Nodup
  fresh : ∀ i ∈ ids, h i = none
  live : ∀ i ∈ ids, h' i ≠ none
  frame : ∀ i ∉ ids, h' i = h i

namespace Extends

variable {h h' h'' : Heap Id α} {ids ids' : List Id} {i : Id}

theorem refl (h : Heap Id α) : h.Extends h [] :=
  ⟨List.nodup_nil, nofun, nofun, fun _ _ => rfl⟩

theorem notMem (hext : h.Extends h' ids) (hi : h i ≠ none) : i ∉ ids :=
  fun hmem => hi (hext.fresh i hmem)

theorem eq_of_live (hext : h.Extends h' ids) (hi : h i ≠ none) : h' i = h i :=
  hext.frame i (hext.notMem hi)

/-- No node that was there before has its parent among the new ones. -/
theorem mem_of_parent_mem (hext : h.Extends h' ids) (hc : h.Closed) {n : Slot Id α} {p : Id}
    (hn : h' i = some n) (hp : n.parent = some p) (hmem : p ∈ ids) : i ∈ ids := by
  by_contra hi
  rw [hext.frame i hi] at hn
  exact hc hn hp (hext.fresh p hmem)

theorem trans (hext : h.Extends h' ids) (hext' : h'.Extends h'' ids') :
    h.Extends h'' (ids ++ ids') := by
  have hdisjoint : ∀ i ∈ ids, i ∉ ids' := fun i hi => hext'.notMem (hext.live i hi)
  refine ⟨?_, fun i hi => ?_, fun i hi => ?_, fun i hi => ?_⟩
  · rw [List.nodup_append]
    refine ⟨hext.nodup, hext'.nodup, ?_⟩
    rintro i hi _ hi' rfl
    exact hdisjoint i hi hi'
  · rcases List.mem_append.mp hi with hi | hi
    · exact hext.fresh i hi
    · rw [← hext.frame i fun hmem => hdisjoint i hmem hi]
      exact hext'.fresh i hi
  · rcases List.mem_append.mp hi with hi | hi
    · rw [hext'.frame i (hdisjoint i hi)]
      exact hext.live i hi
    · exact hext'.live i hi
  · rw [List.mem_append, not_or] at hi
    rw [hext'.frame i hi.2, hext.frame i hi.1]

theorem perm (hext : h.Extends h' ids) (hperm : ids.Perm ids') : h.Extends h' ids' :=
  ⟨hperm.nodup_iff.mp hext.nodup, fun i hi => hext.fresh i (hperm.mem_iff.mpr hi),
    fun i hi => hext.live i (hperm.mem_iff.mpr hi),
    fun i hi => hext.frame i fun hmem => hi (hperm.mem_iff.mp hmem)⟩

/-- Of the new nodes some are removed. -/
theorem remove (hext : h.Extends h' (ids ++ ids')) (hgone : ∀ i ∈ ids, h'' i = none)
    (hrest : ∀ i ∉ ids, h'' i = h' i) : h.Extends h'' ids' := by
  obtain ⟨-, hnodup', hdisjoint⟩ := List.nodup_append.mp hext.nodup
  have hnotMem : ∀ i ∈ ids', i ∉ ids := fun i hi hmem => hdisjoint i hmem i hi rfl
  refine ⟨hnodup', fun i hi => hext.fresh i (List.mem_append_right _ hi), fun i hi => ?_,
    fun i hi => ?_⟩
  · rw [hrest i (hnotMem i hi)]
    exact hext.live i (List.mem_append_right _ hi)
  · by_cases hmem : i ∈ ids
    · rw [hgone i hmem, hext.fresh i (List.mem_append_left _ hmem)]
    · rw [hrest i hmem, hext.frame i fun h => (List.mem_append.mp h).elim hmem hi]

variable [DecidableEq Id]

theorem single {n : Slot Id α} (hi : h i = none) :
    h.Extends (Function.update h i (some n)) [i] := by
  refine ⟨List.nodup_singleton i, by simpa using hi, by simp, fun j hj => ?_⟩
  exact Function.update_of_ne (by simpa using hj) ..

/-- The slot of a new node may change. -/
theorem update (hext : h.Extends h' ids) (hi : i ∈ ids) (n : Slot Id α) :
    h.Extends (Function.update h' i (some n)) ids := by
  refine ⟨hext.nodup, hext.fresh, fun j hj => ?_, fun j hj => ?_⟩
  · by_cases hji : j = i
    · simp [hji]
    · rw [Function.update_of_ne hji]
      exact hext.live j hj
  · have hji : j ≠ i := fun heq => hj (heq ▸ hi)
    rw [Function.update_of_ne hji, hext.frame j hj]

end Extends
end Heap

namespace Arena

/-- What the operations of an arena do. -/
structure Lawful {σ Id α : Type} [DecidableEq Id] (A : Arena σ Id α) : Prop where
  empty : ∀ i, A.slot? A.empty i = none
  newNode_fresh : ∀ a s, A.slot? s ((A.newNode a).run s).1 = none
  newNode : ∀ a s, A.slot? ((A.newNode a).run s).2 =
    Function.update (A.slot? s) ((A.newNode a).run s).1 (some ⟨a, none⟩)
  update : ∀ i f s n, A.slot? s i = some n → A.slot? ((A.update i f).run s).2 =
    Function.update (A.slot? s) i (some { n with data := f n.data })
  append : ∀ p i s n, A.slot? s p ≠ none → A.slot? s i = some n → n.parent = none →
    ¬Heap.Below (A.slot? s) i p → A.slot? ((A.append p i).run s).2 =
      Function.update (A.slot? s) i (some { n with parent := some p })
  removeSubtree : ∀ i s, A.slot? s i ≠ none → ∀ j,
    (Heap.Below (A.slot? s) i j → A.slot? ((A.removeSubtree i).run s).2 j = none) ∧
    (¬Heap.Below (A.slot? s) i j → A.slot? ((A.removeSubtree i).run s).2 j = A.slot? s j)

end Arena

/-! ## Trees -/

/-- A tree and the ids of its nodes, its root first. -/
structure Placed (Id : Type) where
  root : Id
  tree : Tree
  ids : List Id

namespace Placed

variable {Id : Type}

/-- Subtrees as they are recorded. -/
def roots (subs : List (Key × Placed Id)) : List (Key × Id) := subs.map fun e => (e.1, e.2.root)

def trees (subs : List (Key × Placed Id)) : List (Key × Tree) := subs.map fun e => (e.1, e.2.tree)

def allIds (subs : List (Key × Placed Id)) : List Id := subs.flatMap fun e => e.2.ids

theorem keys_roots (subs : List (Key × Placed Id)) : Assoc.keys (roots subs) = Assoc.keys subs := by
  simp [roots, Assoc.keys]

theorem keys_trees (subs : List (Key × Placed Id)) : Assoc.keys (trees subs) = Assoc.keys subs := by
  simp [trees, Assoc.keys]

theorem get?_roots (k : Key) (subs : List (Key × Placed Id)) :
    Assoc.get? k (roots subs) = (Assoc.get? k subs).map root :=
  Assoc.get?_map root k subs

theorem get?_trees (k : Key) (subs : List (Key × Placed Id)) :
    Assoc.get? k (trees subs) = (Assoc.get? k subs).map tree :=
  Assoc.get?_map tree k subs

theorem mem_allIds {subs : List (Key × Placed Id)} {e : Key × Placed Id} {i : Id} (he : e ∈ subs)
    (hi : i ∈ e.2.ids) : i ∈ allIds subs :=
  List.mem_flatMap.mpr ⟨e, he, hi⟩

end Placed

namespace Heap

open Placed

variable {Id : Type} {h h' : Heap Id (Entry Id)} {parent : Option Id} {key : Option Key}
  {path : Path} {P : Placed Id} {i p : Id}

/-- A tree stands on a heap, below a parent and under a key and a path. -/
inductive Shows (h : Heap Id (Entry Id)) : Option Id → Option Key → Path → Placed Id → Prop
  | node {parent key path i host name kind} (subs : List (Key × Placed Id)) :
    h i = some ⟨⟨host, host.tag?.map Text.lower, name, key, path, kind, roots subs⟩, parent⟩ →
    (∀ e ∈ subs, Shows h (some i) (some e.1) (path ++ [e.1]) e.2) →
    Shows h parent key path ⟨i, .node host name kind (trees subs), i :: allIds subs⟩

namespace Shows

theorem slot (hP : h.Shows parent key path P) : ∃ e : Entry Id, h P.root = some ⟨e, parent⟩ ∧
    e.key = key ∧ e.path = path ∧ e.host = P.tree.host := by
  cases hP with
  | node subs hi _ => exact ⟨_, hi, rfl, rfl, rfl⟩

theorem root_mem (hP : h.Shows parent key path P) : P.root ∈ P.ids := by
  cases hP
  exact List.mem_cons_self

theorem subtrees (hP : h.Shows parent key path P) {n : Slot Id (Entry Id)}
    (hn : h P.root = some n) : ∃ subs, n.data.subtrees = roots subs ∧
      trees subs = P.tree.subtrees ∧
      ∀ e ∈ subs, h.Shows (some P.root) (some e.1) (path ++ [e.1]) e.2 := by
  cases hP with
  | node subs hi hsubs =>
    cases hn.symm.trans hi
    exact ⟨subs, rfl, rfl, hsubs⟩

/-- A tree stands on every heap that has its slots. -/
theorem congr (hP : h.Shows parent key path P) (heq : ∀ i ∈ P.ids, h' i = h i) :
    h'.Shows parent key path P := by
  induction hP with
  | node subs hi _ ih =>
    refine .node subs ((heq _ List.mem_cons_self).trans hi) fun e he => ?_
    exact ih e he fun j hj => heq j (List.mem_cons_of_mem _ (mem_allIds he hj))

/-- The parents in a tree are in the tree, but for that of its root. -/
theorem parent_mem (hP : h.Shows parent key path P) (hi : i ∈ P.ids) : ∃ n, h i = some n ∧
    (i = P.root ∧ n.parent = parent ∨ ∃ p ∈ P.ids, n.parent = some p) := by
  induction hP with
  | node subs hslot _ ih =>
    rcases List.mem_cons.mp hi with rfl | hi
    · exact ⟨_, hslot, .inl ⟨rfl, rfl⟩⟩
    · obtain ⟨e, he, hi⟩ := List.mem_flatMap.mp hi
      obtain ⟨n, hn, ⟨-, hroot⟩ | ⟨p, hp, hparent⟩⟩ := ih e he hi
      · exact ⟨n, hn, .inr ⟨_, List.mem_cons_self, hroot⟩⟩
      · exact ⟨n, hn, .inr ⟨p, List.mem_cons_of_mem _ (mem_allIds he hp), hparent⟩⟩

theorem below_of_mem (hP : h.Shows parent key path P) (hi : i ∈ P.ids) : h.Below P.root i := by
  induction hP with
  | node subs _ hsubs ih =>
    rcases List.mem_cons.mp hi with rfl | hi
    · exact .refl
    · obtain ⟨e, he, hi⟩ := List.mem_flatMap.mp hi
      obtain ⟨n, hn, -⟩ := (hsubs e he).slot
      exact .head ⟨_, hn, rfl⟩ (ih e he hi)

/-- The root of a tree may be put below a node. -/
theorem reparent [DecidableEq Id] (hP : h.Shows none key path P) (hnodup : P.ids.Nodup)
    {n : Slot Id (Entry Id)} (hn : h P.root = some n) :
    Shows (Function.update h P.root (some { n with parent := some p })) (some p) key path P := by
  cases hP with
  | node subs hslot hsubs =>
    cases hn.symm.trans hslot
    refine .node subs (Function.update_self ..) fun e he => ?_
    refine (hsubs e he).congr fun j hj => Function.update_of_ne ?_ ..
    rintro rfl
    exact (List.nodup_cons.mp hnodup).1 (mem_allIds he hj)

end Shows

/-- If no live node has its parent in a tree but the nodes of the tree, then these are all that
lies below the root. -/
theorem mem_of_below (hroot : P.root ∈ P.ids)
    (hclosed : ∀ i n p, h i = some n → n.parent = some p → p ∈ P.ids → i ∈ P.ids)
    (hi : h.Below P.root i) : i ∈ P.ids := by
  induction hi with
  | refl => exact hroot
  | tail _ hlink ih =>
    obtain ⟨n, hn, hp⟩ := hlink
    exact hclosed _ n _ hn hp ih

/-- Subtrees have grown below a node, and the rest of the heap is as it was. -/
structure Grown (h h' : Heap Id (Entry Id)) (p : Id) (path : Path)
    (subs : List (Key × Placed Id)) : Prop where
  ext : h.Extends h' (allIds subs)
  shows : ∀ e ∈ subs, h'.Shows (some p) (some e.1) (path ++ [e.1]) e.2

namespace Grown

variable {h'' : Heap Id (Entry Id)} {subs subs' : List (Key × Placed Id)} {k : Key}

theorem nil (h : Heap Id (Entry Id)) (p : Id) (path : Path) : h.Grown h p path [] :=
  ⟨.refl h, nofun⟩

theorem perm (hg : h.Grown h' p path subs) (hperm : subs.Perm subs') : h.Grown h' p path subs' :=
  ⟨hg.ext.perm (hperm.flatMap_right _), fun e he => hg.shows e (hperm.mem_iff.mpr he)⟩

theorem closed (hg : h.Grown h' p path subs) (hc : h.Closed) (hp : h p ≠ none) : h'.Closed := by
  intro i n q hn hq
  by_cases hi : i ∈ allIds subs
  · obtain ⟨e, he, hi⟩ := List.mem_flatMap.mp hi
    obtain ⟨n', hn', hparent⟩ := (hg.shows e he).parent_mem hi
    cases hn.symm.trans hn'
    rcases hparent with ⟨-, hparent⟩ | ⟨q', hq', hparent⟩
    · cases hq.symm.trans hparent
      rwa [hg.ext.eq_of_live hp]
    · cases hq.symm.trans hparent
      exact hg.ext.live q (mem_allIds he hq')
  · rw [hg.ext.frame i hi] at hn
    have hlive := hc hn hq
    rwa [hg.ext.eq_of_live hlive]

/-- The first one of the subtrees is removed. -/
theorem remove (hg : h.Grown h' p path ((k, P) :: subs)) (hc : h.Closed) (hp : h p ≠ none)
    (hgone : ∀ i, h'.Below P.root i → h'' i = none)
    (hrest : ∀ i, ¬h'.Below P.root i → h'' i = h' i) : h.Grown h'' p path subs := by
  have hP : h'.Shows (some p) (some k) (path ++ [k]) P := hg.shows _ List.mem_cons_self
  have hext : h.Extends h' (P.ids ++ allIds subs) := hg.ext
  have hdisjoint : ∀ i ∈ P.ids, i ∉ allIds subs := fun i hi hi' =>
    (List.nodup_append.mp hext.nodup).2.2 i hi i hi' rfl
  have hfresh : ∀ i ∈ P.ids, h i = none := fun i hi => hext.fresh i (List.mem_append_left _ hi)
  -- What is new and not in the subtree has its parent in another one, or is the root of another.
  have hbelow : ∀ i, h'.Below P.root i ↔ i ∈ P.ids := by
    refine fun i => ⟨mem_of_below hP.root_mem fun i n q hn hq hmem => ?_, hP.below_of_mem⟩
    have hnew := hext.mem_of_parent_mem hc hn hq (List.mem_append_left _ hmem)
    rcases List.mem_append.mp hnew with hi | hi
    · exact hi
    · obtain ⟨e, he, hie⟩ := List.mem_flatMap.mp hi
      obtain ⟨n', hn', hparent⟩ := (hg.shows e (List.mem_cons_of_mem _ he)).parent_mem hie
      cases hn.symm.trans hn'
      rcases hparent with ⟨-, hparent⟩ | ⟨q', hq', hparent⟩
      · cases hq.symm.trans hparent
        exact absurd (hfresh p hmem) hp
      · cases hq.symm.trans hparent
        exact absurd (mem_allIds he hq') (hdisjoint q hmem)
  constructor
  · exact hext.remove (fun i hi => hgone i ((hbelow i).mpr hi))
      fun i hi => hrest i (mt (hbelow i).mp hi)
  · intro e he
    refine (hg.shows e (List.mem_cons_of_mem _ he)).congr fun i hi => hrest i ?_
    exact fun hi' => hdisjoint i ((hbelow i).mp hi') (mem_allIds he hi)

variable [DecidableEq Id]

/-- A tree that was built on its own is appended. -/
theorem append (hg : h.Grown h' p path subs) (hext : h'.Extends h'' P.ids)
    (hP : h''.Shows none (some k) (path ++ [k]) P) {n : Slot Id (Entry Id)}
    (hn : h'' P.root = some n) :
    h.Grown (Function.update h'' P.root (some { n with parent := some p })) p path
      (subs ++ [(k, P)]) := by
  constructor
  · have hids : allIds (subs ++ [(k, P)]) = allIds subs ++ P.ids := by simp [allIds]
    rw [hids]
    exact (hg.ext.trans hext).update (List.mem_append_right _ hP.root_mem) _
  · intro e he
    rcases List.mem_append.mp he with he | he
    · refine (hg.shows e he).congr fun i hi => ?_
      have hlive : h' i ≠ none := hg.ext.live i (mem_allIds he hi)
      rw [Function.update_of_ne, hext.eq_of_live hlive]
      rintro rfl
      exact hlive (hext.fresh _ hP.root_mem)
    · cases List.mem_singleton.mp he
      exact hP.reparent hext.nodup hn

/-- A node with all that has grown below it since it was entered is a tree. -/
theorem complete {n : Slot Id (Entry Id)} (hi : h i = none)
    (hg : Grown (Function.update h i (some n)) h' i path subs) (key : Option Key) (host : Node)
    (name : Option String) (kind : Kind) :
    let h'' : Heap Id (Entry Id) := Function.update h' i
      (some ⟨⟨host, host.tag?.map Text.lower, name, key, path, kind, roots subs⟩, none⟩)
    h.Extends h'' (i :: allIds subs) ∧
      h''.Shows none key path ⟨i, .node host name kind (trees subs), i :: allIds subs⟩ := by
  intro h''
  have hlive : Function.update h i (some n) i ≠ none := by simp
  constructor
  · exact ((Extends.single hi).trans hg.ext).update List.mem_cons_self _
  · refine .node subs (Function.update_self ..) fun e he => ?_
    refine (hg.shows e he).congr fun j hj => Function.update_of_ne ?_ ..
    rintro rfl
    exact hg.ext.notMem hlive (mem_allIds he hj)

end Grown
end Heap
end MarkupEval
