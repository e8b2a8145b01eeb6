import Mathlib.Data.List.Nodup
import MarkupEval.Tree.Basic

/-!
# Paths in a tree

Every node of a wrapped tree has its children under keys that differ (`ofHost_keyed`), so its path
leads back to it (`at?_child`), and it is a wrapped node of the host (`exists_ofHost_of_at?`). A
path text that resolves, resolves to a node under its path (`at?_of_resolve`). Every node that a
path leads to is listed (`mem_nodes_of_at?`), and it is listed once (`nodup_nodes`).
-/

namespace MarkupEval
namespace Tree

mutual

/-- Below every node, no key occurs twice. -/
def Keyed : Tree → Prop
  | .node _ _ _ subtrees => (Assoc.keys subtrees).Nodup ∧ AllKeyed subtrees

def AllKeyed : List (Key × Tree) → Prop
  | [] => True
  | (_, t) :: r => t.Keyed ∧ AllKeyed r

end

theorem allKeyed_iff {es : List (Key × Tree)} : AllKeyed es ↔ ∀ e ∈ es, e.2.Keyed := by
  induction es with
  | nil => simp [AllKeyed]
  | cons e es ih => simp [AllKeyed, ih]

theorem keyed_iff {t : Tree} :
    t.Keyed ↔ (Assoc.keys t.subtrees).Nodup ∧ ∀ e ∈ t.subtrees, e.2.Keyed := by
  cases t
  simp [Keyed, subtrees, allKeyed_iff]

/-! ## Keys of a wrapped tree -/

theorem nodup_keys_positional (ts : List Tree) : (Assoc.keys (positional ts)).Nodup := by
  rw [List.nodup_iff_injective_getElem]
  intro i j h
  exact Fin.ext (by simpa [positional, Assoc.keys] using h)

theorem not_isName_of_mem_keys_positional {ts : List Tree} {k : Key}
    (h : k ∈ Assoc.keys (positional ts)) : k.isName = false := by
  obtain ⟨e, he, rfl⟩ := List.mem_map.mp h
  obtain ⟨i, hi, rfl⟩ := List.mem_mapIdx.mp he
  rfl

theorem isName_of_mem_keys_named {ts : List Tree} {k : Key} (h : k ∈ Assoc.keys (named ts)) :
    k.isName := by
  obtain ⟨e, he, rfl⟩ := List.mem_map.mp h
  obtain ⟨t, -, ht⟩ := List.mem_filterMap.mp (Assoc.mem_of_mem_ofPairs he)
  obtain ⟨s, -, rfl⟩ := Option.map_eq_some_iff.mp ht
  rfl

theorem nodup_keys_named (ts : List Tree) : (Assoc.keys (named ts)).Nodup :=
  Assoc.nodup_keys_ofPairs _

theorem nodup_keys_arrange (ts : List Tree) : (Assoc.keys (arrange ts)).Nodup := by
  simp only [arrange, Assoc.keys, List.map_append]
  refine List.nodup_append.mpr ⟨nodup_keys_positional _, nodup_keys_named _, ?_⟩
  rintro k hk _ hk' rfl
  have := not_isName_of_mem_keys_positional hk
  simp [isName_of_mem_keys_named hk'] at this

theorem mem_of_mem_arrange {ts : List Tree} {e : Key × Tree} (h : e ∈ arrange ts) : e.2 ∈ ts := by
  have key : ∀ {ts : List Tree}, e ∈ positional ts ++ named ts → e.2 ∈ ts := by
    intro ts h
    rcases List.mem_append.mp h with h | h
    · obtain ⟨i, hi, rfl⟩ := List.mem_mapIdx.mp h
      exact (List.mem_filter.mp (List.getElem_mem hi)).1
    · obtain ⟨t, ht, hs⟩ := List.mem_filterMap.mp (Assoc.mem_of_mem_ofPairs h)
      obtain ⟨s, -, rfl⟩ := Option.map_eq_some_iff.mp hs
      exact ht
  have := key h
  split at this
  · exact (List.mem_filter.mp this).1
  · exact this

mutual

theorem ofHost_keyed (r : Registry) (o : Options) : ∀ n : Node, (ofHost r o n).Keyed
  | .text s => by simp [ofHost, Keyed, AllKeyed]
  | .element tag attrs children => by
    rw [ofHost, keyed_iff]
    exact ⟨nodup_keys_arrange _, fun e he => ofHosts_keyed r o children _ (mem_of_mem_arrange he)⟩

theorem ofHosts_keyed (r : Registry) (o : Options) :
    ∀ ns : List Node, ∀ t ∈ ofHosts r o ns, t.Keyed
  | [] => by simp [ofHosts]
  | n :: ns => by
    rw [ofHosts, List.forall_mem_cons]
    exact ⟨ofHost_keyed r o n, ofHosts_keyed r o ns⟩

end

/-! ## Nodes of a wrapped host -/

theorem ofHosts_eq_map (r : Registry) (o : Options) (ns : List Node) :
    ofHosts r o ns = ns.map (ofHost r o) := by
  induction ns with
  | nil => rfl
  | cons n ns ih => rw [ofHosts, ih, List.map_cons]

theorem host_ofHost (r : Registry) (o : Options) (n : Node) : (ofHost r o n).host = n := by
  cases n <;> rfl

theorem name_ofHost (r : Registry) (o : Options) (n : Node) :
    (ofHost r o n).name = declaredName o n.attributes := by
  cases n <;> rfl

theorem ne_empty_of_declaredName {o : Options} {attrs : Attributes} {s : String}
    (h : declaredName o attrs = some s) : s ≠ "" := by
  simpa using (Option.filter_eq_some_iff.mp h).2

theorem exists_ofHost_of_mem_subtrees {r : Registry} {o : Options} {n : Node} {e : Key × Tree}
    (h : e ∈ (ofHost r o n).subtrees) : ∃ m ∈ n.children, ofHost r o m = e.2 := by
  cases n with
  | text s => cases h
  | element tag attrs children =>
    have hmem := mem_of_mem_arrange h
    rw [ofHosts_eq_map] at hmem
    exact List.mem_map.mp hmem

/-- Every node of a wrapped host is a wrapped node of the host; a property that goes from a node of
the host to its children goes to all of them. -/
theorem exists_ofHost_of_at? {P : Node → Prop}
    (hP : ∀ {n}, P n → ∀ m ∈ n.children, P m) {r : Registry} {o : Options} {n : Node} (hn : P n)
    {p : Path} {t : Tree} (h : (ofHost r o n).at? p = some t) : ∃ m, P m ∧ ofHost r o m = t := by
  induction p generalizing n with
  | nil => exact ⟨n, hn, Option.some.inj h⟩
  | cons k p ih =>
    obtain ⟨c, hc, ht⟩ := Option.bind_eq_some_iff.mp h
    obtain ⟨m, hm, rfl⟩ := exists_ofHost_of_mem_subtrees (Assoc.mem_of_get? hc)
    exact ih (hP hn m hm) ht

/-! ## Nodes at paths -/

theorem at?_append (t : Tree) (p q : Path) : t.at? (p ++ q) = (t.at? p).bind fun c => c.at? q := by
  induction p generalizing t with
  | nil => rfl
  | cons k p ih =>
    simp only [List.cons_append, at?, Option.bind_assoc]
    exact Option.bind_congr fun c _ => ih c

theorem Keyed.at? {t c : Tree} {p : Path} (ht : t.Keyed) (h : t.at? p = some c) : c.Keyed := by
  induction p generalizing t with
  | nil =>
    cases h
    exact ht
  | cons k p ih =>
    obtain ⟨b, hb, hc⟩ := Option.bind_eq_some_iff.mp h
    exact ih ((keyed_iff.mp ht).2 _ (Assoc.mem_of_get? hb)) hc

/-- A child lies at the path of its parent and its key. -/
theorem at?_child {t c b : Tree} {p : Path} {k : Key} (ht : t.Keyed) (h : t.at? p = some c)
    (hb : (k, b) ∈ c.subtrees) : t.at? (p ++ [k]) = some b := by
  have hk : c.child? k = some b := Assoc.get?_of_mem (keyed_iff.mp (ht.at? h)).1 hb
  simp [at?_append, h, Tree.at?, hk]

theorem at?_of_resolveFrom {root t c : Tree} {p q : Path} {segments : List String}
    (ht : root.at? p = some t) (h : resolveFrom p t segments = some (q, c)) :
    root.at? q = some c := by
  induction segments generalizing p t with
  | nil =>
    cases h
    exact ht
  | cons s ss ih =>
    unfold resolveFrom at h
    split at h
    · next k b hb =>
      obtain ⟨k', -, hk'⟩ := List.exists_of_findSome?_eq_some hb
      obtain ⟨c', hc', heq⟩ := Option.map_eq_some_iff.mp hk'
      cases heq
      exact ih (by simp [at?_append, ht, Tree.at?, hc']) h
    · cases h

theorem at?_of_resolve {t c : Tree} {text : String} {p : Path}
    (h : t.resolve text = some (p, c)) : t.at? p = some c := at?_of_resolveFrom rfl h

/-! ## The list of nodes -/

theorem mem_subtreeNodesFrom {q p : Path} {k : Key} {b c : Tree} {es : List (Key × Tree)}
    (hb : (k, b) ∈ es) (h : (q, c) ∈ nodesFrom (p ++ [k]) b) : (q, c) ∈ subtreeNodesFrom p es := by
  induction es with
  | nil => cases hb
  | cons e es ih =>
    rw [subtreeNodesFrom, List.mem_append]
    rcases List.mem_cons.mp hb with rfl | hb
    · exact .inl h
    · exact .inr (ih hb)

theorem mem_nodesFrom_of_at? {t c : Tree} {p q : Path} (h : t.at? q = some c) :
    (p ++ q, c) ∈ nodesFrom p t := by
  induction q generalizing p t with
  | nil =>
    cases h
    cases c
    simp [nodesFrom]
  | cons k q ih =>
    obtain ⟨b, hb, hc⟩ := Option.bind_eq_some_iff.mp h
    cases t
    rw [nodesFrom]
    refine List.mem_cons_of_mem _ (mem_subtreeNodesFrom (Assoc.mem_of_get? hb) ?_)
    simpa using ih (p := p ++ [k]) hc

theorem mem_nodes_of_at? {t c : Tree} {p : Path} (h : t.at? p = some c) : (p, c) ∈ t.nodes :=
  mem_nodesFrom_of_at? (p := []) h

mutual

theorem at?_of_mem_nodesFrom {c : Tree} {p q : Path} :
    ∀ {t : Tree}, t.Keyed → (q, c) ∈ nodesFrom p t → ∃ r, q = p ++ r ∧ t.at? r = some c
  | .node host name kind subtrees, ht, h => by
    rw [nodesFrom, List.mem_cons] at h
    rcases h with h | h
    · cases h
      exact ⟨[], by simp, rfl⟩
    · obtain ⟨k, b, r, hb, rfl, hr⟩ := at?_of_mem_subtreeNodesFrom ht.2 h
      refine ⟨k :: r, rfl, ?_⟩
      have hk : (node host name kind subtrees).child? k = some b := Assoc.get?_of_mem ht.1 hb
      simpa [at?, hk] using hr

theorem at?_of_mem_subtreeNodesFrom {c : Tree} {p q : Path} :
    ∀ {es : List (Key × Tree)}, AllKeyed es → (q, c) ∈ subtreeNodesFrom p es →
      ∃ k b r, (k, b) ∈ es ∧ q = p ++ k :: r ∧ b.at? r = some c
  | [], _, h => by cases h
  | (k, t) :: es, hes, h => by
    rw [subtreeNodesFrom, List.mem_append] at h
    rcases h with h | h
    · obtain ⟨r, rfl, hr⟩ := at?_of_mem_nodesFrom hes.1 h
      exact ⟨k, t, r, List.mem_cons_self .., by simp, hr⟩
    · obtain ⟨k', b, r, hb, hq, hr⟩ := at?_of_mem_subtreeNodesFrom hes.2 h
      exact ⟨k', b, r, List.mem_cons_of_mem _ hb, hq, hr⟩

end

/-- The listed nodes are those that a path leads to. -/
theorem mem_nodes_iff {t c : Tree} {p : Path} (ht : t.Keyed) :
    (p, c) ∈ t.nodes ↔ t.at? p = some c := by
  refine ⟨fun h => ?_, mem_nodes_of_at?⟩
  obtain ⟨r, rfl, hr⟩ := at?_of_mem_nodesFrom ht h
  exact hr

mutual

/-- The paths of the listed nodes differ. -/
theorem nodup_nodesFrom {p : Path} : ∀ {t : Tree}, t.Keyed → (nodesFrom p t).Pairwise (·.1 ≠ ·.1)
  | .node host name kind subtrees, ht => by
    rw [nodesFrom, List.pairwise_cons]
    refine ⟨fun x hx => ?_, nodup_subtreeNodesFrom ht.1 ht.2⟩
    obtain ⟨k, b, r, -, hq, -⟩ := at?_of_mem_subtreeNodesFrom ht.2 (q := x.1) (c := x.2) hx
    simp [hq]

theorem nodup_subtreeNodesFrom {p : Path} : ∀ {es : List (Key × Tree)}, (Assoc.keys es).Nodup →
    AllKeyed es → (subtreeNodesFrom p es).Pairwise (·.1 ≠ ·.1)
  | [], _, _ => .nil
  | (k, t) :: es, hkeys, hes => by
    rw [Assoc.keys_cons, List.nodup_cons] at hkeys
    rw [subtreeNodesFrom, List.pairwise_append]
    refine ⟨nodup_nodesFrom hes.1, nodup_subtreeNodesFrom hkeys.2 hes.2, fun x hx y hy heq => ?_⟩
    obtain ⟨r, hx, -⟩ := at?_of_mem_nodesFrom hes.1 (q := x.1) (c := x.2) hx
    obtain ⟨k', b, r', hb, hy, -⟩ := at?_of_mem_subtreeNodesFrom hes.2 (q := y.1) (c := y.2) hy
    have hk : k = k' ∧ r = r' := by simpa [hx, hy] using heq
    exact hkeys.1 (List.mem_map.mpr ⟨_, hb, hk.1.symm⟩)

end

/-- Every node is listed once. -/
theorem nodup_nodes {t : Tree} (ht : t.Keyed) : (t.nodes.map Prod.fst).Nodup :=
  List.pairwise_map.mpr (nodup_nodesFrom ht)

end Tree
end MarkupEval
