import Mathlib.Data.List.Induction
import MarkupEval.Proofs.Tree.Cells
import MarkupEval.Proofs.Tree.Wrapping

/-!
# Live nodes

After a host has been wrapped in an arena, the arena holds the nodes of the wrapped tree and nothing
else (`wrap_shows`); each live node stands where its path leads in that tree (`wrap_live`). So its
subtrees stand for the children of its host, they know where they are, and no node is reached in two
ways (`wrap_arranged`).
-/

namespace MarkupEval

/-! ## Maps from lists of pairs -/

namespace Assoc

variable {α β : Type} [DecidableEq α]

/-- The keys come in the order of their first occurrence. -/
theorem keys_ofPairs (ps : List (α × β)) : keys (ofPairs ps) = (keys ps).eraseDups := by
  induction ps using List.reverseRecOn with
  | nil => rfl
  | append_singleton ps p ih =>
    have hkeys : keys (ps ++ [p]) = keys ps ++ [p.1] := List.map_append
    rw [ofPairs_concat, hkeys, List.eraseDups_append, ← ih]
    by_cases h : p.1 ∈ keys (ofPairs ps)
    · have hmem : p.1 ∈ keys ps := List.mem_eraseDups.mp (ih ▸ h)
      rw [keys_insert_of_mem h]
      simp [List.removeAll, hmem]
    · have hmem : p.1 ∉ keys ps := fun hmem => h (ih ▸ List.mem_eraseDups.mpr hmem)
      have hnew : [p.1].removeAll (keys ps) = [p.1] := by simp [List.removeAll, hmem]
      rw [insert_eq_append h, hnew]
      exact List.map_append

/-- Of the values of a key the last one counts. -/
theorem get?_ofPairs (k : α) (ps : List (α × β)) :
    get? k (ofPairs ps) = ((ps.filter fun p => p.1 = k).getLast?).map Prod.snd := by
  induction ps using List.reverseRecOn with
  | nil => rfl
  | append_singleton ps p ih =>
    rw [ofPairs_concat, get?_insert, List.filter_append]
    by_cases h : p.1 = k
    · simp [h]
    · have hne : ¬k = p.1 := fun heq => h heq.symm
      simp [h, hne, ih]

end Assoc

/-! ## Subtrees of a wrapped host -/

namespace Tree

variable {r : Registry} {o : Options} {n : Node} {s : String}

/-- Whether a child of a node is known by its position: an element that declares no name, or a text
that is no layout between elements. -/
def hasPosition (o : Options) (n : Node) : Node → Bool
  | .element _ attrs _ => (declaredName o attrs).isNone
  | .text s => !(n.children.any Node.isElement && Text.isLayout s)

/-- The names that the children of a node declare. -/
def declaredNames (o : Options) (n : Node) : List String :=
  n.children.filterMap fun c => declaredName o c.attributes

theorem keys_positional (ts : List Tree) :
    Assoc.keys (positional ts) = (List.range (positional ts).length).map Key.position :=
  List.ext_getElem (by simp [Assoc.keys]) fun i _ _ => by simp [positional, Assoc.keys]

theorem wrapped_eq_map (r : Registry) (o : Options) (n : Node) : wrapped r o n = (n.children.filter
    fun c => !(n.children.any Node.isElement && c.isLayout)).map (ofHost r o) := by
  rw [wrapped, kept, ofHosts_eq_map, List.filter_map]
  refine congrArg (List.map _) (List.filter_congr fun c _ => ?_)
  simp [host_ofHost]

theorem host_comp_ofHost (r : Registry) (o : Options) : host ∘ ofHost r o = id :=
  funext (host_ofHost r o)

theorem hosts_positional (r : Registry) (o : Options) (n : Node) :
    (positional (wrapped r o n)).map (fun e => e.2.host) =
      n.children.filter (hasPosition o n) := by
  have hmap : ∀ ts : List Tree, (positional ts).map (fun e => e.2.host) =
      (ts.filter fun t => t.name.isNone).map host := fun ts =>
    List.ext_getElem (by simp [positional]) fun i _ _ => by simp [positional]
  rw [hmap, wrapped_eq_map, List.filter_map, List.map_map, host_comp_ofHost, List.map_id,
    List.filter_filter]
  refine List.filter_congr fun c _ => ?_
  cases c with
  | element tag attrs children => simp [hasPosition, Node.isLayout, name_ofHost, Node.attributes]
  | text s =>
    have hname : (ofHost r o (.text s)).name = none := rfl
    simp [hasPosition, Node.isLayout, hname]

/-- A text declares no name. -/
theorem declaredName_of_isLayout {c : Node} (h : c.isLayout = true) :
    declaredName o c.attributes = none := by
  cases c with
  | element tag attrs children => cases h
  | text s => rfl

theorem keys_named (r : Registry) (o : Options) (n : Node) :
    Assoc.keys (named (wrapped r o n)) = ((declaredNames o n).map Key.name).eraseDups := by
  rw [named, Assoc.keys_ofPairs, Assoc.keys, List.map_filterMap, wrapped_eq_map,
    List.filterMap_map, List.filterMap_filter, declaredNames, List.map_filterMap]
  refine congrArg List.eraseDups (List.filterMap_congr fun c _ => ?_)
  cases h : !(n.children.any Node.isElement && c.isLayout) with
  | true => simp [name_ofHost, Option.map_map, Function.comp_def]
  | false =>
    have hlayout : c.isLayout = true := by
      rw [Bool.not_eq_false'] at h
      exact (Bool.and_eq_true_iff.mp h).2
    simp [declaredName_of_isLayout hlayout]

theorem get?_named (s : String) (ts : List Tree) :
    Assoc.get? (.name s) (named ts) = (ts.filter fun t => t.name = some s).getLast? := by
  rw [named, Assoc.get?_ofPairs, ← List.getLast?_map]
  refine congrArg List.getLast? ?_
  induction ts with
  | nil => rfl
  | cons t ts ih =>
    cases h : t.name with
    | none => simpa [h] using ih
    | some s' => by_cases hs : s' = s <;> simpa [h, hs] using ih

/-- What is known by a name is the last child that declares it. -/
theorem last_of_mem_named {k : Key} {t : Tree} (h : (k, t) ∈ named (wrapped r o n)) :
    ∃ name, k = .name name ∧ name ≠ "" ∧ some t.host =
      (n.children.filter fun c => declaredName o c.attributes = some name).getLast? := by
  have hname := isName_of_mem_keys_named (List.mem_map_of_mem h)
  cases k with
  | position i => cases hname
  | name name =>
    have hget := Assoc.get?_of_mem (nodup_keys_named _) h
    rw [get?_named, wrapped_eq_map, List.filter_map, List.getLast?_map, List.filter_filter] at hget
    have hhost := congrArg (Option.map host) hget
    rw [Option.map_map, host_comp_ofHost, Option.map_id_fun] at hhost
    have hlast : some t.host =
        (n.children.filter fun c => declaredName o c.attributes = some name).getLast? := by
      refine hhost.symm.trans (congrArg List.getLast? (List.filter_congr fun c _ => ?_))
      cases hlayout : c.isLayout with
      | true => simp [name_ofHost, declaredName_of_isLayout hlayout]
      | false => simp [name_ofHost]
    have hdeclares := (List.mem_filter.mp (List.mem_of_getLast? hlast.symm)).2
    exact ⟨name, rfl, ne_empty_of_declaredName (of_decide_eq_true hdeclares), hlast⟩

end Tree

/-! ## Walks -/

namespace Arena

open Heap Placed

variable {σ Id : Type} {A : Arena σ Id (Entry Id)} {s : σ} {parent : Option Id} {key : Option Key}
  {path q : Path} {P : Placed Id} {i : Id}

/-- A walk in a tree on the heap is a walk in the tree. -/
theorem shows_of_walk (hP : Shows (A.slot? s) parent key path P)
    (hwalk : A.walk s P.root q = some i) : ∃ parent' key' Q, Q.root = i ∧
      Shows (A.slot? s) parent' key' (path ++ q) Q ∧ P.tree.at? q = some Q.tree := by
  induction q generalizing parent key path P with
  | nil => exact ⟨parent, key, P, Option.some.inj hwalk, by simpa using hP, rfl⟩
  | cons k q ih =>
    cases hP with
    | node subs hslot hsubs =>
      obtain ⟨n, hn, hwalk⟩ := Option.bind_eq_some_iff.mp hwalk
      cases hn.symm.trans hslot
      obtain ⟨c, hc, hwalk⟩ := Option.bind_eq_some_iff.mp hwalk
      rw [get?_roots] at hc
      obtain ⟨Q, hQ, rfl⟩ := Option.map_eq_some_iff.mp hc
      obtain ⟨parent', key', R, hR, hshows, hat⟩ := ih (hsubs _ (Assoc.mem_of_get? hQ)) hwalk
      refine ⟨parent', key', R, hR, by simpa using hshows, ?_⟩
      rw [Tree.at?, Tree.child?, Tree.subtrees, get?_trees, hQ]
      exact hat

/-- A walk leads to every node of a tree. -/
theorem exists_walk (hP : Shows (A.slot? s) parent key path P) (hkeyed : P.tree.Keyed)
    (hi : i ∈ P.ids) : ∃ q, A.walk s P.root q = some i := by
  induction hP with
  | node subs hslot _ ih =>
    rcases List.mem_cons.mp hi with rfl | hi
    · exact ⟨[], rfl⟩
    · obtain ⟨⟨k, Q⟩, hQ, hi⟩ := List.mem_flatMap.mp hi
      obtain ⟨hnodup, hkeyeds⟩ := Tree.keyed_iff.mp hkeyed
      have hmem : (k, Q.tree) ∈ trees subs := List.mem_map.mpr ⟨(k, Q), hQ, rfl⟩
      obtain ⟨q, hq⟩ := ih (k, Q) hQ (hkeyeds _ hmem) hi
      refine ⟨k :: q, ?_⟩
      rw [Tree.subtrees, keys_trees] at hnodup
      rw [walk, hslot, Option.bind_some, get?_roots, Assoc.get?_of_mem hnodup hQ]
      exact hq

/-! ## Wrapped hosts -/

variable [DecidableEq Id]

/-- What an arena holds in the end is the wrapped host. -/
theorem wrap_shows (hA : A.Lawful) (r : Registry) (o : Options) (host : Node) :
    ∃ P, (A.wrap r o host).1 = P.root ∧ P.tree = Tree.ofHost r o host ∧
      Shows (A.slot? (A.wrap r o host).2) none none [] P ∧
      ∀ i, A.slot? (A.wrap r o host).2 i ≠ none ↔ i ∈ P.ids := by
  have hclosed : Closed (A.slot? A.empty) := fun i n p hn => by simp [hA.empty] at hn
  obtain ⟨P, s, hrun, hP⟩ := build_spec hA r o host none [] A.empty trivial hclosed
  have hwrap : A.wrap r o host = (P.root, s) := hrun
  rw [hwrap]
  refine ⟨P, rfl, hP.tree, hP.shows, fun i => ⟨fun hi => ?_, hP.ext.live i⟩⟩
  by_contra hmem
  exact hi ((hP.ext.frame i hmem).trans (hA.empty i))

/-- A live node is the root of the tree at its path, and no other path leads to it. -/
theorem wrap_live (hA : A.Lawful) (r : Registry) (o : Options) (host : Node) {p : Id}
    {n : Slot Id (Entry Id)} (hp : A.slot? (A.wrap r o host).2 p = some n) :
    ∃ parent key P, P.root = p ∧ Shows (A.slot? (A.wrap r o host).2) parent key n.data.path P ∧
      (Tree.ofHost r o host).at? n.data.path = some P.tree ∧
      ∀ q, A.walk (A.wrap r o host).2 (A.wrap r o host).1 q = some p ↔ q = n.data.path := by
  obtain ⟨R, hroot, htree, hR, hlive⟩ := wrap_shows hA r o host
  -- A walk to the node reads off its path, so there is only one.
  have hpath : ∀ q, A.walk (A.wrap r o host).2 R.root q = some p → ∃ parent key P, P.root = p ∧
      Shows (A.slot? (A.wrap r o host).2) parent key q P ∧ R.tree.at? q = some P.tree ∧
      q = n.data.path := by
    intro q hq
    obtain ⟨parent, key, P, rfl, hP, hat⟩ := shows_of_walk hR hq
    obtain ⟨e, he, -, hpath, -⟩ := hP.slot
    cases hp.symm.trans he
    exact ⟨parent, key, P, rfl, by simpa using hP, hat, by simpa using hpath.symm⟩
  have hkeyed : R.tree.Keyed := htree ▸ Tree.ofHost_keyed r o host
  obtain ⟨q, hq⟩ := exists_walk hR hkeyed ((hlive p).mp (by simp [hp]))
  obtain ⟨parent, key, P, hP, hshows, hat, rfl⟩ := hpath q hq
  refine ⟨parent, key, P, hP, hshows, htree ▸ hat, fun q => ⟨fun h => ?_, ?_⟩⟩
  · rw [hroot] at h
    obtain ⟨-, -, -, -, -, -, h⟩ := hpath q h
    exact h
  · rintro rfl
    rw [hroot]
    exact hq

/-- The host of a live node. -/
def host? (A : Arena σ Id (Entry Id)) (s : σ) (i : Id) : Option Node :=
  (A.slot? s i).map fun n => n.data.host

/-- The subtrees of a live node, apart into those with a position and those with a name, stand for
the children of its host. -/
structure Arranged (A : Arena σ Id (Entry Id)) (o : Options) (s : σ) (p : Id)
    (n : Slot Id (Entry Id)) (positional named : List (Key × Id)) : Prop where
  subtrees : n.data.subtrees = positional ++ named
  positions : Assoc.keys positional = (List.range positional.length).map Key.position
  /-- Every child that has a position is there, in document order. -/
  positioned : positional.map (fun e => A.host? s e.2) =
    (n.data.host.children.filter (Tree.hasPosition o n.data.host)).map some
  /-- The names come in the order of their first declaration. -/
  names : Assoc.keys named = ((Tree.declaredNames o n.data.host).map Key.name).eraseDups
  distinct : (Assoc.keys named).Nodup
  /-- Of the children that declare a name the last one is there. -/
  last : ∀ e ∈ named, ∃ name, e.1 = .name name ∧ name ≠ "" ∧ A.host? s e.2 =
    (n.data.host.children.filter fun c => Tree.declaredName o c.attributes = some name).getLast?
  /-- A subtree knows its parent, its key and its path. -/
  links : ∀ e ∈ n.data.subtrees, ∃ c, A.slot? s e.2 = some c ∧ c.parent = some p ∧
    c.data.key = some e.1 ∧ c.data.path = n.data.path ++ [e.1]

omit [DecidableEq Id] in
theorem host?_of_shows (hP : Shows (A.slot? s) parent key path P) :
    A.host? s P.root = some P.tree.host := by
  obtain ⟨e, he, -, -, hhost⟩ := hP.slot
  rw [host?, he, Option.map_some, hhost]

omit [DecidableEq Id] in
theorem arranged_of_shows {r : Registry} {o : Options} {m : Node} {n : Slot Id (Entry Id)}
    (hP : Shows (A.slot? s) parent key path P) (htree : P.tree = Tree.ofHost r o m)
    (hn : A.slot? s P.root = some n) :
    ∃ positional named, A.Arranged o s P.root n positional named := by
  obtain ⟨e, he, -, rfl, hhost⟩ := hP.slot
  cases hn.symm.trans he
  rw [htree, Tree.host_ofHost] at hhost
  obtain ⟨subs, hsubs, htrees, hshows⟩ := hP.subtrees hn
  rw [htree, Tree.subtrees_ofHost] at htrees
  obtain ⟨ps, ns, rfl, hps, hns⟩ := List.map_eq_append_iff.mp htrees
  refine ⟨roots ps, roots ns, ?_, ?_, ?_, ?_, ?_, ?_, ?_⟩
  · rw [hsubs]
    exact List.map_append
  · have hlength : (roots ps).length = (Tree.positional (Tree.wrapped r o m)).length := by
      rw [← hps, roots, List.length_map, List.length_map]
    rw [keys_roots, ← keys_trees, trees, hps, hlength]
    exact Tree.keys_positional _
  · rw [hhost, ← Tree.hosts_positional r o m, ← hps, roots, List.map_map, List.map_map,
      List.map_map]
    exact List.map_congr_left fun e he => host?_of_shows (hshows e (List.mem_append_left _ he))
  · rw [keys_roots, ← keys_trees, trees, hns, hhost]
    exact Tree.keys_named r o m
  · rw [keys_roots, ← keys_trees, trees, hns]
    exact Tree.nodup_keys_named _
  · intro e he
    obtain ⟨⟨k, Q⟩, hQ, rfl⟩ := List.mem_map.mp he
    have hmem : (k, Q.tree) ∈ Tree.named (Tree.wrapped r o m) :=
      hns ▸ List.mem_map.mpr ⟨(k, Q), hQ, rfl⟩
    obtain ⟨name, rfl, hname, hlast⟩ := Tree.last_of_mem_named hmem
    rw [hhost]
    exact ⟨name, rfl, hname,
      (host?_of_shows (hshows _ (List.mem_append_right _ hQ))).trans hlast⟩
  · intro e he
    rw [hsubs] at he
    obtain ⟨sub, hsub, rfl⟩ := List.mem_map.mp he
    obtain ⟨c, hc, hkey, hpath, -⟩ := (hshows sub hsub).slot
    exact ⟨_, hc, rfl, hkey, hpath⟩

/-- Wrapping a host loses and duplicates nothing, whatever the arena: the root stands for the host,
the subtrees of each live node stand for the children of its host, and from the root one path of
keys leads to it, its own. -/
theorem wrap_arranged (hA : A.Lawful) (r : Registry) (o : Options) (host : Node) :
    A.host? (A.wrap r o host).2 (A.wrap r o host).1 = some host ∧
      ∀ p n, A.slot? (A.wrap r o host).2 p = some n →
        (∃ positional named, A.Arranged o (A.wrap r o host).2 p n positional named) ∧
        ∀ q, A.walk (A.wrap r o host).2 (A.wrap r o host).1 q = some p ↔ q = n.data.path := by
  constructor
  · obtain ⟨R, hroot, htree, hR, -⟩ := wrap_shows hA r o host
    rw [hroot, host?_of_shows hR, htree, Tree.host_ofHost]
  · intro p n hp
    obtain ⟨parent, key, P, rfl, hP, hat, hwalk⟩ := wrap_live hA r o host hp
    obtain ⟨m, -, hm⟩ :=
      Tree.exists_ofHost_of_at? (P := fun _ => True) (fun _ _ _ => trivial) trivial hat
    exact ⟨arranged_of_shows hP hm.symm hp, hwalk⟩

/-- The second element named "x" takes the place of the first one, whose cells the elements after it
come to lie in. -/
def reusingHost : Node :=
  .element "record" ∅
    [.element "array" (.ofPairs [("_name", "x")]) [.element "b" ∅ [], .text "a"],
     .text " ",
     .element "text" (.ofPairs [("_name", "x")]) [.text "b"],
     .element "i" ∅ [.element "i" ∅ []]]

theorem wrap_arranged_reusing :
    let A := Cells.arena (Entry CellId)
    let w := A.wrap Registry.builtins {} reusingHost
    A.Lawful ∧ A.host? w.2 w.1 = some reusingHost ∧
      A.walk w.2 w.1 [.position 0] = some ⟨1, 1⟩ ∧ ∃ n, A.slot? w.2 ⟨1, 1⟩ = some n ∧
        (∃ positional named, A.Arranged {} w.2 ⟨1, 1⟩ n positional named) ∧
        ∀ q, A.walk w.2 w.1 q = some ⟨1, 1⟩ ↔ q = n.data.path := by
  intro A w
  have hA : A.Lawful := Cells.lawful_arena _
  have hlive : (A.slot? w.2 ⟨1, 1⟩).isSome := by decide +kernel
  obtain ⟨n, hn⟩ := Option.isSome_iff_exists.mp hlive
  obtain ⟨hroot, harranged⟩ := wrap_arranged hA Registry.builtins {} reusingHost
  exact ⟨hA, hroot, by decide +kernel, n, hn, harranged _ n hn⟩

end Arena
end MarkupEval
