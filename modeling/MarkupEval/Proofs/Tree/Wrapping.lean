import MarkupEval.Proofs.Tree.Arena
import MarkupEval.Proofs.Tree.Paths

/-!
# Wrapping a host in an arena

Whatever the arena, building a host in it adds the wrapped host to it and changes nothing else
(`build_spec`). Children are built in turn: what has grown below their parent are the children seen
so far, arranged (`buildChildren_spec`). When a name comes again, two subtrees stand under it until
the first one is removed (`Lawful.grown_insert`).
-/

namespace MarkupEval
namespace Tree

variable {ts : List Tree} {t : Tree} {s : String}

/-! ## Children in turn -/

/-- The children that count, if one of them all is an element. -/
def kept (hasElement : Bool) (ts : List Tree) : List Tree :=
  ts.filter fun t => !(hasElement && t.host.isLayout)

theorem kept_cons (hasElement : Bool) (t : Tree) (ts : List Tree) :
    kept hasElement (t :: ts) =
      if hasElement && t.host.isLayout then kept hasElement ts else t :: kept hasElement ts := by
  unfold kept
  rw [List.filter_cons]
  cases hasElement && t.host.isLayout <;> rfl

/-- The children of a node that are wrapped. -/
def wrapped (r : Registry) (o : Options) (n : Node) : List Tree :=
  kept (n.children.any Node.isElement) (ofHosts r o n.children)

theorem subtrees_ofHost (r : Registry) (o : Options) (n : Node) :
    (ofHost r o n).subtrees = positional (wrapped r o n) ++ named (wrapped r o n) := by
  cases n with
  | text s => rfl
  | element tag attrs children =>
    have hany : (ofHosts r o children).any (fun t => t.host.isElement) =
        children.any Node.isElement := by
      rw [ofHosts_eq_map, List.any_map]
      exact congrArg children.any (funext fun n => by simp [host_ofHost])
    have hwrapped : wrapped r o (.element tag attrs children) =
        if children.any Node.isElement then
          (ofHosts r o children).filter fun t => !t.host.isLayout
        else ofHosts r o children := by
      unfold wrapped kept
      cases h : children.any Node.isElement <;> simp [Node.children, h]
    rw [hwrapped, ← hany]
    rfl

theorem positional_concat_of_none (h : t.name = none) :
    positional (ts ++ [t]) = positional ts ++ [(.position (positional ts).length, t)] := by
  simp [positional, List.filter_append, h, List.mapIdx_concat]

theorem positional_concat_of_some (h : t.name = some s) :
    positional (ts ++ [t]) = positional ts := by
  simp [positional, List.filter_append, h]

theorem named_concat_of_none (h : t.name = none) : named (ts ++ [t]) = named ts := by
  simp [named, List.filterMap_append, h]

theorem named_concat_of_some (h : t.name = some s) :
    named (ts ++ [t]) = Assoc.insert (.name s) t (named ts) := by
  simp [named, List.filterMap_append, h, Assoc.ofPairs_concat]

end Tree

namespace Entry

variable {Id : Type} {r : Registry} {o : Options} {n : Node} {key : Option Key} {path : Path}

/-- A key holds the name that the node declares. -/
def IsKeyOf (o : Options) (n : Node) : Option Key → Prop
  | none => True
  | some k => k.name? = Tree.declaredName o n.attributes

theorem ofHost_eq (hkey : IsKeyOf o n key) : (ofHost r o n key path : Entry Id) =
    ⟨n, n.tag?.map Text.lower, Tree.declaredName o n.attributes, key, path,
      (Tree.ofHost r o n).kind, []⟩ := by
  cases key with
  | none => cases n <;> rfl
  | some k =>
    have hname : k.name? = Tree.declaredName o n.attributes := hkey
    rw [← hname]
    cases n <;> rfl

end Entry

namespace Arena

open Heap Placed
open scoped List

variable {σ Id : Type} [DecidableEq Id] {A : Arena σ Id (Entry Id)} {h : Heap Id (Entry Id)}
  {p : Id} {path : Path} {subs : List (Key × Placed Id)} {k : Key} {P : Placed Id} {s s' : σ}

/-! ## Steps -/

theorem Lawful.closed_newNode (hA : A.Lawful) (e : Entry Id) (hc : Closed (A.slot? s)) :
    Closed (A.slot? ((A.newNode e).run s).2) := by
  intro i n q hn hq
  rw [hA.newNode] at hn ⊢
  by_cases hqid : q = ((A.newNode e).run s).1
  · simp [hqid]
  · rw [Function.update_of_ne hqid]
    by_cases hid : i = ((A.newNode e).run s).1
    · rw [hid, Function.update_self] at hn
      cases hn
      cases hq
    · rw [Function.update_of_ne hid] at hn
      exact hc hn hq

/-- A child that was built is appended. -/
theorem Lawful.grown_append (hA : A.Lawful) (hc : h.Closed) (hp : h p ≠ none)
    (hg : h.Grown (A.slot? s) p path subs) (hext : Extends (A.slot? s) (A.slot? s') P.ids)
    (hP : Shows (A.slot? s') none (some k) (path ++ [k]) P) :
    h.Grown (A.slot? ((A.append p P.root).run s').2) p path (subs ++ [(k, P)]) := by
  obtain ⟨e, hslot, -⟩ := hP.slot
  have hlive : A.slot? s p ≠ none := by rwa [hg.ext.eq_of_live hp]
  have hlive' : A.slot? s' p ≠ none := by rwa [hext.eq_of_live hlive]
  have hbelow : ¬Below (A.slot? s') P.root p := fun hbelow =>
    hext.notMem hlive (mem_of_below hP.root_mem
      (fun i n q hn hq => hext.mem_of_parent_mem (hg.closed hc hp) hn hq) hbelow)
  rw [hA.append p P.root s' _ hlive' hslot rfl hbelow]
  exact hg.append hext hP hslot

/-- A subtree is removed. -/
theorem Lawful.grown_removeSubtree (hA : A.Lawful) (hc : h.Closed) (hp : h p ≠ none)
    (hg : h.Grown (A.slot? s) p path ((k, P) :: subs)) :
    h.Grown (A.slot? ((A.removeSubtree P.root).run s).2) p path subs := by
  obtain ⟨e, hslot, -⟩ := (hg.shows _ List.mem_cons_self).slot
  have hremove := hA.removeSubtree P.root s (by simp [hslot])
  exact hg.remove hc hp (fun i => (hremove i).1) fun i => (hremove i).2

/-- The new child of a name takes the place of the one before. -/
theorem Lawful.grown_insert (hA : A.Lawful) (hc : h.Closed) (hp : h p ≠ none)
    {named : List (Key × Placed Id)} (hg : h.Grown (A.slot? s) p path (subs ++ named ++ [(k, P)])) :
    h.Grown (A.slot? ((A.discard (Assoc.get? k (roots named))).run s).2) p path
      (subs ++ Assoc.insert k P named) := by
  cases hold : Assoc.get? k named with
  | none =>
    rw [Assoc.insert_eq_append (Assoc.get?_eq_none_iff.mp hold), ← List.append_assoc]
    rw [get?_roots, hold]
    exact hg
  | some R =>
    obtain ⟨rest, hperm, hinsert⟩ := Assoc.exists_perm_of_get? hold
    rw [get?_roots, hold]
    refine hA.grown_removeSubtree hc hp (k := k) (P := R) (hg.perm ?_)
    calc subs ++ named ++ [(k, P)]
      _ ~ (k, P) :: (subs ++ named) := List.perm_append_singleton ..
      _ ~ (k, P) :: (k, R) :: (subs ++ rest) :=
        ((hperm.append_left subs).trans List.perm_middle).cons _
      _ ~ (k, R) :: (k, P) :: (subs ++ rest) := .swap ..
      _ ~ (k, R) :: (subs ++ Assoc.insert k P named) :=
        (((hinsert P).append_left subs).trans List.perm_middle).symm.cons _

/-! ## The whole host -/

/-- A tree has been built: it is new in the arena, and the rest of the arena is as it was. -/
structure Builds (A : Arena σ Id (Entry Id)) (t : Tree) (key : Option Key) (path : Path) (s s' : σ)
    (P : Placed Id) : Prop where
  tree : P.tree = t
  ext : Extends (A.slot? s) (A.slot? s') P.ids
  shows : Shows (A.slot? s') none key path P

section
variable {r : Registry} {o : Options} {hasElement : Bool} {n : Node} {ns : List Node}
  {positional named : List (Key × Id)} {i : Id}

omit [DecidableEq Id] in
theorem run_buildChildren_of_none (hlayout : ¬(hasElement && n.isLayout) = true)
    (hname : Tree.declaredName o n.attributes = none) (hk : k = .position positional.length)
    (hbuild : (A.build r o n (some k) (path ++ [k])).run s = (i, s')) :
    (A.buildChildren r o p path hasElement (n :: ns) positional named).run s =
      (A.buildChildren r o p path hasElement ns (positional ++ [(k, i)]) named).run
        ((A.append p i).run s').2 := by
  subst hk
  simp only [buildChildren, if_neg hlayout, hname, StateT.run_bind, hbuild]
  rfl

omit [DecidableEq Id] in
theorem run_buildChildren_of_some (hlayout : ¬(hasElement && n.isLayout) = true) {name : String}
    (hname : Tree.declaredName o n.attributes = some name) (hk : k = .name name)
    (hbuild : (A.build r o n (some k) (path ++ [k])).run s = (i, s')) :
    (A.buildChildren r o p path hasElement (n :: ns) positional named).run s =
      (A.buildChildren r o p path hasElement ns positional (Assoc.insert k i named)).run
        ((A.discard (Assoc.get? k named)).run ((A.append p i).run s').2).2 := by
  subst hk
  simp only [buildChildren, if_neg hlayout, hname, StateT.run_bind, hbuild]
  rfl

end

/-- A node is complete when its subtrees have been recorded. -/
theorem Lawful.builds_node (hA : A.Lawful) {r : Registry} {o : Options} {n : Node}
    {key : Option Key} {i : Id} {s₀ : σ} (hkey : Entry.IsKeyOf o n key)
    (hnew : (A.newNode (.ofHost r o n key path)).run s₀ = (i, s))
    (hg : Grown (A.slot? s) (A.slot? s') i path subs)
    (hsubs : trees subs = (Tree.ofHost r o n).subtrees) :
    Builds A (Tree.ofHost r o n) key path s₀
      ((A.update i fun e => { e with subtrees := roots subs }).run s').2
      ⟨i, Tree.ofHost r o n, i :: allIds subs⟩ := by
  have hfresh := hA.newNode_fresh (.ofHost r o n key path) s₀
  have hslot := hA.newNode (.ofHost r o n key path) s₀
  rw [hnew] at hfresh hslot
  have hslot' : A.slot? s' i = some ⟨.ofHost r o n key path, none⟩ := by
    rw [hg.ext.eq_of_live (by simp [hslot]), hslot, Function.update_self]
  rw [hslot] at hg
  obtain ⟨hext, hshows⟩ := hg.complete hfresh key n (Tree.declaredName o n.attributes)
    (Tree.ofHost r o n).kind
  have htree : .node n (Tree.declaredName o n.attributes) (Tree.ofHost r o n).kind (trees subs) =
      Tree.ofHost r o n := by
    rw [hsubs]
    cases n <;> rfl
  have hupdate := hA.update i (fun e => { e with subtrees := roots subs }) s' _ hslot'
  rw [Entry.ofHost_eq hkey] at hupdate
  rw [htree] at hshows
  exact ⟨rfl, hupdate ▸ hext, hupdate ▸ hshows⟩

-- By induction on the host. The heap in which a parent was entered stays the same for all of its
-- children, and `Grown` says what each step has added to it.
mutual

theorem build_spec (hA : A.Lawful) (r : Registry) (o : Options) :
    ∀ (n : Node) (key : Option Key) (path : Path) (s : σ), Entry.IsKeyOf o n key →
      Closed (A.slot? s) → ∃ P s', (A.build r o n key path).run s = (P.root, s') ∧
        Builds A (Tree.ofHost r o n) key path s s' P
  | .text t, key, path, s, hkey, hc => by
    obtain ⟨⟨i, s'⟩, hnew⟩ : ∃ w, (A.newNode (.ofHost r o (.text t) key path)).run s = w := ⟨_, rfl⟩
    have hfresh := hA.newNode_fresh (.ofHost r o (.text t) key path) s
    have hslot := hA.newNode (.ofHost r o (.text t) key path) s
    rw [hnew] at hfresh hslot
    refine ⟨⟨i, .node (.text t) none .text [], [i]⟩, s', hnew, rfl, ?_, .node [] ?_ nofun⟩
    · rw [hslot]
      exact .single hfresh
    · rw [hslot, Function.update_self, Entry.ofHost_eq hkey]
      rfl
  | .element tag attrs children, key, path, s, hkey, hc => by
    obtain ⟨⟨i, s₁⟩, hnew⟩ : ∃ w, (A.newNode (.ofHost r o (.element tag attrs children) key
      path)).run s = w := ⟨_, rfl⟩
    have hslot := hA.newNode (.ofHost r o (.element tag attrs children) key path) s
    have hc₁ := hA.closed_newNode (.ofHost r o (.element tag attrs children) key path) hc
    rw [hnew] at hslot hc₁
    obtain ⟨subs, s₂, hrun, hg, hsubs⟩ := buildChildren_spec hA r o hc₁ (p := i) (by simp [hslot])
      path (children.any Node.isElement) children [] [] [] s₁ (.nil ..) rfl rfl
    refine ⟨_, _, ?_, hA.builds_node hkey hnew hg ?_⟩
    · have hbuild : (A.build r o (.element tag attrs children) key path).run s =
          let w := (A.newNode (.ofHost r o (.element tag attrs children) key path)).run s
          let w' := (A.buildChildren r o w.1 path (children.any Node.isElement) children
            (roots []) (roots [])).run w.2
          (w.1, ((A.update w.1 fun e => { e with subtrees := w'.1 }).run w'.2).2) := rfl
      simp only [hbuild, hnew, hrun]
    · rw [hsubs, Tree.subtrees_ofHost, List.nil_append]
      rfl

theorem buildChildren_spec (hA : A.Lawful) (r : Registry) (o : Options)
    {h : Heap Id (Entry Id)} {p : Id} (hc : h.Closed) (hp : h p ≠ none) (path : Path)
    (hasElement : Bool) :
    ∀ (ns : List Node) (seen : List Tree) (positional named : List (Key × Placed Id)) (s : σ),
      h.Grown (A.slot? s) p path (positional ++ named) → trees positional = Tree.positional seen →
      trees named = Tree.named seen → ∃ subs s',
        (A.buildChildren r o p path hasElement ns (roots positional) (roots named)).run s =
          (roots subs, s') ∧
        h.Grown (A.slot? s') p path subs ∧
        trees subs = Tree.positional (seen ++ Tree.kept hasElement (Tree.ofHosts r o ns)) ++
          Tree.named (seen ++ Tree.kept hasElement (Tree.ofHosts r o ns))
  | [], seen, positional, named, s, hg, hpositional, hnamed => by
    refine ⟨positional ++ named, s, ?_, hg, ?_⟩
    · exact congrArg (·, s) List.map_append.symm
    · have hall : seen ++ Tree.kept hasElement (Tree.ofHosts r o []) = seen := List.append_nil seen
      rw [hall, ← hpositional, ← hnamed]
      exact List.map_append
  | n :: ns, seen, positional, named, s, hg, hpositional, hnamed => by
    have hname := Tree.name_ofHost r o n
    rw [Tree.ofHosts, Tree.kept_cons, Tree.host_ofHost]
    by_cases hlayout : (hasElement && n.isLayout) = true
    · rw [if_pos hlayout, buildChildren, if_pos hlayout]
      exact buildChildren_spec hA r o hc hp path hasElement ns seen positional named s hg
        hpositional hnamed
    · rw [if_neg hlayout, List.append_cons]
      cases hdeclared : Tree.declaredName o n.attributes with
      | none =>
        rw [hdeclared] at hname
        obtain ⟨k, hk⟩ : ∃ k : Key, k = .position (roots positional).length := ⟨_, rfl⟩
        have hkey : Entry.IsKeyOf o n (some k) := hk ▸ hdeclared.symm
        obtain ⟨P, s₁, hbuild, hP⟩ :=
          build_spec hA r o n (some k) (path ++ [k]) s hkey (hg.closed hc hp)
        have hg₁ := hA.grown_append hc hp hg hP.ext hP.shows
        have hperm : positional ++ named ++ [(k, P)] ~ positional ++ [(k, P)] ++ named := by
          rw [List.append_assoc, List.append_assoc]
          exact List.perm_append_comm.append_left positional
        have hpositional₁ :
            trees (positional ++ [(k, P)]) = Tree.positional (seen ++ [Tree.ofHost r o n]) := by
          rw [Tree.positional_concat_of_none hname, ← hpositional, ← hP.tree, hk]
          simp [trees, roots]
        have hnamed₁ : trees named = Tree.named (seen ++ [Tree.ofHost r o n]) := by
          rw [Tree.named_concat_of_none hname, hnamed]
        have hroots : roots (positional ++ [(k, P)]) = roots positional ++ [(k, P.root)] :=
          List.map_append
        rw [run_buildChildren_of_none hlayout hdeclared hk hbuild, ← hroots]
        exact buildChildren_spec hA r o hc hp path hasElement ns _ (positional ++ [(k, P)]) named _
          (hg₁.perm hperm) hpositional₁ hnamed₁
      | some name =>
        rw [hdeclared] at hname
        obtain ⟨k, hk⟩ : ∃ k : Key, k = .name name := ⟨_, rfl⟩
        have hkey : Entry.IsKeyOf o n (some k) := hk ▸ hdeclared.symm
        obtain ⟨P, s₁, hbuild, hP⟩ :=
          build_spec hA r o n (some k) (path ++ [k]) s hkey (hg.closed hc hp)
        have hg₁ := hA.grown_insert hc hp (hA.grown_append hc hp hg hP.ext hP.shows)
        have hpositional₁ : trees positional = Tree.positional (seen ++ [Tree.ofHost r o n]) := by
          rw [Tree.positional_concat_of_some hname, hpositional]
        have hnamed₁ : trees (Assoc.insert k P named) =
            Tree.named (seen ++ [Tree.ofHost r o n]) := by
          rw [Tree.named_concat_of_some hname, ← hnamed, ← hP.tree, ← hk]
          exact (Assoc.insert_map Placed.tree ..).symm
        have hroots : roots (Assoc.insert k P named) = Assoc.insert k P.root (roots named) :=
          (Assoc.insert_map Placed.root ..).symm
        rw [run_buildChildren_of_some hlayout hdeclared hk hbuild, ← hroots]
        exact buildChildren_spec hA r o hc hp path hasElement ns _ positional
          (Assoc.insert k P named) _ hg₁ hpositional₁ hnamed₁

end

end Arena
end MarkupEval
