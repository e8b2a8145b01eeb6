import Mathlib.Logic.Relation
import MarkupEval.Proofs.Tree.Paths

/-!
# Layout of a host

A host may be laid out in many ways: blanks between elements can come and go, and named children can
move among the others (`LayoutEdit`). Wrapping looks at the children of an element only to tell
whether there is an element among them, and arranges those that count by position and by name. So
all layouts of a host give one tree, up to the children that its nodes still have in their hosts
(`bare_ofHost_of_layoutEdits`). The paths of the tree are told by what is left (`nodes_bare`,
`resolve_bare`).
-/

namespace MarkupEval

open Relation

namespace Node

/-- A node without what is below it. -/
def bare : Node → Node
  | .text s => .text s
  | .element tag attrs _ => .element tag attrs []

@[simp] theorem tag?_bare (n : Node) : n.bare.tag? = n.tag? := by cases n <;> rfl

@[simp] theorem text?_bare (n : Node) : n.bare.text? = n.text? := by cases n <;> rfl

@[simp] theorem attributes_bare (n : Node) : n.bare.attributes = n.attributes := by
  cases n <;> rfl

@[simp] theorem isElement_bare (n : Node) : n.bare.isElement = n.isElement := by cases n <;> rfl

@[simp] theorem isLayout_bare (n : Node) : n.bare.isLayout = n.isLayout := by cases n <;> rfl

end Node

/-! ## Edits of the layout -/

/-- Whether a child is known by its name: an element with a name attribute that is not empty. -/
def Node.isNamed (o : Options) (n : Node) : Bool := (Tree.declaredName o n.attributes).isSome

/-- One edit of the layout, at any depth. -/
inductive LayoutEdit (o : Options) : Node → Node → Prop
  /-- Blanks come next to an element. -/
  | insert {tag attrs before after s} (hs : Text.isLayout s = true)
    (helement : (before ++ after).any Node.isElement = true) :
    LayoutEdit o (.element tag attrs (before ++ after))
      (.element tag attrs (before ++ .text s :: after))
  /-- Blanks next to an element go. -/
  | delete {tag attrs before after s} (hs : Text.isLayout s = true)
    (helement : (before ++ after).any Node.isElement = true) :
    LayoutEdit o (.element tag attrs (before ++ .text s :: after))
      (.element tag attrs (before ++ after))
  /-- Named children and the others keep their order, each group for itself. -/
  | move {tag attrs children children'}
    (hnamed : children.filter (Node.isNamed o) = children'.filter (Node.isNamed o))
    (hothers : children.filter (fun n => !n.isNamed o) = children'.filter fun n => !n.isNamed o) :
    LayoutEdit o (.element tag attrs children) (.element tag attrs children')
  | inside {tag attrs before n n' after} (h : LayoutEdit o n n') :
    LayoutEdit o (.element tag attrs (before ++ n :: after))
      (.element tag attrs (before ++ n' :: after))

namespace Assoc

variable {α β γ : Type} [DecidableEq α]

theorem ofPairs_map (f : β → γ) (ps : List (α × β)) :
    ofPairs (ps.map fun e => (e.1, f e.2)) = (ofPairs ps).map fun e => (e.1, f e.2) := by
  suffices ∀ es : List (α × β),
      (ps.map fun e => (e.1, f e.2)).foldl (fun es p => insert p.1 p.2 es)
        (es.map fun e => (e.1, f e.2)) =
      (ps.foldl (fun es p => insert p.1 p.2 es) es).map fun e => (e.1, f e.2) from this []
  induction ps with
  | nil => exact fun _ => rfl
  | cons p ps ih =>
    intro es
    rw [List.map_cons, List.foldl_cons, List.foldl_cons]
    dsimp only
    rw [insert_map, ih]

end Assoc

namespace Tree

/-! ## Trees without the children of their hosts -/

mutual

/-- A tree of which every host has been made bare. -/
def bare : Tree → Tree
  | .node host name kind subtrees => .node host.bare name kind (bareSubtrees subtrees)

def bareSubtrees : List (Key × Tree) → List (Key × Tree)
  | [] => []
  | (k, t) :: r => (k, t.bare) :: bareSubtrees r

end

theorem bareSubtrees_eq_map (es : List (Key × Tree)) :
    bareSubtrees es = es.map fun e => (e.1, e.2.bare) := by
  induction es with
  | nil => rfl
  | cons e es ih => rw [bareSubtrees, ih, List.map_cons]

@[simp] theorem host_bare (t : Tree) : t.bare.host = t.host.bare := by
  cases t
  rfl

@[simp] theorem name_bare (t : Tree) : t.bare.name = t.name := by
  cases t
  rfl

@[simp] theorem kind_bare (t : Tree) : t.bare.kind = t.kind := by
  cases t
  rfl

theorem subtrees_bare (t : Tree) : t.bare.subtrees = t.subtrees.map fun e => (e.1, e.2.bare) := by
  cases t
  exact bareSubtrees_eq_map _

theorem keys_subtrees_bare (t : Tree) : Assoc.keys t.bare.subtrees = Assoc.keys t.subtrees := by
  simp [subtrees_bare, Assoc.keys]

/-! ## Arranging -/

variable {ts ts' : List Tree}

theorem positional_map_bare (ts : List Tree) :
    positional (ts.map bare) = (positional ts).map fun e => (e.1, e.2.bare) := by
  refine List.ext_getElem ?_ fun i _ _ => ?_
  · simp [positional, List.filter_map, Function.comp_def]
  · simp [positional, List.filter_map, Function.comp_def]

theorem named_map_bare (ts : List Tree) :
    named (ts.map bare) = (named ts).map fun e => (e.1, e.2.bare) := by
  rw [named, named, ← Assoc.ofPairs_map, List.filterMap_map, List.map_filterMap]
  simp [Function.comp_def, Option.map_map]

theorem arrange_map_bare (ts : List Tree) :
    arrange (ts.map bare) = (arrange ts).map fun e => (e.1, e.2.bare) := by
  have hany : (ts.map bare).any (fun t => t.host.isElement) = ts.any fun t => t.host.isElement := by
    simp [List.any_map, Function.comp_def]
  have hfilter : (ts.map bare).filter (fun t => !t.host.isLayout) =
      (ts.filter fun t => !t.host.isLayout).map bare := by
    simp [List.filter_map, Function.comp_def]
  simp only [arrange, hany, hfilter]
  split
  · rw [positional_map_bare, named_map_bare, List.map_append]
  · rw [positional_map_bare, named_map_bare, List.map_append]

/-- Only the children without a name have positions. -/
theorem positional_eq_of_filter
    (h : ts.filter (fun t => t.name.isNone) = ts'.filter fun t => t.name.isNone) :
    positional ts = positional ts' := by
  rw [positional, positional, h]

theorem named_eq_of_filter
    (h : ts.filter (fun t => t.name.isSome) = ts'.filter fun t => t.name.isSome) :
    named ts = named ts' := by
  have hnames : ∀ ts : List Tree, ts.filterMap (fun t => t.name.map fun s => (Key.name s, t)) =
      (ts.filter fun t => t.name.isSome).filterMap
        fun t => t.name.map fun s => (Key.name s, t) := by
    intro ts
    rw [List.filterMap_filter]
    refine List.filterMap_congr fun t _ => ?_
    cases t.name <;> rfl
  rw [named, named, hnames ts, hnames ts', h]

/-- Two lists with the same named and the same other members are arranged in the same way. -/
theorem arrange_eq_of_filters
    (hothers : ts.filter (fun t => t.name.isNone) = ts'.filter fun t => t.name.isNone)
    (hnamed : ts.filter (fun t => t.name.isSome) = ts'.filter fun t => t.name.isSome) :
    arrange ts = arrange ts' := by
  have hmem : ∀ t, t ∈ ts ↔ t ∈ ts' := by
    intro t
    have h := congrArg (t ∈ ·) hothers
    have h' := congrArg (t ∈ ·) hnamed
    simp only [List.mem_filter, eq_iff_iff] at h h'
    cases hname : t.name <;> simp_all
  have hany : ts.any (fun t => t.host.isElement) = ts'.any fun t => t.host.isElement := by
    rw [Bool.eq_iff_iff, List.any_eq_true, List.any_eq_true]
    exact exists_congr fun t => and_congr_left' (hmem t)
  -- What counts is a part of both lists, and taking it goes through the groups.
  have hcount : ∀ q p : Tree → Bool, ts.filter p = ts'.filter p →
      (ts.filter q).filter p = (ts'.filter q).filter p := by
    intro q p h
    rw [List.filter_comm, h, List.filter_comm]
  simp only [arrange, hany]
  split
  · rw [positional_eq_of_filter (hcount _ _ hothers), named_eq_of_filter (hcount _ _ hnamed)]
  · rw [positional_eq_of_filter hothers, named_eq_of_filter hnamed]

/-- Blanks next to an element are left out. -/
theorem arrange_layout {before after : List Tree} {t : Tree} (ht : t.host.isLayout = true)
    (helement : (before ++ after).any (fun t => t.host.isElement) = true) :
    arrange (before ++ t :: after) = arrange (before ++ after) := by
  have hany : (before ++ t :: after).any (fun t => t.host.isElement) = true := by
    rw [List.any_append, List.any_cons]
    rw [List.any_append, Bool.or_eq_true] at helement
    rcases helement with h | h <;> simp [h]
  simp [arrange, hany, helement, List.filter_append, ht]

/-! ## Wrapping a host in another layout -/

variable {r : Registry} {o : Options}

theorem bare_ofHost_element (tag : String) (attrs : Attributes) (children : List Node) :
    (ofHost r o (.element tag attrs children)).bare =
      .node (.element tag attrs []) (declaredName o attrs) (classify r (Text.lower tag))
        (arrange (children.map fun n => (ofHost r o n).bare)) := by
  rw [ofHost, bare, bareSubtrees_eq_map, ← arrange_map_bare, ofHosts_eq_map, List.map_map]
  rfl

theorem name_bare_ofHost (n : Node) :
    (ofHost r o n).bare.name = declaredName o n.attributes := by
  rw [name_bare, name_ofHost]

theorem host_bare_ofHost (n : Node) : (ofHost r o n).bare.host = n.bare := by
  rw [host_bare, host_ofHost]

/-- An edit of the layout does not show in the tree. -/
theorem bare_ofHost_of_layoutEdit {h h' : Node} (hedit : LayoutEdit o h h') :
    (ofHost r o h).bare = (ofHost r o h').bare := by
  have hlayout : ∀ {before after : List Node} {s : String}, Text.isLayout s = true →
      (before ++ after).any Node.isElement = true →
      arrange ((before ++ .text s :: after).map fun n => (ofHost r o n).bare) =
        arrange ((before ++ after).map fun n => (ofHost r o n).bare) := by
    intro before after s hs helement
    rw [List.map_append, List.map_cons, List.map_append]
    refine arrange_layout ?_ ?_
    · rw [host_bare_ofHost]
      exact hs
    · rw [← List.map_append, List.any_map]
      simpa [Function.comp_def, host_ofHost] using helement
  induction hedit with
  | insert hs helement => rw [bare_ofHost_element, bare_ofHost_element, hlayout hs helement]
  | delete hs helement => rw [bare_ofHost_element, bare_ofHost_element, hlayout hs helement]
  | move hnamed hothers =>
    rw [bare_ofHost_element, bare_ofHost_element]
    congr 1
    refine arrange_eq_of_filters ?_ ?_
    · have hnone : ∀ n : Node, (declaredName o n.attributes).isNone = !n.isNamed o := by
        intro n
        rw [Node.isNamed, Option.not_isSome]
      simp only [List.filter_map, Function.comp_def, name_bare_ofHost, hnone, hothers]
    · simp only [List.filter_map, Function.comp_def, name_bare_ofHost]
      exact congrArg (List.map _) hnamed
  | inside _ ih => simp only [bare_ofHost_element, List.map_append, List.map_cons, ih]

theorem bare_ofHost_of_layoutEdits {h h' : Node} (hedits : ReflTransGen (LayoutEdit o) h h') :
    (ofHost r o h).bare = (ofHost r o h').bare := by
  induction hedits with
  | refl => rfl
  | tail _ hedit ih => exact ih.trans (bare_ofHost_of_layoutEdit hedit)

/-! ## Paths -/

theorem child?_bare (t : Tree) (k : Key) : t.bare.child? k = (t.child? k).map bare := by
  rw [child?, subtrees_bare, Assoc.get?_map]
  rfl

theorem at?_bare (t : Tree) (p : Path) : t.bare.at? p = (t.at? p).map bare := by
  induction p generalizing t with
  | nil => rfl
  | cons k p ih =>
    rw [at?, at?, child?_bare, Option.bind_map, Option.map_bind]
    exact Option.bind_congr fun c _ => ih c

mutual

theorem nodesFrom_bare (p : Path) :
    ∀ t : Tree, nodesFrom p t.bare = (nodesFrom p t).map fun e => (e.1, e.2.bare)
  | .node host name kind subtrees => by
    rw [bare, nodesFrom, nodesFrom, subtreeNodesFrom_bare p subtrees, List.map_cons, bare]

theorem subtreeNodesFrom_bare (p : Path) : ∀ es : List (Key × Tree),
    subtreeNodesFrom p (bareSubtrees es) = (subtreeNodesFrom p es).map fun e => (e.1, e.2.bare)
  | [] => rfl
  | (k, t) :: es => by
    rw [bareSubtrees, subtreeNodesFrom, subtreeNodesFrom, nodesFrom_bare (p ++ [k]) t,
      subtreeNodesFrom_bare p es, List.map_append]

end

theorem nodes_bare (t : Tree) : t.bare.nodes = t.nodes.map fun e => (e.1, e.2.bare) :=
  nodesFrom_bare [] t

theorem follow_bare (t : Tree) (segment : String) :
    t.bare.follow segment = (t.follow segment).map fun e => (e.1, e.2.bare) := by
  rw [follow, follow]
  induction Path.candidates segment with
  | nil => rfl
  | cons k ks ih =>
    rw [List.findSome?_cons, List.findSome?_cons, child?_bare]
    cases t.child? k with
    | none => exact ih
    | some c => rfl

theorem resolveFrom_bare (p : Path) (t : Tree) (segments : List String) :
    resolveFrom p t.bare segments = (resolveFrom p t segments).map fun e => (e.1, e.2.bare) := by
  induction segments generalizing p t with
  | nil => rfl
  | cons s ss ih =>
    rw [resolveFrom, resolveFrom, follow_bare]
    cases t.follow s with
    | none => rfl
    | some e => exact ih (p ++ [e.1]) e.2

theorem resolve_bare (t : Tree) (text : String) :
    t.bare.resolve text = (t.resolve text).map fun e => (e.1, e.2.bare) :=
  resolveFrom_bare [] t _

end Tree
end MarkupEval
