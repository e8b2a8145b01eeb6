import MarkupEval.Proofs.Evaluation.Memo
import MarkupEval.Proofs.Tree.Layout

/-!
# Evaluation in another layout

Of the host of a node an evaluation reads the tag, the attributes and, for a text, the content. What
is below it is read from the subtrees. So an evaluation is the same computation on the tree of which
the hosts have been made bare (`evaluateNode_bare`), and as that is the same tree for all layouts of
a host, the layout does not show in results or in problems (`evaluateNode_layout`).
-/

namespace MarkupEval

open Relation

namespace Document

variable {d : Document}

/-- A document of which every host has been made bare. -/
def bare (d : Document) : Document := { d with root := d.root.bare }

/-! ## Computing a node -/

theorem seed_bare (t : Tree) : seed t.bare = seed t := by
  simp [seed]

theorem rewrap_bare (o : Options) (host : Node) (content : Value) :
    rewrap o host.bare content = rewrap o host content := by
  simp [rewrap]

theorem generate_bare (r : Registry) (p : Path) (host : Node) (content : Value) :
    generate r p host.bare content = generate r p host content := by
  simp [generate]

theorem finish_bare (p : Path) (t : Tree) (content : Value) :
    d.bare.finish p t.bare content = d.finish p t content := by
  simp only [finish, Tree.kind_bare, Tree.host_bare, rewrap_bare, generate_bare]
  rfl

variable {f g : Path → Tree → StateM Store Value}

theorem hooks_bare (hcall : ∀ p t, f p t = g p t.bare) (origin : Path) :
    d.hooks f origin = d.bare.hooks g origin := by
  have hresolve : ∀ target, (d.hooks f origin).resolve target =
      (d.bare.hooks g origin).resolve target := by
    intro target
    have hbare : d.bare.root.resolve target =
        (d.root.resolve target).map fun e => (e.1, e.2.bare) := Tree.resolve_bare d.root target
    simp only [hooks, hbare]
    cases d.root.resolve target with
    | none => rfl
    | some found => simp only [Option.map_some, hcall]
  simp only [hooks, Hooks.mk.injEq, and_true]
  exact funext hresolve

theorem foldChildren_bare (hcall : ∀ p t, f p t = g p t.bare) (hooks : Hooks Store) (p : Path)
    (yields : Bool) (children : List (Key × Tree)) (acc : Value) :
    foldChildren f hooks p yields children acc =
      foldChildren g hooks p yields (children.map fun e => (e.1, e.2.bare)) acc := by
  induction children generalizing yields acc with
  | nil => rfl
  | cons e rest ih =>
    obtain ⟨k, t⟩ := e
    rw [List.map_cons, foldChildren_cons, foldChildren_cons, hcall, funext (ih false)]

theorem compute_bare (hcall : ∀ p t, f p t = g p t.bare) (p : Path) (t : Tree) :
    d.compute f p t = d.bare.compute g p t.bare := by
  simp only [compute, Tree.kind_bare, seed_bare, Tree.subtrees_bare, finish_bare,
    ← hooks_bare hcall, ← foldChildren_bare hcall]

/-! ## Evaluating a node -/

theorem isKept_bare (t : Tree) (v : Stored) (before after : Nat) :
    d.bare.isKept t.bare v before after = d.isKept t v before after := by
  simp only [isKept, Tree.kind_bare]
  rfl

/-- The value of a node does not depend on what its hosts have below them. -/
theorem valueOf_bare (fuel : Nat) (p : Path) (t : Tree) :
    d.valueOf fuel p t = d.bare.valueOf fuel p t.bare := by
  induction fuel generalizing p t with
  | zero =>
    unfold valueOf
    rfl
  | succ n ih =>
    unfold valueOf
    simp only [compute_bare ih, isKept_bare]

theorem evaluateNode_bare (p : Path) (t : Tree) :
    d.evaluateNode p t = d.bare.evaluateNode p t.bare := by
  have hlength : d.bare.root.nodes.length = d.root.nodes.length := by
    change d.root.bare.nodes.length = _
    rw [Tree.nodes_bare, List.length_map]
  unfold evaluateNode
  rw [hlength, ← valueOf_bare]
  rfl

/-- A host in two layouts gives trees with the same paths and, at each path, the same keys, and
evaluating a node is the same computation: from every store, and so from that of a fresh tree, it
has the same answer and leaves the same problems. -/
theorem evaluateNode_layout (r : Registry) (o : Options) {h h' : Node}
    (hedits : ReflTransGen (LayoutEdit o) h h') :
    let d := ofHost r o h
    let d' := ofHost r o h'
    d.root.nodes.map Prod.fst = d'.root.nodes.map Prod.fst ∧
      ∀ p t, d.root.at? p = some t → ∃ t', d'.root.at? p = some t' ∧
        Assoc.keys t.subtrees = Assoc.keys t'.subtrees ∧
        d.evaluateNode p t = d'.evaluateNode p t' := by
  intro d d'
  have hroot : d.root.bare = d'.root.bare := Tree.bare_ofHost_of_layoutEdits hedits
  have hdoc : d.bare = d'.bare := congrArg (fun root => Document.mk root r o) hroot
  constructor
  · have hpaths : ∀ t : Tree, t.nodes.map Prod.fst = t.bare.nodes.map Prod.fst := by
      intro t
      rw [Tree.nodes_bare, List.map_map]
      rfl
    rw [hpaths, hroot, ← hpaths]
  · intro p t ht
    have hat : d'.root.bare.at? p = some t.bare := by
      rw [← hroot, Tree.at?_bare, ht]
      rfl
    rw [Tree.at?_bare] at hat
    obtain ⟨t', ht', hbare⟩ := Option.map_eq_some_iff.mp hat
    refine ⟨t', ht', ?_, ?_⟩
    · rw [← Tree.keys_subtrees_bare, ← hbare, Tree.keys_subtrees_bare]
    · rw [evaluateNode_bare p t, evaluateNode_bare p t', hdoc, hbare]

/-- An array that reads a number next to it, with blanks before the reference and a named child. -/
def spacedHost : Node :=
  .element "record" ∅
    [.element "number" (.ofPairs [("_name", "n")]) [.text "4"],
     .element "array" (.ofPairs [("_name", "a")])
      [.text " ", .element "ref" ∅ [.text "/n"], .element "p" (.ofPairs [("_name", "x")]) []]]

/-- The same with a line break inside the record, no blanks in the array and its named child in
front. -/
def compactHost : Node :=
  .element "record" ∅
    [.text "\n", .element "number" (.ofPairs [("_name", "n")]) [.text "4"],
     .element "array" (.ofPairs [("_name", "a")])
      [.element "p" (.ofPairs [("_name", "x")]) [], .element "ref" ∅ [.text "/n"]]]

/-- Three edits, two of them inside the array. -/
theorem evaluateNode_layout_spaced :
    let d := ofHost Registry.builtins { strict := true } spacedHost
    let d' := ofHost Registry.builtins { strict := true } compactHost
    ReflTransGen (LayoutEdit { strict := true }) spacedHost compactHost ∧
      d.root.nodes.map Prod.fst = d'.root.nodes.map Prod.fst ∧
      ∃ t t', d.root.at? [.name "a"] = some t ∧ d'.root.at? [.name "a"] = some t' ∧
        Assoc.keys t.subtrees = Assoc.keys t'.subtrees ∧
        (d.evaluateNode [.name "a"] t).run {} = (d'.evaluateNode [.name "a"] t').run {} := by
  intro d d'
  let o : Options := { strict := true }
  let number : Node := .element "number" (.ofPairs [("_name", "n")]) [.text "4"]
  let ref : Node := .element "ref" ∅ [.text "/n"]
  let entry : Node := .element "p" (.ofPairs [("_name", "x")]) []
  let array (children : List Node) : Node := .element "array" (.ofPairs [("_name", "a")]) children
  have hnames : ref.isNamed o = false ∧ entry.isNamed o = true := by decide +kernel
  have hinsert : LayoutEdit o (.element "record" ∅ ([] ++ [number, array [.text " ", ref, entry]]))
      (.element "record" ∅ ([] ++ .text "\n" :: [number, array [.text " ", ref, entry]])) :=
    .insert (by decide) rfl
  have hdelete : LayoutEdit o (array ([] ++ .text " " :: [ref, entry]))
      (array ([] ++ [ref, entry])) := .delete (by decide) rfl
  have hmove : LayoutEdit o (array [ref, entry]) (array [entry, ref]) :=
    .move (by simp [List.filter, hnames]) (by simp [List.filter, hnames])
  have hinside : ∀ {n n' : Node}, LayoutEdit o n n' →
      LayoutEdit o (.element "record" ∅ ([.text "\n", number] ++ n :: []))
        (.element "record" ∅ ([.text "\n", number] ++ n' :: [])) := fun h => .inside h
  have hedits : ReflTransGen (LayoutEdit o) spacedHost compactHost :=
    ((ReflTransGen.single hinsert).tail (hinside hdelete)).tail (hinside hmove)
  obtain ⟨hpaths, hnodes⟩ := evaluateNode_layout Registry.builtins o hedits
  have hsome : (d.root.at? [.name "a"]).isSome := by decide +kernel
  obtain ⟨t', ht', hkeys, hevaluate⟩ := hnodes [.name "a"] _ (Option.some_get hsome).symm
  refine ⟨hedits, hpaths, _, t', (Option.some_get hsome).symm, ht', hkeys, ?_⟩
  exact congrArg (fun m => m.run {}) hevaluate

end Document
end MarkupEval
