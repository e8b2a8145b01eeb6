import MarkupEval.Transformer.Registry
import MarkupEval.Tree.Key

/-! # Trees

A host tree wrapped for evaluation: each node has a kind and its children under keys. Children that
carry the reserved name attribute are named, the others have positions; the positional ones come
first. Text of blanks next to an element is layout and is left out, and of children with one name
the last one counts, at the place of the first. -/

namespace MarkupEval

structure Options where
  /-- The attribute that gives a child its name. -/
  nameAttribute : String := "_name"
  /-- Whether an evaluation fails with the first problem that it meets. -/
  strict : Bool := false

inductive Tree
  | node (host : Node) (name : Option String) (kind : Kind) (subtrees : List (Key × Tree))

namespace Tree

def host : Tree → Node
  | .node host _ _ _ => host

/-- The name that the host declares, if it declares one. -/
def name : Tree → Option String
  | .node _ name _ _ => name

def kind : Tree → Kind
  | .node _ _ kind _ => kind

def subtrees : Tree → List (Key × Tree)
  | .node _ _ _ subtrees => subtrees

/-! ## Wrapping -/

/-- Typer tags come first, then registered ones; any other tag is an element. -/
def classify (r : Registry) (tag : String) : Kind :=
  match Kind.ofTyperTag? tag with
  | some k => k
  | none => if r.contains tag then .transformer else .element

/-- The name that attributes declare; an empty one does not count. -/
def declaredName (o : Options) (attrs : Attributes) : Option String :=
  (attrs.get? o.nameAttribute).filter fun s => !s.isEmpty

/-- The children without a name, under their positions. -/
def positional (ts : List Tree) : List (Key × Tree) :=
  (ts.filter fun t => t.name.isNone).mapIdx fun i t => (.position i, t)

/-- The children with a name, by first declaration, the last one of each name. -/
def named (ts : List Tree) : List (Key × Tree) :=
  Assoc.ofPairs (ts.filterMap fun t => t.name.map fun s => (.name s, t))

/-- Puts wrapped children under their keys. -/
def arrange (ts : List Tree) : List (Key × Tree) :=
  let kept := if ts.any fun t => t.host.isElement then ts.filter fun t => !t.host.isLayout else ts
  positional kept ++ named kept

mutual

def ofHost (r : Registry) (o : Options) : Node → Tree
  | .text s => .node (.text s) none .text []
  | .element tag attrs children =>
    .node (.element tag attrs children) (declaredName o attrs) (classify r (Text.lower tag))
      (arrange (ofHosts r o children))

def ofHosts (r : Registry) (o : Options) : List Node → List Tree
  | [] => []
  | n :: ns => ofHost r o n :: ofHosts r o ns

end

/-! ## Nodes -/

def child? (t : Tree) (k : Key) : Option Tree := Assoc.get? k t.subtrees

/-- The node at a path. -/
def at? : Tree → Path → Option Tree
  | t, [] => some t
  | t, k :: p => (t.child? k).bind fun c => c.at? p

mutual

/-- All nodes with their paths, a parent before its children. -/
def nodesFrom (path : Path) : Tree → List (Path × Tree)
  | .node host name kind subtrees =>
    (path, .node host name kind subtrees) :: subtreeNodesFrom path subtrees

def subtreeNodesFrom (path : Path) : List (Key × Tree) → List (Path × Tree)
  | [] => []
  | (k, t) :: r => nodesFrom (path ++ [k]) t ++ subtreeNodesFrom path r

end

def nodes (t : Tree) : List (Path × Tree) := nodesFrom [] t

/-- The child that a segment of a path text leads to. -/
def follow (t : Tree) (segment : String) : Option (Key × Tree) :=
  (Path.candidates segment).findSome? fun k => (t.child? k).map fun c => (k, c)

/-- Follows segments from a node whose path is given. -/
def resolveFrom (path : Path) (t : Tree) : List String → Option (Path × Tree)
  | [] => some (path, t)
  | s :: ss =>
    match t.follow s with
    | some (k, c) => resolveFrom (path ++ [k]) c ss
    | none => none

/-- The node that a path text leads to, with its path. -/
def resolve (t : Tree) (text : String) : Option (Path × Tree) :=
  resolveFrom [] t (Path.segments text)

end Tree
end MarkupEval
