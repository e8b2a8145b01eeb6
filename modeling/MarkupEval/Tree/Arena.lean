import MarkupEval.Tree.Basic

/-! # Trees in an arena

A host is wrapped node by node in an arena, which hands out the ids of the nodes. A node is entered
before its children; each child is built on its own and then appended to it. The last child of a
name takes the place of the one before, which is removed with all that is below it, so that later
nodes may come to lie where it was. -/

namespace MarkupEval

/-- What an arena holds of a live node. -/
structure Slot (Id α : Type) where
  data : α
  parent : Option Id

/-- The operations of an arena whose states are of a type `σ`. -/
structure Arena (σ Id α : Type) where
  empty : σ
  /-- The slot of a node, if the node is live. -/
  slot? : σ → Id → Option (Slot Id α)
  newNode : α → StateM σ Id
  update : Id → (α → α) → StateM σ Unit
  /-- Puts the second node below the first one. -/
  append : Id → Id → StateM σ Unit
  /-- Removes a node and everything below it. -/
  removeSubtree : Id → StateM σ Unit

/-- What is recorded of a node. -/
structure Entry (Id : Type) where
  host : Node
  /-- The tag in lower case, which a text does not have. -/
  tag : Option String
  name : Option String
  /-- The key in the parent, which the root does not have. -/
  key : Option Key
  path : Path
  kind : Kind
  subtrees : List (Key × Id) := []

namespace Entry

variable {Id : Type}

/-- The entry of a node whose children are still to be built. -/
def ofHost (r : Registry) (o : Options) (host : Node) (key : Option Key) (path : Path) : Entry Id :=
  let tag := host.tag?.map Text.lower
  { host, tag, key, path
    name := match key with
      | some k => k.name?
      | none => Tree.declaredName o host.attributes
    kind := match tag with
      | some tag => Tree.classify r tag
      | none => .text }

end Entry

namespace Arena

variable {σ Id : Type}

/-- Removes the node that another one has replaced, if there is one. -/
def discard (A : Arena σ Id (Entry Id)) : Option Id → StateM σ Unit
  | some i => A.removeSubtree i
  | none => pure ()

mutual

/-- Builds the tree of a host; the answer is its root. -/
def build (A : Arena σ Id (Entry Id)) (r : Registry) (o : Options) :
    Node → Option Key → Path → StateM σ Id
  | .text s, key, path => A.newNode (.ofHost r o (.text s) key path)
  | .element tag attrs children, key, path => do
    let id ← A.newNode (.ofHost r o (.element tag attrs children) key path)
    let subtrees ← buildChildren A r o id path (children.any Node.isElement) children [] []
    A.update id fun e => { e with subtrees }
    return id

/-- Builds children below a node, after those that are listed already. -/
def buildChildren (A : Arena σ Id (Entry Id)) (r : Registry) (o : Options) (parent : Id)
    (path : Path) (hasElement : Bool) :
    List Node → List (Key × Id) → List (Key × Id) → StateM σ (List (Key × Id))
  | [], positional, named => return positional ++ named
  | n :: ns, positional, named =>
    if hasElement && n.isLayout then
      buildChildren A r o parent path hasElement ns positional named
    else
      match Tree.declaredName o n.attributes with
      | none => do
        let key := .position positional.length
        let id ← build A r o n (some key) (path ++ [key])
        A.append parent id
        buildChildren A r o parent path hasElement ns (positional ++ [(key, id)]) named
      | some s => do
        let key := .name s
        let id ← build A r o n (some key) (path ++ [key])
        A.append parent id
        A.discard (Assoc.get? key named)
        buildChildren A r o parent path hasElement ns positional (Assoc.insert key id named)

end

/-- Builds a host in a new arena. -/
def wrap (A : Arena σ Id (Entry Id)) (r : Registry) (o : Options) (host : Node) : Id × σ :=
  (build A r o host none []).run A.empty

/-- The node that a path of keys leads to from a node. -/
def walk (A : Arena σ Id (Entry Id)) (s : σ) : Id → Path → Option Id
  | i, [] => some i
  | i, k :: p =>
    (A.slot? s i).bind fun n => (Assoc.get? k n.data.subtrees).bind fun c => walk A s c p

end Arena

/-! ## An arena of cells -/

/-- A cell, and which of the nodes that it has held. -/
@[ext] structure CellId where
  index : Nat
  stamp : Nat
deriving DecidableEq

/-- A place for one node after the other; the stamp counts them. -/
structure Cell (α : Type) where
  stamp : Nat
  slot : Option (Slot CellId α)

abbrev Cells (α : Type) := List (Cell α)

namespace Cells

variable {α : Type}

def slot? (cs : Cells α) (i : CellId) : Option (Slot CellId α) :=
  match cs[i.index]? with
  | some c => if c.stamp = i.stamp then c.slot else none
  | none => none

/-- Takes the first cell that is free, or else a new one. -/
def newNode (a : α) (cs : Cells α) : CellId × Cells α :=
  let index := cs.findIdx fun c => c.slot.isNone
  match cs[index]? with
  | some c => (⟨index, c.stamp + 1⟩, cs.set index ⟨c.stamp + 1, some ⟨a, none⟩⟩)
  | none => (⟨index, 0⟩, cs ++ [⟨0, some ⟨a, none⟩⟩])

/-- Changes the slot of a node. -/
def change (i : CellId) (f : Slot CellId α → Slot CellId α) (cs : Cells α) : Cells α :=
  cs.modify i.index fun c => if c.stamp = i.stamp then { c with slot := c.slot.map f } else c

/-- The ancestor so many steps up. -/
def ancestor? (cs : Cells α) : Nat → CellId → Option CellId
  | 0, i => some i
  | m + 1, i => ((cs.slot? i).bind Slot.parent).bind (ancestor? cs m)

/-- Whether the second node is the first one or below it. No line of ancestors passes more nodes
than there are cells. -/
def isBelow (cs : Cells α) (i j : CellId) : Bool :=
  (List.range (cs.length + 1)).any fun m => cs.ancestor? m j = some i

/-- Frees the cells of a node and of everything below it. -/
def removeSubtree (i : CellId) (cs : Cells α) : Cells α :=
  cs.mapIdx fun index c => if cs.isBelow i ⟨index, c.stamp⟩ then { c with slot := none } else c

/-- An arena that uses the cells of removed nodes again. -/
def arena (α : Type) : Arena (Cells α) CellId α where
  empty := []
  slot? := slot?
  newNode a := fun cs => cs.newNode a
  update i f := modify fun cs => cs.change i fun n => { n with data := f n.data }
  append p i := modify fun cs => cs.change i fun n => { n with parent := some p }
  removeSubtree i := modify fun cs => cs.removeSubtree i

end Cells
end MarkupEval
