import MarkupEval.Tree.Basic
import MarkupEval.Tree.Store

/-! # Evaluation

The value of a node is a seed into which the values of its children are merged one after the other,
and the cast of its kind. References look values up in the middle of this, so that a node may be
reached again while it is being computed; it then counts as null, and a problem is recorded.

Results are stored unless they hold a transformer; in strict mode only those that were computed
without a problem. The recursion is bounded by the number of nodes: each nested computation is that
of another node. -/

namespace MarkupEval

/-- A wrapped tree with what its evaluation depends on. -/
structure Document where
  root : Tree
  registry : Registry
  options : Options

namespace Document

def ofHost (registry : Registry) (options : Options) (host : Node) : Document :=
  ⟨.ofHost registry options host, registry, options⟩

/-- The kinds whose seed gives way when the first child brings markup. -/
def hasScalarSeed : Kind → Bool
  | .null | .boolean | .number | .string | .text => true
  | _ => false

/-- What a fold starts from. The seed of a text node is its text. -/
def seed (t : Tree) : Value :=
  match t.kind with
  | .null => .null
  | .boolean => .boolean false
  | .number => .number (.zero false)
  | .string => .string ""
  | .text => .text (t.host.text?.getD "")
  | .element | .nodes => .nodes []
  | .array | .transformer => .array []
  | .record => .record []

/-- A fresh copy of the host element around new content, without the name attribute. -/
def rewrap (o : Options) (host : Node) (content : Value) : Element :=
  ⟨host.tag?.getD "", host.attributes.erase o.nameAttribute, content.nodesOf⟩

/-- The name of a generated transformer: the key of its node, or the tag at the root. -/
def invocationName (path : Path) (tag : String) : String :=
  match path.getLast? with
  | some k => k.text
  | none => tag

/-- The items of an array are the arguments; anything else is one argument. -/
def argumentsOf : Value → List Value
  | .array items => items
  | v => [v]

/-- The transformer of a transformer node, which takes what was accumulated as its arguments. -/
def generate (r : Registry) (path : Path) (host : Node) (content : Value) : Value :=
  let tag := Text.lower (host.tag?.getD "")
  match r.get? tag with
  | some op => .transformer (invocationName path tag) (argumentsOf content) op
  | none => .null

/-- The cast that a node ends with. -/
def finish (d : Document) (path : Path) (t : Tree) (content : Value) : Value :=
  match t.kind with
  | .element => .element (rewrap d.options t.host content)
  | .transformer => generate d.registry path t.host content
  | k => (content.castTo? k).getD content

/-- The hooks of a transformer that the node at a path invokes. -/
def hooks (d : Document) (valueOf : Path → Tree → StateM Store Value) (origin : Path) :
    Hooks Store where
  resolve target := do
    match d.root.resolve target with
    | some (p, t) => return some (← valueOf p t)
    | none =>
      modify (Store.record (.unresolved origin target))
      return none
  report e := modify (Store.record (.transformer origin e))

/-- Merges the values of children into an accumulator. `yields` says that the accumulator is a seed
that gives way to markup. -/
def foldChildren (valueOf : Path → Tree → StateM Store Value) (hooks : Hooks Store) (path : Path) :
    Bool → List (Key × Tree) → Value → StateM Store Value
  | _, [], acc => pure acc
  | yields, (k, t) :: r, acc => do
    let incoming ← valueOf (path ++ [k]) t
    let acc ←
      if yields && incoming.isMarkup then pure incoming else Value.merge hooks acc incoming k
    foldChildren valueOf hooks path false r acc

/-- Computes the value of a node from those of others. -/
def compute (d : Document) (valueOf : Path → Tree → StateM Store Value) (path : Path) (t : Tree) :
    StateM Store Value := do
  let content ←
    foldChildren valueOf (d.hooks valueOf path) path (hasScalarSeed t.kind) t.subtrees (seed t)
  return d.finish path t content

/-- Whether a result may be kept, `before` problems having been recorded when its computation
began. -/
def isKept (d : Document) (t : Tree) (v : Stored) (before after : Nat) : Bool :=
  t.kind != .transformer && (before == after || !d.options.strict) && !v.isOpaque

/-- The value of a node: the stored one, null if it is being computed, or else a new one. `fuel` is
how many nodes at least are not being computed. -/
def valueOf (d : Document) : Nat → Path → Tree → StateM Store Value
  | fuel, path, t => do
    let s ← get
    match Assoc.get? path s.memo with
    | some v => return v.toValue
    | none =>
      if path ∈ s.active then
        modify (Store.record (.cycle path))
        return .null
      else
        match fuel with
        | 0 => return .null
        | fuel + 1 =>
          modify (Store.enter path)
          let v ← d.compute (valueOf d fuel) path t
          modify (Store.leave path)
          let stored := Stored.ofValue v
          if d.isKept t stored s.errors.length (← get).errors.length then
            modify (Store.keep path stored)
          return v

/-- Evaluates a node. In strict mode the first problem is the answer. -/
def evaluateNode (d : Document) (path : Path) (t : Tree) :
    StateM Store (Except EvalError Value) := do
  modify fun s => { s with errors := [] }
  let v ← d.valueOf d.root.nodes.length path t
  match d.options.strict, (← get).errors with
  | true, e :: _ => return .error e
  | _, _ => return .ok v

/-- Evaluates the root. -/
def evaluate (d : Document) : StateM Store (Except EvalError Value) := d.evaluateNode [] d.root

end Document
end MarkupEval
