import MarkupEval.Transformer.Error
import MarkupEval.Tree.Key
import MarkupEval.Value.Stored

/-! # The store of an evaluation

What is kept between evaluations of one tree: the stored results by path, the nodes that are being
computed, and the problems of the last evaluation in the order in which they were met. -/

namespace MarkupEval

/-- A problem, at the path of the node whose computation met it. -/
inductive EvalError
  | transformer (path : Path) (source : TagError)
  | unresolved (path : Path) (target : String)
  /-- The node is needed for its own value. -/
  | cycle (path : Path)
deriving DecidableEq, Repr

namespace EvalError

def kind : EvalError → String
  | .transformer .. => "transformer"
  | .unresolved .. => "unresolved"
  | .cycle _ => "cycle"

def message : EvalError → String
  | .transformer path source => path.text ++ ": " ++ source.message
  | .unresolved path target =>
    path.text ++ ": reference `" ++ target ++ "` does not resolve to a node"
  | .cycle path => path.text ++ ": node is already being evaluated (cyclic reference)"

end EvalError

structure Store where
  memo : List (Path × Stored) := []
  /-- The nodes whose computation has begun and not ended, innermost first. -/
  active : List Path := []
  errors : List EvalError := []

namespace Store

def record (e : EvalError) (s : Store) : Store := { s with errors := s.errors ++ [e] }

def isStored (s : Store) (p : Path) : Bool := (Assoc.get? p s.memo).isSome

def enter (p : Path) (s : Store) : Store := { s with active := p :: s.active }

def leave (p : Path) (s : Store) : Store := { s with active := s.active.erase p }

def keep (p : Path) (v : Stored) (s : Store) : Store := { s with memo := Assoc.insert p v s.memo }

/-- Forgets all results. -/
def invalidate (s : Store) : Store := { s with memo := [] }

end Store
end MarkupEval
