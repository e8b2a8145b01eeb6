/-! # Maps in ascending key order

The entries of a map with text keys by ascending key. Keys are compared by their code points, which
gives the order of their UTF-8 bytes. -/

namespace MarkupEval
namespace Sorted

variable {β : Type}

/-- Puts an entry at its place; an entry with the same key gives way. -/
def insert (k : String) (v : β) : List (String × β) → List (String × β)
  | [] => [(k, v)]
  | (k', v') :: r =>
    if k = k' then (k, v) :: r
    else if k < k' then (k, v) :: (k', v') :: r
    else (k', v') :: insert k v r

/-- The pairs by ascending key, the last one of each key. -/
def ofPairs (ps : List (String × β)) : List (String × β) :=
  ps.foldl (fun es p => insert p.1 p.2 es) []

end Sorted
end MarkupEval
