import MarkupEval.Tree.Key
import MarkupEval.Value.Cast

/-! # Absorbing a value

How an accumulator takes in a value under a key when the value is no transformer. The shape of the
accumulator decides: arrays collect positional values and records named ones, markup is
concatenated, and a scalar gives way. -/

namespace MarkupEval
namespace Value

/-- The nodes of two values, one after the other. -/
def concatenate (current incoming : Value) : Value := .nodes (current.nodesOf ++ incoming.nodesOf)

/-- A list of nodes takes in markup and scalars as nodes; an array turns it into an array, and a
record takes its place. -/
def absorbIntoNodes (ns : List Node) : Value → Value
  | .array items => .array (ns.map ofNode ++ items)
  | .record entries => .record entries
  | .transformer .. => .nodes ns
  | .null => .nodes (ns ++ [.text (stringOf .null)])
  | .boolean b => .nodes (ns ++ [.text (stringOf (.boolean b))])
  | .number x => .nodes (ns ++ [.text x.text])
  | .string s => .nodes (ns ++ [.text s])
  | .text s => .nodes (ns ++ [.text s])
  | .element e => .nodes (ns ++ [e.toNode])
  | .nodes ms => .nodes (ns ++ ms)

def absorb (current incoming : Value) (key : Key) : Value :=
  match current with
  | .array items =>
    match key with
    | .name _ => .array items
    | .position _ => .array (items ++ [incoming])
  | .record entries =>
    match key with
    | .name s => .record (Assoc.insert s incoming entries)
    | .position _ => .record entries
  | .nodes ns => absorbIntoNodes ns incoming
  | scalar => if incoming.isMarkup then concatenate scalar incoming else incoming

end Value
end MarkupEval
