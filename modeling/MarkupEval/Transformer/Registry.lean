import MarkupEval.Assoc
import MarkupEval.Text.Ascii
import MarkupEval.Text.Quoted
import MarkupEval.Transformer.Invoke

/-! # Registries

The tags that stand for transformers, in the order of their first registration. Names are
registered in lower case and looked up as they are. -/

namespace MarkupEval

structure Registry where
  entries : List (String × Operation)
  nodup : (Assoc.keys entries).Nodup

namespace Registry

def empty : Registry := ⟨[], List.nodup_nil⟩

/-- Registers an operation; one of the same name gives way at its place. -/
def register (r : Registry) (name : String) (op : Operation) : Registry :=
  ⟨Assoc.insert (Text.lower name) op r.entries, Assoc.nodup_keys_insert r.nodup⟩

def get? (r : Registry) (name : String) : Option Operation := Assoc.get? name r.entries

def contains (r : Registry) (name : String) : Bool := (r.get? name).isSome

def names (r : Registry) : List String := Assoc.keys r.entries

/-- Registers pairs in order. -/
def registerAll (r : Registry) (ps : List (String × Operation)) : Registry :=
  ps.foldl (fun r p => r.register p.1 p.2) r

/-- The casts of the accumulator. -/
def casts : List (String × Operation) :=
  [("tonull", .convert .null), ("toboolean", .convert .boolean), ("tonumber", .convert .number),
   ("tostring", .convert .string), ("totext", .convert .text), ("toelement", .convert .element),
   ("tonodelist", .convert .nodes), ("toarray", .convert .array), ("torecord", .convert .record)]

/-- The smart tags that documents can use, under their names. -/
def smartTags : List (String × Operation) :=
  [SmartTag.replace, .setAttribute, .setProperty, .stringify, .parse].map
    fun t => (t.name, .smart t)

/-- Casts, references and smart tags. -/
def builtins : Registry :=
  empty.registerAll (casts ++ [(Operation.referenceTag, .reference)] ++ smartTags)

/-- Operations that reach outcomes the others never have, for diagnosis. -/
def diagnostics : List (String × Operation) :=
  [("x-noop", .idle), ("x-merge", .mergeFirst), ("x-emit", .emitFirst),
   ("x-fail", .failWithFirst), ("x-opaque", .wrapOpaque), ("x-twice", .mergeTwice),
   ("x-peek", .peekFirst), ("x-count", .countArguments), (SmartTag.suffix.name, .smart .suffix)]

def full : Registry := builtins.registerAll diagnostics

/-- The names between braces, quoted. -/
def debugText (r : Registry) : String :=
  "\x7b" ++ String.intercalate ", " (r.names.map Text.quoted) ++ "\x7d"

end Registry
end MarkupEval
