import MarkupEval.Transformer.SmartTag
import MarkupEval.Value.Merge

/-! # Invoking and merging transformers

A transformer that is merged into an accumulator edits it: its operation says whether the
accumulator is replaced, takes in a value, takes in an error or stays. While it runs it may look up
values by path and merge values itself; these services are `Hooks` over a state.

Only the first argument of a transformer can be a transformer that is merged in turn, so merging
recurs on the incoming value. -/

namespace MarkupEval

/-- What an operation asks for. -/
inductive Outcome
  | replace (v : Value)
  | merge (v : Value)
  | fail (e : TagError)
  | keep

/-- What an operation can call on while it runs. -/
structure Hooks (σ : Type) where
  /-- The value at a path, if there is one. -/
  resolve : String → StateM σ (Option Value)
  /-- Takes note of an error that is about to be merged. -/
  report : TagError → StateM σ Unit

/-- The hooks outside of a tree: no path leads anywhere, and no one takes note of errors. -/
def Hooks.detached : Hooks Unit := ⟨fun _ => pure none, fun _ => pure ()⟩

/-- Hooks that look paths up in a table as they are spelled, and list the errors in order. -/
def Hooks.ofTable (table : List (String × Value)) : Hooks (List TagError) :=
  ⟨fun path => pure (Assoc.get? path table), fun e => modify fun es => es ++ [e]⟩

namespace Operation

/-- The first argument, and null if there is none. -/
def firstOf (args : List Value) : Value := args.head?.getD .null

/-- The tag that errors of references name. -/
def referenceTag : String := "ref"

/-- The path that a reference goes to: its first argument without blanks around it. -/
def referenceTarget (args : List Value) : Except TagError String :=
  match args with
  | .string s :: _ => .ok (Text.trimString s)
  | .text s :: _ => .ok (Text.trimString s)
  | _ => .error (.argument referenceTag 0 "string" (SmartTag.argumentKind args 0))

/-- What a reference does with the value that it found. A transformer is refused: merging it would
invoke it again. -/
def referenceOutcome (target : String) : Option Value → Outcome
  | some (.transformer ..) =>
    .fail (.invalid referenceTag ("`" ++ target ++ "` refers to a transformer"))
  | some v => .merge v
  | none => .fail (.invalid referenceTag ("`" ++ target ++ "` does not resolve to a node"))

variable {σ : Type}

def runReference (hooks : Hooks σ) (args : List Value) : StateM σ Outcome :=
  match referenceTarget args with
  | .error e => pure (.fail e)
  | .ok target => do return referenceOutcome target (← hooks.resolve target)

def runSmart (t : SmartTag) (args : List Value) (current : Value) : Outcome :=
  match t.run current args with
  | .ok v => .replace v
  | .error e => .fail e

/-- Runs an operation on an accumulator. `mergeFirst` merges the first argument into a value under
a key. -/
def run (hooks : Hooks σ) (mergeFirst : Value → Key → StateM σ Value) (args : List Value)
    (current : Value) : Operation → StateM σ Outcome
  | .convert target => pure (.replace (current.convert target))
  | .reference => runReference hooks args
  | .smart t => pure (runSmart t args current)
  | .idle => pure .keep
  | .mergeFirst => pure (.merge (firstOf args))
  | .emitFirst => pure (.replace (firstOf args))
  | .failWithFirst => pure (.fail (.invalid "x-fail" (firstOf args).stringOf))
  | .wrapOpaque => pure (.replace (.array [current, .transformer "opaque" [] .idle]))
  | .mergeTwice => do
    let once ← mergeFirst current (.position 0)
    return .replace (← mergeFirst once (.name "twice"))
  | .peekFirst => do
    match ← hooks.resolve (firstOf args).stringOf with
    | some v => return .replace v
    | none => return .keep
  | .countArguments => pure (.replace (TagError.count args.length))

end Operation

namespace Value

variable {σ : Type}

/-- Does to an accumulator what an operation asked for; a value to merge is no transformer. -/
def settle (hooks : Hooks σ) (current : Value) (key : Key) : Outcome → StateM σ Value
  | .replace v => pure v
  | .merge v => pure (current.absorb v key)
  | .keep => pure current
  | .fail e => do
    hooks.report e
    return current.absorb e.toValue key

mutual

/-- Merges an incoming value into an accumulator under a key: a transformer edits the accumulator,
any other value is absorbed. -/
def mergeInto (hooks : Hooks σ) : Value → Value → Key → StateM σ Value
  | .transformer _ args .mergeFirst, current, key => mergeFirstInto hooks args current key
  | .transformer _ args operation, current, key => do
    settle hooks current key (← operation.run hooks (mergeFirstInto hooks args) args current)
  | incoming, current, key => pure (current.absorb incoming key)

/-- Merges the first of some values, and null if there is none. -/
def mergeFirstInto (hooks : Hooks σ) : List Value → Value → Key → StateM σ Value
  | [], current, key => pure (current.absorb .null key)
  | v :: _, current, key => mergeInto hooks v current key

end

def merge (hooks : Hooks σ) (current incoming : Value) (key : Key) : StateM σ Value :=
  mergeInto hooks incoming current key

/-- A value that is no transformer is absorbed. -/
theorem merge_of_kind_ne {v : Value} (h : v.kind ≠ .transformer) (hooks : Hooks σ)
    (current : Value) (key : Key) :
    merge hooks current v key = pure (current.absorb v key) := by
  cases v with
  | transformer name args op => exact absurd rfl h
  | _ => rfl

end Value

/-- Runs the operation of a transformer on an accumulator. -/
def Transformer.invoke {σ : Type} (t : Transformer) (hooks : Hooks σ) (current : Value) :
    StateM σ Outcome :=
  t.operation.run hooks (Value.mergeFirstInto hooks t.args) t.args current

end MarkupEval
