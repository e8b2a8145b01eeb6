import MarkupEval.Text.Segments
import MarkupEval.Transformer.Replace
import MarkupEval.Transformer.SetAttribute
import MarkupEval.Transformer.SetProperty
import MarkupEval.Value.MarkedText

/-! # Smart tags

A smart tag checks its main value, then the number and kinds of its arguments, and then computes;
the first check that fails is its error. The main value is the accumulator, or the first argument
for a tag that runs in isolation. -/

namespace MarkupEval
namespace SmartTag

def name : SmartTag → String
  | .replace => "replace"
  | .setAttribute => "setattribute"
  | .setProperty => "setproperty"
  | .stringify => "stringify"
  | .parse => "parse"
  | .suffix => "x-suffix"

/-- Where the main value comes from. -/
inductive Mode
  | coalescing
  | isolated
deriving DecidableEq

def mode : SmartTag → Mode
  | .suffix => .isolated
  | _ => .coalescing

/-! ## Checks -/

/-- From `min` to `max` arguments, which `expected` puts in words. -/
def checkArity (tag : String) (args : List Value) (min max : Nat) (expected : String) :
    Except TagError Unit :=
  if min ≤ args.length ∧ args.length ≤ max then .ok () else .error (.arity tag expected args.length)

/-- The kind of an argument; one that is missing counts as null. -/
def argumentKind (args : List Value) (position : Nat) : Kind :=
  (args[position]?.map Value.kind).getD .null

/-- An argument that is a string or a text. -/
def stringArgument (tag : String) (args : List Value) (position : Nat) : Except TagError String :=
  match args[position]? with
  | some (.string s) => .ok s
  | some (.text s) => .ok s
  | _ => .error (.argument tag position "string" (argumentKind args position))

/-! ## Operations -/

def runReplace (main : Value) (args : List Value) : Except TagError Value := do
  let tag := SmartTag.replace.name
  checkArity tag args 2 2 "2"
  let pattern ← stringArgument tag args 0
  if pattern.isEmpty then throw (.invalid tag "the string to replace is empty")
  let replacement ← stringArgument tag args 1
  return main.replace pattern replacement

def runSetAttribute (main : Value) (args : List Value) : Except TagError Value := do
  let tag := SmartTag.setAttribute.name
  if !main.takesAttribute then
    throw (.mainValue tag "element, array of elements or nodelist" main.kind)
  checkArity tag args 1 2 "1 or 2"
  let name ← stringArgument tag args 0
  if name.isEmpty then throw (.invalid tag "attribute name is empty")
  let value ← if args.length < 2 then pure "" else stringArgument tag args 1
  return main.setAttribute name value

def runSetProperty (main : Value) (args : List Value) : Except TagError Value := do
  let tag := SmartTag.setProperty.name
  checkArity tag args 2 2 "2"
  let path ← stringArgument tag args 0
  if path.isEmpty then throw (.invalid tag "property path is empty")
  main.setProperty (Text.segmentStrings '.' path) (args[1]?.getD .null)

def runStringify (main : Value) (args : List Value) : Except TagError Value := do
  checkArity SmartTag.stringify.name args 0 0 "0"
  return .string (MarkedText.stringify main)

def runParse (main : Value) (args : List Value) : Except TagError Value := do
  let tag := SmartTag.parse.name
  let text ←
    match main with
    | .string s => pure s
    | .text s => pure s
    | v => throw (.mainValue tag "string" v.kind)
  checkArity tag args 0 0 "0"
  MarkedText.parse text

def runSuffix (main : Value) (args : List Value) : Except TagError Value := do
  let tag := SmartTag.suffix.name
  checkArity tag args 1 1 "1"
  return .string (main.stringOf ++ (← stringArgument tag args 0))

/-- The operation on a main value that is already told from the arguments. -/
def apply : SmartTag → Value → List Value → Except TagError Value
  | .replace => runReplace
  | .setAttribute => runSetAttribute
  | .setProperty => runSetProperty
  | .stringify => runStringify
  | .parse => runParse
  | .suffix => runSuffix

/-- Runs a smart tag on an accumulator. In isolation the arguments are counted after the main value
is split off. -/
def run (t : SmartTag) (current : Value) (args : List Value) : Except TagError Value :=
  match t.mode with
  | .coalescing => t.apply current args
  | .isolated =>
    match args with
    | main :: rest => t.apply main rest
    | [] => .error (.arity t.name "at least 1" 0)

end SmartTag
end MarkupEval
