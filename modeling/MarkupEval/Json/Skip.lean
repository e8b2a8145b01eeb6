import MarkupEval.Json.Reader

/-! # Passing over a value

A member that no one asks for is passed over with looser rules than one that is read: nesting has
no limit, numbers have no range, halves of surrogate pairs may stand alone. The brackets that are
open are a stack, so no recursion follows the nesting. -/

namespace MarkupEval
namespace Json

open Text

/-! ## Scalars -/

def skipExponent (cs : List Char) : Except Failure (List Char) :=
  match (readExponentSign cs).2 with
  | [] => .error (.here .invalidNumber [])
  | c :: r =>
    if isDigit c then .ok (r.dropWhile isDigit) else .error (.next .invalidNumber (c :: r))

def skipFraction (cs : List Char) : Except Failure (List Char) :=
  match cs.takeWhile isDigit, cs.dropWhile isDigit with
  | [], r => .error (.next .invalidNumber r)
  | _, c :: r => if c = 'e' ∨ c = 'E' then skipExponent r else .ok (c :: r)
  | _, [] => .ok []

/-- A number after its sign. -/
def skipNumber : List Char → Except Failure (List Char)
  | [] => .error (.here .invalidNumber [])
  | c :: r =>
    if !isDigit c then .error (.next .invalidNumber (c :: r))
    else
      match if c = '0' then r else r.dropWhile isDigit with
      | '.' :: r' => skipFraction r'
      | d :: r' =>
        if c = '0' && isDigit d then .error (.next .invalidNumber (d :: r'))
        else if d = 'e' ∨ d = 'E' then skipExponent r'
        else .ok (d :: r')
      | [] => .ok []

/-- An escape after its backslash. -/
def skipEscape : List Char → Except Failure (List Char)
  | [] => .error (.here .endInString [])
  | c :: r =>
    if c = 'u' then (readHex r).map Prod.snd
    else if c ∈ ['"', '\\', '/', 'b', 'f', 'n', 'r', 't'] then .ok r
    else .error (.next .invalidEscape (c :: r))

/-- A string after its opening quote; each step takes at least one character. -/
def skipChars : Nat → List Char → Except Failure (List Char)
  | _, [] => .error (.here .endInString [])
  | 0, cs => .error (.here .endInString cs)
  | fuel + 1, c :: r =>
    if c = '"' then .ok r
    else if c = '\\' then do skipChars fuel (← skipEscape r)
    else if c.toNat < 0x20 then .error (.here .controlCharacter (c :: r))
    else skipChars fuel r

def skipString (cs : List Char) : Except Failure (List Char) := skipChars (cs.length + 1) cs

/-! ## Nesting -/

/-- An open list or object. -/
inductive Bracket
  | list
  | object
deriving DecidableEq

def Bracket.close : Bracket → Char
  | .list => ']'
  | .object => '}'

def Bracket.endProblem : Bracket → Problem
  | .list => .endInList
  | .object => .endInObject

def Bracket.commaProblem : Bracket → Problem
  | .list => .expectedCommaInList
  | .object => .expectedCommaInObject

/-- A scalar, or a bracket that opens. -/
def skipOpening (cs : List Char) : Except Failure (Option Bracket × List Char) :=
  match skipBlanks cs with
  | [] => .error (.here .endInValue [])
  | 'n' :: r => do return (none, ← readWord "ull".toList r)
  | 't' :: r => do return (none, ← readWord "rue".toList r)
  | 'f' :: r => do return (none, ← readWord "alse".toList r)
  | '"' :: r => do return (none, ← skipString r)
  | '-' :: r => do return (none, ← skipNumber r)
  | '[' :: r => .ok (some .list, r)
  | '{' :: r => .ok (some .object, r)
  | c :: r =>
    if isDigit c then do return (none, ← skipNumber (c :: r))
    else .error (.next .expectedValue (c :: r))

/-- Takes brackets that close, innermost first, until another value must follow; none are left open
when the value is over. `after` says that a value has just ended, so that a comma may come. -/
def skipClosing : Bool → List Bracket → List Char → Except Failure (List Bracket × List Char)
  | _, [], cs => .ok ([], cs)
  | after, b :: outer, cs =>
    match skipBlanks cs with
    | [] => .error (.here b.endProblem [])
    | c :: r =>
      if after && c = ',' then .ok (b :: outer, r)
      else if c = b.close then skipClosing true outer r
      else if after then .error (.next b.commaProblem (c :: r))
      else .ok (b :: outer, c :: r)

/-- The name of a member and its colon. -/
def skipKey (cs : List Char) : Except Failure (List Char) :=
  match skipBlanks cs with
  | [] => .error (.here .endInObject [])
  | '"' :: r => do readColon (← skipString r)
  | r => .error (.next .keyNotString r)

/-- Passes over values until no bracket is open. Each step takes at least one character. -/
def skipNested : Nat → List Bracket → List Char → Except Failure (List Char)
  | 0, _, cs => .error (.here .endInValue cs)
  | fuel + 1, opened, cs => do
    let (bracket, r) ← skipOpening cs
    let (opened, r) ←
      match bracket with
      | some b => skipClosing false (b :: opened) r
      | none => skipClosing true opened r
    match opened with
    | [] => return r
    | .list :: _ => skipNested fuel opened r
    | .object :: _ => skipNested fuel opened (← skipKey r)

/-- Passes over one value. -/
def skipValue (cs : List Char) : Except Failure (List Char) := skipNested (cs.length + 1) [] cs

end Json
end MarkupEval
