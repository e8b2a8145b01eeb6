import MarkupEval.Proofs.Evaluation.History

/-!
# Termination, and the state between calls

Nodes ask for other nodes while they are being computed, and cycles of references lead back to them.
Each nested computation is that of a node that is not being computed yet, so there are never more of
them than there are nodes: whatever is put in place of a deeper one, the evaluation is the same
(`run_limited`). Hence the equation of the evaluator, taken without a bound, has no other solution
(`eq_valueOf_of_eq_lookUp`).

A call leaves no node behind that is being computed. Since it starts with no problems either,
forgetting all results takes a tree back to where it started (`evaluateNode_terminates`).
-/

namespace MarkupEval
namespace Document

variable {d : Document} {p : Path} {t : Tree} {s : Store}

/-! ## Nested computations -/

/-- The value of a node from the store, null if it is being computed, or else what computing it
gives. -/
def lookUp (compute : Path → Tree → StateM Store Value) (p : Path) (t : Tree) :
    StateM Store Value := do
  let s ← get
  match Assoc.get? p s.memo with
  | some v => return v.toValue
  | none =>
    if s.active.contains p then
      modify (Store.record (.cycle p))
      return .null
    else compute p t

/-- The computation of a node that asks for others in a given way; its result is kept if that is
allowed. -/
def frame (d : Document) (ask : Path → Tree → StateM Store Value) (p : Path) (t : Tree) :
    StateM Store Value := do
  let s ← get
  modify (Store.enter p)
  let v ← d.compute ask p t
  modify (Store.leave p)
  let stored := Stored.ofValue v
  if d.isKept t stored s.errors.length (← get).errors.length then
    modify (Store.keep p stored)
  return v

/-- The value of a node in at most so many nested computations; `beyond` stands in place of one
more. -/
def limited (d : Document) (beyond : Path → Tree → StateM Store Value) :
    Nat → Path → Tree → StateM Store Value
  | 0 => lookUp beyond
  | n + 1 => lookUp (d.frame (d.limited beyond n))

section
variable {compute ask : Path → Tree → StateM Store Value}

theorem run_lookUp_of_stored {v : Stored} (h : Assoc.get? p s.memo = some v) :
    (lookUp compute p t).run s = (v.toValue, s) := by
  unfold lookUp
  simp only [StateT.run_bind, StateT.run_get, pure_bind, h]
  rfl

theorem run_lookUp_of_active (h : Assoc.get? p s.memo = none) (hp : p ∈ s.active) :
    (lookUp compute p t).run s = (.null, s.record (.cycle p)) := by
  unfold lookUp
  simp only [StateT.run_bind, StateT.run_get, pure_bind, h, List.contains_iff_mem, hp, if_true]
  rfl

theorem run_lookUp_of_new (h : Assoc.get? p s.memo = none) (hp : p ∉ s.active) :
    (lookUp compute p t).run s = (compute p t).run s := by
  unfold lookUp
  simp only [StateT.run_bind, StateT.run_get, pure_bind, h, List.contains_iff_mem, hp, if_false]

theorem run_frame : (d.frame ask p t).run s =
    let r := (d.compute ask p t).run (s.enter p)
    (r.1, d.keepResult p t r.1 s.errors.length (r.2.leave p)) := by
  unfold frame
  simp only [StateT.run_bind, StateT.run_get, pure_bind, StateT.run_modify]
  generalize (d.compute ask p t).run (s.enter p) = r
  obtain ⟨v, s'⟩ := r
  change StateT.run (if _ then _ else _) _ = _
  unfold keepResult
  split <;> rfl

end

/-- Within the number of nodes that are not being computed, what is put in place of a deeper
computation does not matter: there is none. -/
theorem run_limited (hd : d.root.Keyed) (beyond : Path → Tree → StateM Store Value) (n : Nat)
    (ht : d.root.at? p = some t) (hnested : d.Nested n s.active) :
    (d.limited beyond n p t).run s = (d.valueOf n p t).run s := by
  induction n generalizing p t s with
  | zero =>
    cases h : Assoc.get? p s.memo with
    | some v => rw [limited, run_lookUp_of_stored h, run_valueOf_of_stored h]
    | none =>
      have hp : p ∈ s.active := by
        by_contra hp
        exact hnested.fuel_ne_zero ht hp rfl
      rw [limited, run_lookUp_of_active h hp, run_valueOf_of_active h hp]
  | succ n ih =>
    cases h : Assoc.get? p s.memo with
    | some v => rw [limited, run_lookUp_of_stored h, run_valueOf_of_stored h]
    | none =>
      by_cases hp : p ∈ s.active
      · rw [limited, run_lookUp_of_active h hp, run_valueOf_of_active h hp]
      have hnested' : d.Nested n (s.enter p).active := hnested.cons ht hp
      -- Both computations go through the same states, in which the same nodes are being computed.
      have hcall : ∀ q u, d.root.at? q = some u →
          Sim (fun a b => a = b ∧ b.active = (s.enter p).active) (fun _ => True)
            (d.limited beyond n q u) (d.valueOf n q u) := by
        refine fun q u hu => ⟨fun _ _ => trivial, fun a b hab _ => ?_⟩
        obtain ⟨rfl, hactive⟩ := hab
        rw [ih hu (hactive ▸ hnested')]
        exact ⟨rfl, rfl, (extends_valueOf hd n hu a).active.trans hactive⟩
      have hrecord : RecordSim (fun a b => a = b ∧ b.active = (s.enter p).active)
          fun _ => True :=
        ⟨fun _ _ => trivial, fun _ h _ => ⟨congrArg _ h.1, h.2⟩⟩
      obtain ⟨hv, hs, -⟩ := (compute_sim hrecord hd hcall ht).agree _ _ ⟨rfl, rfl⟩ trivial
      rw [limited, run_lookUp_of_new h hp, run_frame, run_valueOf_of_new h hp]
      dsimp only
      rw [hv, hs]

/-- Every solution of the equation of the evaluator gives a node the same value, in any state in
which the nodes that are being computed differ. -/
theorem eq_valueOf_of_eq_lookUp (hd : d.root.Keyed) {ask : Path → Tree → StateM Store Value}
    (hask : ask = lookUp (d.frame ask)) {n : Nat} (ht : d.root.at? p = some t)
    (hnested : d.Nested n s.active) : (ask p t).run s = (d.valueOf n p t).run s := by
  have hlimited (n : Nat) : d.limited (d.frame ask) n = ask := by
    induction n with
    | zero => exact hask.symm
    | succ n ih => rw [limited, ih, ← hask]
  rw [← run_limited hd (d.frame ask) n ht hnested, hlimited n]

/-! ## Between calls -/

/-- No node is being computed after a call. -/
theorem active_evaluateNode (hd : d.root.Keyed) (ht : d.root.at? p = some t)
    (hs : s.active = []) : ((d.evaluateNode p t).run s).2.active = [] := by
  rw [run_evaluateNode]
  exact (extends_valueOf hd _ ht _).active.trans hs

theorem active_afterCalls (hd : d.root.Keyed) (calls : List Call) :
    (d.afterCalls calls).active = [] :=
  afterCalls_keeps (I := fun s => s.active = []) rfl (fun _ hs => hs)
    (fun _ _ ht _ hs => active_evaluateNode hd ht hs) calls

/-- What a call that evaluates a node answers, and the problems that it met. -/
def answerTo (d : Document) (s : Store) : Call → Option (Except EvalError Value × List EvalError)
  | .evaluate =>
    let r := d.evaluate.run s
    some (r.1, r.2.errors)
  | .evaluateNode p =>
    (d.root.at? p).map fun t =>
      let r := (d.evaluateNode p t).run s
      (r.1, r.2.errors)
  | .invalidate => none

/-- The answers to calls that are made one after the other. -/
def answers (d : Document) : Store → List Call →
    List (Option (Except EvalError Value × List EvalError))
  | _, [] => []
  | s, c :: calls => d.answerTo s c :: d.answers (d.call s c) calls

/-- Stores that differ at most in the problems of the last evaluation. -/
structure SameBetween (s s' : Store) : Prop where
  memo : s.memo = s'.memo
  active : s.active = s'.active

theorem SameBetween.evaluateNode {s s' : Store} (h : SameBetween s s') (p : Path) (t : Tree) :
    (d.evaluateNode p t).run s = (d.evaluateNode p t).run s' := by
  have hclear : { s with errors := [] } = { s' with errors := [] } := by
    rw [h.memo, h.active]
  rw [run_evaluateNode, run_evaluateNode, hclear]

/-- The problems of the last evaluation have no influence on later calls. -/
theorem SameBetween.answers {s s' : Store} (h : SameBetween s s') (calls : List Call) :
    d.answers s calls = d.answers s' calls := by
  induction calls generalizing s s' with
  | nil => rfl
  | cons c calls ih =>
    have hanswer : d.answerTo s c = d.answerTo s' c := by
      cases c with
      | evaluate => simp only [answerTo, evaluate, h.evaluateNode]
      | evaluateNode p => simp only [answerTo, h.evaluateNode]
      | invalidate => rfl
    have hcall : SameBetween (d.call s c) (d.call s' c) := by
      cases c with
      | evaluate =>
        simp only [call, evaluate, h.evaluateNode]
        exact ⟨rfl, rfl⟩
      | evaluateNode p =>
        simp only [call, h.evaluateNode]
        split
        · exact ⟨rfl, rfl⟩
        · exact h
      | invalidate => exact ⟨rfl, h.active⟩
    rw [Document.answers, Document.answers, hanswer, ih hcall]

/-- A call after any others needs no more nested computations than there are nodes, each of which is
listed once, and it leaves no node behind that is being computed. Once all results are forgotten,
later calls answer as on a fresh tree. -/
theorem evaluateNode_terminates (r : Registry) (o : Options) (host : Node) (calls later : List Call)
    {p : Path} {t : Tree} (ht : (ofHost r o host).root.at? p = some t) :
    let d := ofHost r o host
    let s := d.afterCalls calls
    ((d.root.nodes.map Prod.fst).Nodup ∧
      ∀ beyond, (d.evaluateBy (d.limited beyond d.root.nodes.length) p t).run s =
        (d.evaluateNode p t).run s) ∧
      ((d.evaluateNode p t).run s).2.active = [] ∧
      d.answers s.invalidate later = d.answers {} later := by
  intro d s
  have hd : d.root.Keyed := Tree.ofHost_keyed r o host
  have hactive : s.active = [] := active_afterCalls hd calls
  refine ⟨⟨Tree.nodup_nodes hd, fun beyond => ?_⟩, active_evaluateNode hd ht hactive, ?_⟩
  · have hnested : d.Nested d.root.nodes.length s.active := hactive ▸ nested_nil
    have hrun := run_limited hd beyond _ ht (s := { s with errors := [] }) hnested
    rw [run_evaluateBy, run_evaluateNode, hrun]
  · have hsame : SameBetween s.invalidate {} := ⟨rfl, hactive⟩
    exact hsame.answers later

/-- Two strings that need each other, one of them through a reference whose path is computed. -/
def computedHost : Node :=
  .element "record" ∅
    [.element "string" (.ofPairs [("_name", "a")])
      [.element "ref" ∅ [.element "string" ∅ [.text "/", .element "ref" ∅ [.text "/n"]]]],
     .element "string" (.ofPairs [("_name", "b")]) [.text "b", .element "ref" ∅ [.text "/a"]],
     .element "text" (.ofPairs [("_name", "n")]) [.text "b"]]

theorem evaluateNode_terminates_computed :
    let d := ofHost Registry.builtins { strict := true } computedHost
    let s := d.afterCalls [.evaluate, .evaluateNode [.name "b"]]
    ∃ t, d.root.at? [.name "a"] = some t ∧
      ((d.root.nodes.map Prod.fst).Nodup ∧
        ∀ beyond, (d.evaluateBy (d.limited beyond d.root.nodes.length) [.name "a"] t).run s =
          (d.evaluateNode [.name "a"] t).run s) ∧
      ((d.evaluateNode [.name "a"] t).run s).2.active = [] ∧
      d.answers s.invalidate [.evaluateNode [.name "b"], .evaluate] =
        d.answers {} [.evaluateNode [.name "b"], .evaluate] := by
  intro d s
  have hsome : (d.root.at? [.name "a"]).isSome := by decide +kernel
  have ht := (Option.some_get hsome).symm
  exact ⟨_, ht, evaluateNode_terminates Registry.builtins { strict := true } computedHost
    [.evaluate, .evaluateNode [.name "b"]] [.evaluateNode [.name "b"], .evaluate] ht⟩

end Document
end MarkupEval
