import MarkupEval.Proofs.Evaluation.Memo

/-!
# Evaluation after earlier calls

A tree is evaluated again and again, and what was kept by earlier calls is used by later ones. In
strict mode no call can tell: any call answers as it would on a fresh tree, with the same problems,
cyclic references included (`evaluateNode_after_calls`). In lax mode every call answers what
recomputing the node gives, where no node of the fresh tree meets a cycle
(`evaluateNode_eq_recompute`).
-/

namespace MarkupEval

open EvalError

/-- What can be asked of a tree. -/
inductive Call
  | evaluate
  | evaluateNode (p : Path)
  | invalidate

namespace Document

variable {d : Document}

/-- The store after a call. A path that leads to no node is passed over. -/
def call (d : Document) (s : Store) : Call → Store
  | .evaluate => (d.evaluate.run s).2
  | .evaluateNode p =>
    match d.root.at? p with
    | some t => ((d.evaluateNode p t).run s).2
    | none => s
  | .invalidate => s.invalidate

/-- The store after calls on a fresh tree. -/
def afterCalls (d : Document) (calls : List Call) : Store := calls.foldl d.call {}

/-- The answer that a value with its problems makes. -/
def answer (d : Document) (r : Value × Store) : Except EvalError Value :=
  match d.options.strict, r.2.errors with
  | true, e :: _ => .error e
  | _, _ => .ok r.1

/-- Evaluates a node with a given way to get its value. -/
def evaluateBy (d : Document) (value : Path → Tree → StateM Store Value) (p : Path) (t : Tree) :
    StateM Store (Except EvalError Value) := do
  modify fun s => { s with errors := [] }
  let v ← value p t
  match d.options.strict, (← get).errors with
  | true, e :: _ => return .error e
  | _, _ => return .ok v

theorem run_evaluateBy (value : Path → Tree → StateM Store Value) (p : Path) (t : Tree)
    (s : Store) :
    (d.evaluateBy value p t).run s =
      let r := (value p t).run { s with errors := [] }
      (d.answer r, r.2) := by
  simp only [evaluateBy, answer, StateT.run_bind, StateT.run_modify, StateT.run_get, pure_bind]
  generalize (value p t).run { s with errors := [] } = r
  obtain ⟨v, s'⟩ := r
  change StateT.run (match d.options.strict, s'.errors with | true, e :: _ => _ | _, _ => _) s' = _
  dsimp only
  split <;> rfl

theorem run_evaluateNode (p : Path) (t : Tree) (s : Store) :
    (d.evaluateNode p t).run s =
      let r := (d.valueOf d.root.nodes.length p t).run { s with errors := [] }
      (d.answer r, r.2) :=
  run_evaluateBy (d.valueOf d.root.nodes.length) p t s

theorem answer_lax (h : d.options.strict = false) (r : Value × Store) : d.answer r = .ok r.1 := by
  simp [answer, h]

/-! ## Between calls -/

/-- A property of fresh trees holds after any calls if evaluating a node and forgetting all results
keep it. -/
theorem afterCalls_keeps {I : Store → Prop} (hfresh : I {})
    (hinvalidate : ∀ s, I s → I s.invalidate)
    (hnode : ∀ p t, d.root.at? p = some t → MarkupEval.Keeps I (d.evaluateNode p t))
    (calls : List Call) : I (d.afterCalls calls) := by
  have hcall : ∀ (c : Call) (s : Store), I s → I (d.call s c) := by
    intro c s hs
    cases c with
    | evaluate => exact hnode [] d.root rfl s hs
    | evaluateNode p =>
      simp only [call]
      split
      · next t ht => exact hnode p t ht s hs
      · exact hs
    | invalidate => exact hinvalidate s hs
  suffices ∀ s, I s → I (calls.foldl d.call s) from this {} hfresh
  induction calls with
  | nil => exact fun _ hs => hs
  | cons c calls ih => exact fun s hs => ih _ (hcall c s hs)

/-- No node is being computed, and what is kept is sound. -/
structure Quiet (d : Document) (s : Store) : Prop where
  active : s.active = []
  sound : d.Sound everyNode s

theorem quiet_fresh : d.Quiet {} := ⟨rfl, sound_of_memo_eq_nil rfl⟩

theorem Quiet.evaluateNode (hd : d.root.Keyed) {p : Path} {t : Tree} (ht : d.root.at? p = some t)
    {s : Store} (hs : d.Quiet s) (h : d.Sound everyNode ((d.evaluateNode p t).run s).2) :
    d.Quiet ((d.evaluateNode p t).run s).2 := by
  refine ⟨?_, h⟩
  rw [run_evaluateNode]
  exact (extends_valueOf hd _ ht _).active.trans hs.active

theorem quiet_afterCalls (hd : d.root.Keyed) (h : ∀ p t s, d.root.at? p = some t → d.Quiet s →
    d.Sound everyNode ((d.evaluateNode p t).run s).2) (calls : List Call) :
    d.Quiet (d.afterCalls calls) :=
  afterCalls_keeps quiet_fresh (fun _ hs => ⟨hs.active, sound_of_memo_eq_nil rfl⟩)
    (fun p t ht s (hs : d.Quiet s) => hs.evaluateNode hd ht (h p t s ht hs)) calls

theorem Quiet.nested {s : Store} (h : d.Quiet s) : d.Nested d.root.nodes.length s.active :=
  h.active ▸ nested_nil

/-- In strict mode every call finds the tree quiet. -/
theorem quiet_afterCalls_of_strict (hd : d.root.Keyed) (hstrict : d.options.strict = true)
    (calls : List Call) : d.Quiet (d.afterCalls calls) := by
  refine quiet_afterCalls hd (fun p t s ht hs => ?_) calls
  rw [run_evaluateNode]
  exact sound_valueOf hd hstrict _ ht (hs.sound.of_memo_eq rfl) hs.nested

/-- In strict mode a call answers as it would on a fresh tree, and with the same problems. -/
theorem evaluateNode_after_calls (r : Registry) (o : Options) (hstrict : o.strict = true)
    (host : Node) (calls : List Call) {p : Path} {t : Tree}
    (ht : (ofHost r o host).root.at? p = some t) :
    let d := ofHost r o host
    let later := (d.evaluateNode p t).run (d.afterCalls calls)
    let fresh := (d.evaluateNode p t).run {}
    later.1 = fresh.1 ∧ later.2.errors = fresh.2.errors := by
  intro d later fresh
  have hd : d.root.Keyed := Tree.ofHost_keyed r o host
  have hquiet : d.Quiet (d.afterCalls calls) := quiet_afterCalls_of_strict hd hstrict calls
  obtain ⟨hv, es, hes, hes'⟩ := valueOf_agree hd hstrict d.root.nodes.length ht
    (s := { d.afterCalls calls with errors := [] }) (hquiet.sound.of_memo_eq rfl)
    quiet_fresh.sound hquiet.active.symm hquiet.nested (hquiet.active ▸ unsettled_nil _)
  have herrors : later.2.errors = fresh.2.errors := by
    simp only [later, fresh, run_evaluateNode, hes, hes', List.nil_append]
  refine ⟨?_, herrors⟩
  simp only [later, fresh, run_evaluateNode] at herrors ⊢
  simp only [answer, herrors, hv]

/-- Two strings that refer to each other, and one that refers to one of them. -/
def cyclicHost : Node :=
  .element "record" ∅
    [.element "string" (.ofPairs [("_name", "a")]) [.element "ref" ∅ [.text "/b"]],
     .element "string" (.ofPairs [("_name", "b")]) [.element "ref" ∅ [.text "/a"]],
     .element "string" (.ofPairs [("_name", "c")]) [.text "c: ", .element "ref" ∅ [.text "/a"]]]

/-- A call after others on a tree with cyclic references, which itself ends in a problem. -/
theorem evaluateNode_after_calls_cyclic :
    let d := ofHost Registry.builtins { strict := true } cyclicHost
    let calls := [.evaluateNode [.name "b"], .evaluate, .invalidate, .evaluateNode [.name "a"]]
    ∃ t, d.options.strict = true ∧ d.root.at? [.name "c"] = some t ∧
      ((d.evaluateNode [.name "c"] t).run (d.afterCalls calls)).1 =
        ((d.evaluateNode [.name "c"] t).run {}).1 ∧
      ((d.evaluateNode [.name "c"] t).run (d.afterCalls calls)).2.errors =
        ((d.evaluateNode [.name "c"] t).run {}).2.errors := by
  intro d calls
  have hsome : (d.root.at? [.name "c"]).isSome := by decide +kernel
  refine ⟨(d.root.at? [.name "c"]).get hsome, rfl, (Option.some_get hsome).symm, ?_⟩
  exact evaluateNode_after_calls Registry.builtins { strict := true } rfl cyclicHost calls
    (Option.some_get hsome).symm

/-! ## Lax mode without cycles -/

/-- Where no evaluation of a node of the fresh tree meets a cycle, every node settles. -/
theorem settles_of_fresh (hd : d.root.Keyed) {p : Path} {t : Tree} (ht : d.root.at? p = some t)
    (h : NoCycle ((d.evaluateNode p t).run {}).2.errors) : d.Settles d.bound p t := by
  rw [run_evaluateNode] at h
  exact (settles_of_noCycle hd _ ht (s := {}) quiet_fresh.sound nested_nil h).1

theorem Quiet.faithful (hd : d.root.Keyed) {s : Store} (hs : d.Quiet s) {p : Path} {t : Tree}
    (ht : d.root.at? p = some t) (hp : d.Settles d.bound p t) :
    d.Faithful everyNode p t { s with errors := [] }
      ((d.valueOf d.root.nodes.length p t).run { s with errors := [] }) :=
  faithful_of_settles hd everyNode_of _ _ ht (hs.sound.of_memo_eq rfl) hs.nested hp
    (hs.active ▸ unsettled_nil _)

/-- In lax mode a call after any others gives the value of recomputing the node, at every depth that
is at least the number of nodes, if no node of the fresh tree meets a cycle. Recomputing does not
meet one either, so its depth is never used up. -/
theorem evaluateNode_eq_recompute (r : Registry) (o : Options) (hlax : o.strict = false)
    (host : Node)
    (hfresh : ∀ p t, (ofHost r o host).root.at? p = some t →
      NoCycle (((ofHost r o host).evaluateNode p t).run {}).2.errors)
    (calls : List Call) {p : Path} {t : Tree} (ht : (ofHost r o host).root.at? p = some t)
    {n : Nat} (hn : (ofHost r o host).root.nodes.length ≤ n) :
    let d := ofHost r o host
    ((d.evaluateNode p t).run (d.afterCalls calls)).1 = .ok ((d.recompute n p t).run {}).1 ∧
      NoCycle ((d.recompute n p t).run {}).2.errors := by
  intro d
  have hd : d.root.Keyed := Tree.ofHost_keyed r o host
  have hsettles {p t} (ht : d.root.at? p = some t) : d.Settles d.bound p t :=
    settles_of_fresh hd ht (hfresh p t ht)
  have hquiet : d.Quiet (d.afterCalls calls) := by
    refine quiet_afterCalls hd (fun p t s ht hs => ?_) calls
    rw [run_evaluateNode]
    exact (hs.faithful hd ht (hsettles ht)).sound
  obtain ⟨hvalue, -, -⟩ := hquiet.faithful hd ht (hsettles ht)
  refine ⟨?_, (hsettles ht).mono hd ht hn⟩
  rw [run_evaluateNode]
  change d.answer _ = _
  rw [answer_lax hlax, hvalue]
  exact congrArg Except.ok ((hsettles ht).eq_of_le hd ht hn).1.symm

/-- A record in which a later entry is read before it is computed, and a failing transformer. -/
def readingHost : Node :=
  .element "record" ∅
    [.element "string" (.ofPairs [("_name", "a")])
      [.text "a", .element "ref" ∅ [.text " /b "], .element "setattribute" ∅ []],
     .element "number" (.ofPairs [("_name", "b")]) [.text "4"]]

theorem evaluateNode_eq_recompute_reading :
    let d := ofHost Registry.builtins {} readingHost
    (∀ p t, d.root.at? p = some t → NoCycle ((d.evaluateNode p t).run {}).2.errors) ∧
      ((d.evaluateNode [] d.root).run (d.afterCalls [.evaluate, .invalidate, .evaluate])).1 =
        .ok ((d.recompute d.root.nodes.length [] d.root).run {}).1 ∧
      NoCycle ((d.recompute d.root.nodes.length [] d.root).run {}).2.errors := by
  intro d
  have hkinds : ∀ x ∈ d.root.nodes, ∀ e ∈ ((d.evaluateNode x.1 x.2).run {}).2.errors,
      e.kind ≠ "cycle" := by decide +kernel
  have hfresh : ∀ p t, d.root.at? p = some t →
      NoCycle ((d.evaluateNode p t).run {}).2.errors := fun p t ht q hq =>
    hkinds (p, t) (Tree.mem_nodes_of_at? ht) _ hq rfl
  exact ⟨hfresh, evaluateNode_eq_recompute Registry.builtins {} rfl readingHost hfresh
    [.evaluate, .invalidate, .evaluate] rfl (Nat.le_refl _)⟩

end Document
end MarkupEval
