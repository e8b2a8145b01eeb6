import MarkupEval.Proofs.Evaluation.History

/-!
# Strict and lax evaluation

Two documents that differ in strictness only keep different results, so that their evaluations part
at the first problem. Until then they go in lockstep: `Lockstep` says that two computations end in
the same way without problems, or with the same first problem, and it goes through sequences of
steps. On a fresh tree the strict answer can therefore be told from the lax evaluation: it is the
lax value if there was no problem, and the first problem otherwise (`evaluateNode_strict_iff_lax`).
-/

namespace MarkupEval

variable {α β : Type}

/-! ## The first problem -/

/-- The first of the problems that are recorded. -/
def Store.firstError (s : Store) : Option EvalError := s.errors.head?

theorem Store.firstError_of_prefix {s a : Store} {e : EvalError} (h : s.errors <+: a.errors)
    (hs : s.firstError = some e) : a.firstError = some e := by
  obtain ⟨es, hes⟩ := h
  obtain ⟨rest, hrest⟩ := List.head?_eq_some_iff.mp hs
  rw [firstError, ← hes, hrest]
  rfl

theorem Store.firstError_record {s : Store} (e : EvalError) (hs : s.errors = []) :
    (s.record e).firstError = some e := by
  rw [firstError, record, hs]
  rfl

/-- Two computations that part at the first problem: where none is recorded yet, they end with the
same result in the same state and there is still none, or both end with the same first problem.
Neither removes a problem. -/
structure Lockstep (m m' : StateM Store α) : Prop where
  keepsErrors : ∀ s, s.errors <+: (m.run s).2.errors
  keepsErrors' : ∀ s, s.errors <+: (m'.run s).2.errors
  agree : ∀ s, s.errors = [] → (m.run s = m'.run s ∧ (m.run s).2.errors = []) ∨
    ∃ e, (m.run s).2.firstError = some e ∧ (m'.run s).2.firstError = some e

namespace Lockstep

theorem pure (a : α) : Lockstep (pure a) (pure a) where
  keepsErrors _ := List.prefix_refl _
  keepsErrors' _ := List.prefix_refl _
  agree _ hs := .inl ⟨rfl, hs⟩

theorem bind {m m' : StateM Store α} {k k' : α → StateM Store β} (hm : Lockstep m m')
    (hk : ∀ a, Lockstep (k a) (k' a)) : Lockstep (m >>= k) (m' >>= k') where
  keepsErrors s := (hm.keepsErrors s).trans ((hk _).keepsErrors _)
  keepsErrors' s := (hm.keepsErrors' s).trans ((hk _).keepsErrors' _)
  agree s hs := by
    rw [StateM.run_bind, StateM.run_bind]
    rcases hm.agree s hs with ⟨heq, hnone⟩ | ⟨e, he, he'⟩
    · rw [← heq]
      exact (hk _).agree _ hnone
    · -- After the first problem the two may do different things; it stays the first.
      refine .inr ⟨e, ?_, ?_⟩
      · exact Store.firstError_of_prefix ((hk _).keepsErrors _) he
      · exact Store.firstError_of_prefix ((hk _).keepsErrors' _) he'

theorem record (e : EvalError) :
    Lockstep (modify (Store.record e)) (modify (Store.record e)) where
  keepsErrors _ := List.prefix_append _ _
  keepsErrors' _ := List.prefix_append _ _
  agree s hs := by
    have he : (s.record e).firstError = some e := Store.firstError_record e hs
    exact .inr ⟨e, he, he⟩

theorem compositional : Compositional fun α => @Lockstep α := ⟨pure, bind⟩

end Lockstep

/-! ## Documents that differ in strictness -/

namespace Tree

mutual

/-- Of the options only the name attribute has a part in wrapping. -/
theorem ofHost_congr (r : Registry) {o o' : Options} (h : o.nameAttribute = o'.nameAttribute) :
    ∀ n : Node, ofHost r o n = ofHost r o' n
  | .text s => rfl
  | .element tag attrs children => by
    rw [ofHost, ofHost, ofHosts_congr r h children, declaredName, declaredName, h]

theorem ofHosts_congr (r : Registry) {o o' : Options} (h : o.nameAttribute = o'.nameAttribute) :
    ∀ ns : List Node, ofHosts r o ns = ofHosts r o' ns
  | [] => rfl
  | n :: ns => by rw [ofHosts, ofHosts, ofHost_congr r h n, ofHosts_congr r h ns]

end

end Tree

namespace Document

/-- The document with another strictness. -/
def withStrict (d : Document) (strict : Bool) : Document :=
  { d with options := { d.options with strict } }

theorem ofHost_withStrict (r : Registry) (o : Options) (host : Node) (strict : Bool) :
    ofHost r { o with strict } host = (ofHost r o host).withStrict strict := by
  have hname : ({ o with strict } : Options).nameAttribute = o.nameAttribute := rfl
  rw [ofHost, Tree.ofHost_congr r hname host]
  rfl

variable {d : Document} {p : Path} {t : Tree}

/-- While there are no problems, strictness does not matter for what is kept. -/
theorem keepResult_withStrict {s : Store} (hs : s.errors = []) (v : Value) :
    (d.withStrict true).keepResult p t v 0 s = (d.withStrict false).keepResult p t v 0 s := by
  simp [keepResult, isKept, hs]

theorem valueOf_lockstep (hd : d.root.Keyed) (fuel : Nat) (ht : d.root.at? p = some t) :
    Lockstep ((d.withStrict true).valueOf fuel p t) ((d.withStrict false).valueOf fuel p t) := by
  induction fuel using Nat.strong_induction_on generalizing p t with | _ fuel ih
  refine ⟨fun s => ?_, fun s => ?_, fun s hs => ?_⟩
  · exact (extends_valueOf (d := d.withStrict true) hd fuel ht s).errors
  · exact (extends_valueOf (d := d.withStrict false) hd fuel ht s).errors
  cases hstored : Assoc.get? p s.memo with
  | some v =>
    rw [run_valueOf_of_stored hstored, run_valueOf_of_stored hstored]
    exact .inl ⟨rfl, hs⟩
  | none =>
    by_cases hp : p ∈ s.active
    · rw [run_valueOf_of_active hstored hp, run_valueOf_of_active hstored hp]
      have he : (s.record (.cycle p)).firstError = some (.cycle p) :=
        Store.firstError_record _ hs
      exact .inr ⟨_, he, he⟩
    · cases fuel with
      | zero =>
        rw [run_valueOf_of_exhausted hstored hp, run_valueOf_of_exhausted hstored hp]
        exact .inl ⟨rfl, hs⟩
      | succ n =>
        rw [run_valueOf_of_new hstored hp, run_valueOf_of_new hstored hp]
        -- Strictness has no part in the computation itself.
        have hcompute : Lockstep ((d.withStrict true).compute ((d.withStrict true).valueOf n) p t)
            ((d.withStrict false).compute ((d.withStrict false).valueOf n) p t) :=
          compute_rel (d := d) Lockstep.compositional (fun e _ => .record e) hd
            (fun q u hu => ih n n.lt_succ_self hu) ht
        rcases hcompute.agree (s.enter p) hs with ⟨heq, hnone⟩ | ⟨e, he, he'⟩
        · left
          rw [← heq, hs]
          refine ⟨Prod.ext rfl ?_, (errors_keepResult _ _).trans hnone⟩
          exact keepResult_withStrict (s := Store.leave p _) hnone _
        · right
          refine ⟨e, ?_, ?_⟩
          · exact (congrArg List.head? (errors_keepResult _ _)).trans he
          · exact (congrArg List.head? (errors_keepResult _ _)).trans he'

/-- The answer in strict mode: the first problem, and the value if there is none. -/
def strictAnswer (r : Value × Store) : Except EvalError Value :=
  match r.2.firstError with
  | some e => .error e
  | none => .ok r.1

theorem answer_strict (h : d.options.strict = true) (r : Value × Store) :
    d.answer r = strictAnswer r := by
  rw [answer, h, strictAnswer, Store.firstError]
  cases r.2.errors <;> rfl

theorem strictAnswer_of_firstError {r : Value × Store} {e : EvalError}
    (h : r.2.firstError = some e) : strictAnswer r = .error e := by
  rw [strictAnswer, h]

theorem strictAnswer_eq_of_lockstep {m m' : StateM Store Value} (h : Lockstep m m') :
    strictAnswer (m.run {}) = strictAnswer (m'.run {}) := by
  rcases h.agree {} rfl with ⟨heq, -⟩ | ⟨e, he, he'⟩
  · rw [heq]
  · rw [strictAnswer_of_firstError he, strictAnswer_of_firstError he']

theorem run_evaluateNode_lax (p : Path) (t : Tree) :
    ((d.withStrict false).evaluateNode p t).run {} =
      let r := ((d.withStrict false).valueOf d.root.nodes.length p t).run {}
      (.ok r.1, r.2) := by
  rw [run_evaluateNode]
  dsimp only
  rw [answer_lax rfl]
  rfl

/-- On a fresh tree the strict answer can be told from the lax evaluation. -/
theorem run_evaluateNode_strict (hd : d.root.Keyed) (ht : d.root.at? p = some t) :
    (((d.withStrict true).evaluateNode p t).run {}).1 =
      strictAnswer (((d.withStrict false).valueOf d.root.nodes.length p t).run {}) := by
  rw [run_evaluateNode]
  exact (answer_strict rfl _).trans (strictAnswer_eq_of_lockstep (valueOf_lockstep hd _ ht))

/-- On a fresh tree strict evaluation gives a value exactly if lax evaluation meets no problem, and
then it is the same one; and it fails exactly with the first problem of lax evaluation. -/
theorem evaluateNode_strict_iff_lax (r : Registry) (o : Options) (host : Node)
    (ht : (ofHost r o host).root.at? p = some t) :
    let strict := ((ofHost r { o with strict := true } host).evaluateNode p t).run {}
    let lax := ((ofHost r { o with strict := false } host).evaluateNode p t).run {}
    (∀ v, strict.1 = .ok v ↔ lax.2.errors = [] ∧ lax.1 = .ok v) ∧
      ∀ e, strict.1 = .error e ↔ lax.2.errors.head? = some e := by
  intro strict lax
  simp only [strict, lax, ofHost_withStrict]
  rw [run_evaluateNode_strict (Tree.ofHost_keyed r o host) ht, run_evaluateNode_lax]
  generalize StateT.run (((ofHost r o host).withStrict false).valueOf _ p t) _ = laxRun
  obtain ⟨v, s⟩ := laxRun
  cases hs : s.errors with
  | nil => simp [strictAnswer, Store.firstError, hs]
  | cons e es => simp [strictAnswer, Store.firstError, hs]

/-- The string that is read around a cycle, so that its lax evaluation meets a problem. -/
theorem evaluateNode_strict_iff_lax_cyclic :
    let strict := ofHost Registry.builtins { strict := true } cyclicHost
    let lax := ofHost Registry.builtins { strict := false } cyclicHost
    ∃ t, (ofHost Registry.builtins {} cyclicHost).root.at? [.name "c"] = some t ∧
      (∀ v, ((strict.evaluateNode [.name "c"] t).run {}).1 = .ok v ↔
        ((lax.evaluateNode [.name "c"] t).run {}).2.errors = [] ∧
          ((lax.evaluateNode [.name "c"] t).run {}).1 = .ok v) ∧
      ∀ e, ((strict.evaluateNode [.name "c"] t).run {}).1 = .error e ↔
        ((lax.evaluateNode [.name "c"] t).run {}).2.errors.head? = some e := by
  intro strict lax
  have hsome : ((ofHost Registry.builtins {} cyclicHost).root.at? [.name "c"]).isSome := by
    decide +kernel
  refine ⟨_, (Option.some_get hsome).symm, ?_⟩
  exact evaluateNode_strict_iff_lax Registry.builtins {} cyclicHost (Option.some_get hsome).symm

end Document
end MarkupEval
