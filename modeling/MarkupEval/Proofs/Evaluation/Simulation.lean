import MarkupEval.Proofs.Tree.Paths
import MarkupEval.Tree.Evaluate

/-!
# Simulation of one evaluation by another

Evaluations of a node differ in how they get at the values of other nodes: from a store, by
computing them anew, in a store with another history. What is folded into a value reaches the state
only through the values of other nodes and through reports, so it is enough to compare these, in any
relation that goes through sequences of steps (`Compositional`, `Value.merge_rel`, `compute_rel`).

`Sim` is such a relation: the states stay related as long as the second one is still `Good` at its
end; for instance as long as it has met no cycle (`compute_sim`). `Keeps` is another one, in which a
single evaluation keeps a property of states; what one of the children brings about can be told at
the end of the computation (`compute_reaches`).
-/

namespace MarkupEval

/-- A relation between computations that goes through sequences of steps. -/
structure Compositional {σ τ : Type} (Rel : (α : Type) → StateM σ α → StateM τ α → Prop) :
    Prop where
  pure : ∀ {α : Type} (a : α), Rel α (pure a) (pure a)
  bind : ∀ {α β : Type} {m : StateM σ α} {m' : StateM τ α} {k : α → StateM σ β}
    {k' : α → StateM τ β}, Rel α m m' → (∀ a, Rel β (k a) (k' a)) → Rel β (m >>= k) (m' >>= k')

variable {σ τ α β : Type}

theorem StateM.run_pure (a : α) (s : σ) : (pure a : StateM σ α).run s = (a, s) := rfl

theorem StateM.run_bind (m : StateM σ α) (k : α → StateM σ β) (s : σ) :
    (m >>= k).run s = (k (m.run s).1).run (m.run s).2 := rfl

/-! ## Merging -/

section
variable {Rel : (α : Type) → StateM σ α → StateM τ α → Prop} {hooks : Hooks σ} {hooks' : Hooks τ}

/-- Services that a transformer cannot tell apart. -/
structure HooksRel (Rel : (α : Type) → StateM σ α → StateM τ α → Prop) (hooks : Hooks σ)
    (hooks' : Hooks τ) : Prop where
  resolve : ∀ target, Rel _ (hooks.resolve target) (hooks'.resolve target)
  report : ∀ e, Rel _ (hooks.report e) (hooks'.report e)

theorem Operation.runReference_rel (C : Compositional Rel) {args : List Value}
    (hresolve : ∀ target, referenceTarget args = .ok target →
      Rel _ (hooks.resolve target) (hooks'.resolve target)) :
    Rel _ (runReference hooks args) (runReference hooks' args) := by
  unfold runReference
  split
  · exact C.pure _
  · next target htarget => exact C.bind (hresolve target htarget) fun _ => C.pure _

theorem Operation.run_rel (C : Compositional Rel) (H : HooksRel Rel hooks hooks')
    {first : Value → Key → StateM σ Value} {first' : Value → Key → StateM τ Value}
    (hfirst : ∀ v k, Rel _ (first v k) (first' v k)) (args : List Value) (current : Value)
    (op : Operation) :
    Rel _ (op.run hooks first args current) (op.run hooks' first' args current) := by
  cases op with
  | reference => exact runReference_rel C fun target _ => H.resolve target
  | mergeTwice => exact C.bind (hfirst _ _) fun _ => C.bind (hfirst _ _) fun _ => C.pure _
  | peekFirst =>
    refine C.bind (H.resolve _) fun found => ?_
    cases found <;> exact C.pure _
  | _ => exact C.pure _

theorem Value.settle_rel (C : Compositional Rel)
    (hreport : ∀ e, Rel _ (hooks.report e) (hooks'.report e)) (current : Value) (key : Key)
    (o : Outcome) : Rel _ (settle hooks current key o) (settle hooks' current key o) := by
  cases o with
  | fail e => exact C.bind (hreport e) fun _ => C.pure _
  | _ => exact C.pure _

mutual

theorem Value.mergeInto_rel (C : Compositional Rel) (H : HooksRel Rel hooks hooks') :
    ∀ (incoming current : Value) (key : Key),
      Rel _ (mergeInto hooks incoming current key) (mergeInto hooks' incoming current key)
  | .transformer name args op, current, key => by
    by_cases hop : op = .mergeFirst
    · subst hop
      exact Value.mergeFirstInto_rel C H args current key
    · rw [mergeInto.eq_2 hooks _ _ _ _ _ hop, mergeInto.eq_2 hooks' _ _ _ _ _ hop]
      exact C.bind (Operation.run_rel C H (Value.mergeFirstInto_rel C H args) args current op)
        fun o => Value.settle_rel C H.report current key o
  | .null, _, _ | .boolean _, _, _ | .number _, _, _ | .string _, _, _ | .text _, _, _
  | .element _, _, _ | .nodes _, _, _ | .array _, _, _ | .record _, _, _ => C.pure _

theorem Value.mergeFirstInto_rel (C : Compositional Rel) (H : HooksRel Rel hooks hooks') :
    ∀ (args : List Value) (current : Value) (key : Key),
      Rel _ (mergeFirstInto hooks args current key) (mergeFirstInto hooks' args current key)
  | [], _, _ => C.pure _
  | v :: _, current, key => Value.mergeInto_rel C H v current key

end

theorem Value.merge_rel (C : Compositional Rel) (H : HooksRel Rel hooks hooks')
    (current incoming : Value) (key : Key) :
    Rel _ (merge hooks current incoming key) (merge hooks' current incoming key) :=
  mergeInto_rel C H incoming current key

end

/-! ## Computing a node -/

namespace Document

/-- How a fold takes in the value of a child. -/
def takeIn (hooks : Hooks σ) (yields : Bool) (acc incoming : Value) (key : Key) : StateM σ Value :=
  if yields && incoming.isMarkup then pure incoming else Value.merge hooks acc incoming key

/-- A fold takes in the first child and goes on with the others. -/
theorem foldChildren_cons {f : Path → Tree → StateM Store Value} (hooks : Hooks Store) (path : Path)
    (yields : Bool) (k : Key) (t : Tree) (rest : List (Key × Tree)) (acc : Value) :
    foldChildren f hooks path yields ((k, t) :: rest) acc =
      f (path ++ [k]) t >>= fun incoming =>
        takeIn hooks yields acc incoming k >>= foldChildren f hooks path false rest := by
  rw [foldChildren]
  congr
  funext incoming
  dsimp only [takeIn]
  split <;> rfl

section
variable {Rel : (α : Type) → StateM Store α → StateM Store α → Prop} {d : Document}
  {f g : Path → Tree → StateM Store Value}

/-- Besides asking for other nodes a computation reports problems other than cycles. -/
theorem hooks_rel (C : Compositional Rel)
    (hrecord : ∀ e : EvalError, (∀ p, e ≠ .cycle p) →
      Rel _ (modify (Store.record e)) (modify (Store.record e)))
    (hcall : ∀ p t, d.root.at? p = some t → Rel _ (f p t) (g p t)) (origin : Path) :
    HooksRel Rel (d.hooks f origin) (d.hooks g origin) where
  resolve target := by
    dsimp only [hooks]
    cases h : d.root.resolve target with
    | none => exact C.bind (hrecord (.unresolved ..) (by simp)) fun _ => C.pure _
    | some found => exact C.bind (hcall _ _ (Tree.at?_of_resolve h)) fun _ => C.pure _
  report e := hrecord _ (by simp)

theorem takeIn_rel (C : Compositional Rel) {hooks hooks' : Hooks Store}
    (H : HooksRel Rel hooks hooks') (yields : Bool) (acc incoming : Value) (key : Key) :
    Rel _ (takeIn hooks yields acc incoming key) (takeIn hooks' yields acc incoming key) := by
  unfold takeIn
  split
  · exact C.pure _
  · exact Value.merge_rel C H _ _ _

theorem foldChildren_rel (C : Compositional Rel) {hooks hooks' : Hooks Store}
    (H : HooksRel Rel hooks hooks') {path : Path} {children : List (Key × Tree)} (yields : Bool)
    (acc : Value)
    (hcall : ∀ k t, (k, t) ∈ children → Rel _ (f (path ++ [k]) t) (g (path ++ [k]) t)) :
    Rel _ (foldChildren f hooks path yields children acc)
      (foldChildren g hooks' path yields children acc) := by
  induction children generalizing yields acc with
  | nil => exact C.pure acc
  | cons e rest ih =>
    obtain ⟨k, t⟩ := e
    rw [foldChildren_cons, foldChildren_cons]
    refine C.bind (hcall k t (List.mem_cons_self ..)) fun incoming => ?_
    refine C.bind (takeIn_rel C H yields acc incoming k) fun acc => ?_
    exact ih false acc fun k t h => hcall k t (List.mem_cons_of_mem _ h)

/-- Computing a node from two ways to get at other nodes that cannot be told apart. -/
theorem compute_rel (C : Compositional Rel)
    (hrecord : ∀ e : EvalError, (∀ p, e ≠ .cycle p) →
      Rel _ (modify (Store.record e)) (modify (Store.record e)))
    (hd : d.root.Keyed) (hcall : ∀ p t, d.root.at? p = some t → Rel _ (f p t) (g p t))
    {path : Path} {t : Tree} (ht : d.root.at? path = some t) :
    Rel _ (d.compute f path t) (d.compute g path t) :=
  C.bind (foldChildren_rel C (hooks_rel C hrecord hcall path) _ _ fun _ _ h =>
    hcall _ _ (Tree.at?_child hd ht h)) fun _ => C.pure _

end

end Document

/-! ## Simulation -/

/-- Run on related states, two computations give the same result and related states again, provided
that the second one ends in a good state. A good state comes from a good state only. -/
structure Sim (R : σ → τ → Prop) (Good : τ → Prop) (m : StateM σ α) (m' : StateM τ α) :
    Prop where
  good_before : ∀ t, Good (m'.run t).2 → Good t
  agree : ∀ s t, R s t → Good (m'.run t).2 →
    (m.run s).1 = (m'.run t).1 ∧ R (m.run s).2 (m'.run t).2

namespace Sim

variable {R : σ → τ → Prop} {Good : τ → Prop}

theorem pure (a : α) : Sim R Good (pure a) (pure a) :=
  ⟨fun _ h => h, fun _ _ h _ => ⟨rfl, h⟩⟩

theorem bind {m : StateM σ α} {m' : StateM τ α} {k : α → StateM σ β} {k' : α → StateM τ β}
    (hm : Sim R Good m m') (hk : ∀ a, Sim R Good (k a) (k' a)) :
    Sim R Good (m >>= k) (m' >>= k') where
  good_before t h := hm.good_before t ((hk _).good_before _ h)
  agree s t hR h := by
    have hmid : Good (m'.run t).2 := (hk _).good_before _ h
    obtain ⟨hv, hR'⟩ := hm.agree s t hR hmid
    rw [StateM.run_bind, StateM.run_bind, hv]
    exact (hk _).agree _ _ hR' h

theorem modify {f : σ → σ} {g : τ → τ} (hgood : ∀ t, Good (g t) → Good t)
    (hR : ∀ s t, R s t → Good (g t) → R (f s) (g t)) :
    Sim R Good (modify f) (modify g) :=
  ⟨hgood, fun s t h hg => ⟨rfl, hR s t h hg⟩⟩

/-- Where every state is good, it is enough to go on from a value that is known. -/
theorem bind_value {m : StateM σ α} {m' : StateM τ α} {k : α → StateM σ β} {k' : α → StateM τ β}
    {v : α} (hm : Sim R (fun _ => True) m m') (hv : ∀ s t, R s t → (m.run s).1 = v)
    (hk : Sim R (fun _ => True) (k v) (k' v)) :
    Sim R (fun _ => True) (m >>= k) (m' >>= k') := by
  refine ⟨fun _ _ => trivial, fun s t h _ => ?_⟩
  obtain ⟨heq, hR⟩ := hm.agree s t h trivial
  rw [StateM.run_bind, StateM.run_bind, ← heq, hv s t h]
  exact hk.agree _ _ hR trivial

theorem compositional : Compositional fun α => @Sim σ τ α R Good := ⟨pure, bind⟩

end Sim

namespace Document

section
variable {Good : Store → Prop} {R : Store → Store → Prop} {d : Document}
  {f g : Path → Tree → StateM Store Value}

/-- What the computation of a node may do besides asking for other nodes: report problems other than
cycles. -/
structure RecordSim (R : Store → Store → Prop) (Good : Store → Prop) : Prop where
  good_before : ∀ {e t}, (∀ p, e ≠ .cycle p) → Good (Store.record e t) → Good t
  agree : ∀ {e s t}, (∀ p, e ≠ .cycle p) → R s t → Good (Store.record e t) →
    R (s.record e) (t.record e)

theorem RecordSim.sim (H : RecordSim R Good) {e : EvalError} (he : ∀ p, e ≠ .cycle p) :
    Sim R Good (modify (Store.record e)) (modify (Store.record e)) :=
  .modify (fun _ => H.good_before he) fun _ _ => H.agree he

theorem compute_sim (H : RecordSim R Good) (hd : d.root.Keyed)
    (hcall : ∀ p t, d.root.at? p = some t → Sim R Good (f p t) (g p t)) {path : Path} {t : Tree}
    (ht : d.root.at? path = some t) : Sim R Good (d.compute f path t) (d.compute g path t) :=
  compute_rel Sim.compositional (fun _ => H.sim) hd hcall ht

end
end Document

/-! ## Properties of states -/

/-- A computation leads from states with a property to states with it. -/
def Keeps (I : σ → Prop) (m : StateM σ α) : Prop := ∀ s, I s → I (m.run s).2

namespace Keeps

variable {I : σ → Prop}

theorem pure (a : α) : Keeps I (pure a) := fun _ h => h

theorem bind {m : StateM σ α} {k : α → StateM σ β} (hm : Keeps I m) (hk : ∀ a, Keeps I (k a)) :
    Keeps I (m >>= k) := fun s h => hk _ _ (hm s h)

theorem compositional : Compositional fun _ (m _ : StateM σ _) => Keeps I m := ⟨pure, bind⟩

end Keeps

namespace Document

variable {I J : Store → Prop} {d : Document} {f : Path → Tree → StateM Store Value}

/-- A computation keeps a property of states if the nodes that it asks for do. -/
theorem compute_keeps (hd : d.root.Keyed)
    (hrecord : ∀ s e, (∀ p, e ≠ EvalError.cycle p) → I s → I (s.record e))
    (hcall : ∀ p t, d.root.at? p = some t → Keeps I (f p t)) {p : Path} {t : Tree}
    (ht : d.root.at? p = some t) : Keeps I (d.compute f p t) :=
  compute_rel (g := f) Keeps.compositional (fun e he s => hrecord s e he) hd hcall ht

/-- What asking for one of the children brings about can be told at the end of the fold, if the rest
of the fold keeps it. -/
theorem foldChildren_reaches {hooks : Hooks Store}
    (H : HooksRel (fun _ m _ => Keeps I m) hooks hooks)
    (H' : HooksRel (fun _ m _ => Keeps J m) hooks hooks) {path : Path} {k : Key} {c : Tree}
    (hask : ∀ s, I s → J ((f (path ++ [k]) c).run s).2) {children : List (Key × Tree)}
    (hmem : (k, c) ∈ children)
    (hcall : ∀ k t, (k, t) ∈ children → Keeps I (f (path ++ [k]) t))
    (hcall' : ∀ k t, (k, t) ∈ children → Keeps J (f (path ++ [k]) t)) (yields : Bool) (acc : Value)
    {s : Store} (hs : I s) : J ((foldChildren f hooks path yields children acc).run s).2 := by
  induction children generalizing yields acc s with
  | nil => cases hmem
  | cons e rest ih =>
    obtain ⟨k', t⟩ := e
    rw [foldChildren_cons, StateM.run_bind, StateM.run_bind]
    have hrest : ∀ k t, (k, t) ∈ rest → Keeps J (f (path ++ [k]) t) := fun k t h =>
      hcall' k t (List.mem_cons_of_mem _ h)
    rcases List.mem_cons.mp hmem with heq | hmem
    · cases heq
      apply foldChildren_rel (g := f) Keeps.compositional H' false _ hrest
      exact takeIn_rel Keeps.compositional H' yields acc _ k _ (hask s hs)
    · apply ih hmem (fun k t h => hcall k t (List.mem_cons_of_mem _ h)) hrest
      apply takeIn_rel Keeps.compositional H yields acc _ k'
      exact hcall k' t (List.mem_cons_self ..) s hs

/-- What asking for one of its children brings about can be told at the end of the computation of a
node, if the rest of it keeps that. -/
theorem compute_reaches (hd : d.root.Keyed)
    (hrecord : ∀ s e, (∀ p, e ≠ EvalError.cycle p) → I s → I (s.record e))
    (hrecord' : ∀ s e, (∀ p, e ≠ EvalError.cycle p) → J s → J (s.record e))
    (hcall : ∀ p t, d.root.at? p = some t → Keeps I (f p t))
    (hcall' : ∀ p t, d.root.at? p = some t → Keeps J (f p t)) {p : Path} {t c : Tree} {k : Key}
    (ht : d.root.at? p = some t) (hc : (k, c) ∈ t.subtrees)
    (hask : ∀ s, I s → J ((f (p ++ [k]) c).run s).2) {s : Store} (hs : I s) :
    J ((d.compute f p t).run s).2 :=
  foldChildren_reaches
    (hooks_rel (g := f) Keeps.compositional (fun e he s => hrecord s e he) hcall p)
    (hooks_rel (g := f) Keeps.compositional (fun e he s => hrecord' s e he) hcall' p) hask hc
    (fun _ _ h => hcall _ _ (Tree.at?_child hd ht h))
    (fun _ _ h => hcall' _ _ (Tree.at?_child hd ht h)) _ _ hs

end Document
end MarkupEval
