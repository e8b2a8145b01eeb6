import MarkupEval.Proofs.Evaluation.Simulation
import MarkupEval.Proofs.Value.WellFormed

/-!
# Hereditary properties of results

Whatever a computation is run on, its result satisfies a predicate if all that it is made of does
(`Yields`). For a hereditary property the values that nodes give are those with the property and
transformers whose arguments have it (`Mergeable`), and merging, folding and computing a node give
such values as long as other nodes do (`Document.compute_yields`). Where transformers cannot have
the property, their operations have to be those of documents: the diagnostic ones bring transformers
into values.
-/

namespace MarkupEval

/-- Every result of a computation satisfies a predicate. -/
def Yields {σ α : Type} (P : α → Prop) (m : StateM σ α) : Prop := ∀ s, P (m.run s).1

namespace Yields

variable {σ α β : Type} {P : α → Prop} {Q : β → Prop}

theorem pure {a : α} (h : P a) : Yields (σ := σ) P (pure a) := fun _ => h

theorem bind {m : StateM σ α} {k : α → StateM σ β} (hm : Yields P m)
    (hk : ∀ a, P a → Yields Q (k a)) : Yields Q (m >>= k) := fun s => hk _ (hm s) _

theorem bind_any {m : StateM σ α} {k : α → StateM σ β} (hk : ∀ a, Yields Q (k a)) :
    Yields Q (m >>= k) := fun _ => hk _ _

end Yields

/-- The operations of documents: casts, references and smart tags. -/
def Operation.isBuiltin : Operation → Bool
  | .convert _ | .reference | .smart _ => true
  | _ => false

theorem Value.kind_ne_of_isMarkup {v : Value} (h : v.isMarkup = true) : v.kind ≠ .transformer := by
  cases v with
  | transformer name args op => cases h
  | _ => nofun

/-- What may be merged into values with a hereditary property: the values that have it, and
transformers whose arguments have it. -/
def Mergeable (T : Prop) (P : Value → Prop) : Value → Prop
  | .transformer _ args op => (∀ v ∈ args, P v) ∧ (T ∨ op.isBuiltin = true)
  | v => P v

section
variable {σ : Type} {T : Prop} {P : Value → Prop} {hooks : Hooks σ}

namespace Mergeable

theorem of_hereditary (hP : Value.Hereditary T P) {v : Value} (hv : P v) : Mergeable T P v := by
  cases v with
  | transformer name args op =>
    obtain ⟨hT, hargs⟩ := hP.transformer.mp hv
    exact ⟨hargs, .inl hT⟩
  | _ => exact hv

theorem of_kind_ne {v : Value} (h : Mergeable T P v) (hv : v.kind ≠ .transformer) : P v := by
  cases v with
  | transformer name args op => exact absurd rfl hv
  | _ => exact h

theorem of_admitted (hP : Value.Hereditary T P) (hT : T) {v : Value} (h : Mergeable T P v) :
    P v := by
  cases v with
  | transformer name args op => exact hP.transformer.mpr ⟨hT, h.1⟩
  | _ => exact h

end Mergeable

/-- The value that an outcome carries has a property. -/
def Outcome.Has (P : Value → Prop) : Outcome → Prop
  | .replace v | .merge v => P v
  | .fail _ | .keep => True

/-- What is looked up may be merged. -/
def Hooks.Offers (T : Prop) (P : Value → Prop) (hooks : Hooks σ) : Prop :=
  ∀ target, Yields (fun found : Option Value => ∀ v ∈ found, Mergeable T P v) (hooks.resolve target)

namespace Operation

variable {args : List Value} {current : Value}

theorem has_firstOf (hP : Value.Hereditary T P) (h : ∀ v ∈ args, P v) : P (firstOf args) := by
  cases args with
  | nil => exact hP.null
  | cons v vs => exact h v (List.mem_cons_self ..)

theorem has_referenceOutcome {target : String} {found : Option Value}
    (h : ∀ v ∈ found, Mergeable T P v) : (referenceOutcome target found).Has P := by
  cases found with
  | none => trivial
  | some v =>
    cases v with
    | transformer name args op => trivial
    | _ => exact h _ rfl

theorem runReference_yields (H : hooks.Offers T P) :
    Yields (Outcome.Has P) (runReference hooks args) := by
  unfold runReference
  split
  · exact .pure trivial
  · exact .bind (H _) fun _ h => .pure (has_referenceOutcome h)

theorem has_runSmart (hP : Value.Hereditary T P) {t : SmartTag} (hcurrent : P current)
    (hargs : ∀ v ∈ args, P v) : (runSmart t args current).Has P := by
  unfold runSmart
  split
  · next h => exact hP.run hcurrent hargs h
  · trivial

theorem run_yields (hP : Value.Hereditary T P) (H : hooks.Offers T P)
    {first : Value → Key → StateM σ Value} (hfirst : ∀ v k, P v → Yields P (first v k))
    (hcurrent : P current) (hargs : ∀ v ∈ args, P v) {op : Operation}
    (hop : T ∨ op.isBuiltin = true) :
    Yields (Outcome.Has P) (op.run hooks first args current) := by
  cases op with
  | convert target => exact .pure (hP.convert target hcurrent)
  | reference => exact runReference_yields H
  | smart t => exact .pure (has_runSmart hP hcurrent hargs)
  | mergeFirst | emitFirst => exact .pure (has_firstOf hP hargs)
  | wrapOpaque =>
    obtain hT | hop := hop
    · refine .pure (hP.array.mpr ?_)
      simpa using ⟨hcurrent, hP.transformer.mpr ⟨hT, by simp⟩⟩
    · cases hop
  | mergeTwice =>
    exact .bind (hfirst _ _ hcurrent) fun once h => .bind (hfirst _ _ h) fun _ h => .pure h
  | peekFirst =>
    obtain hT | hop := hop
    · refine .bind (H _) fun found h => ?_
      cases found with
      | none => exact .pure trivial
      | some v => exact .pure ((h v rfl).of_admitted hP hT)
    · cases hop
  | countArguments => exact .pure (hP.number _)
  | idle | failWithFirst => exact .pure trivial

end Operation

namespace Value

theorem settle_yields (hP : Hereditary T P) {current : Value} {o : Outcome} (key : Key)
    (hcurrent : P current) (ho : o.Has P) : Yields P (settle hooks current key o) := by
  cases o with
  | replace v => exact .pure ho
  | merge v => exact .pure (hP.absorb key hcurrent ho)
  | keep => exact .pure hcurrent
  | fail e => exact .bind_any fun _ => .pure (hP.absorb key hcurrent (hP.toValue e))

mutual

theorem mergeInto_yields (hP : Hereditary T P) (H : hooks.Offers T P) :
    ∀ {incoming current : Value} (key : Key), Mergeable T P incoming → P current →
      Yields P (mergeInto hooks incoming current key)
  | .transformer name args op, current, key, hincoming, hcurrent => by
    obtain ⟨hargs, hallowed⟩ := hincoming
    by_cases hop : op = .mergeFirst
    · subst hop
      exact mergeFirstInto_yields hP H key hargs hcurrent
    · rw [mergeInto.eq_2 hooks _ _ _ _ _ hop]
      exact .bind (Operation.run_yields hP H (fun v k h => mergeFirstInto_yields hP H k hargs h)
        hcurrent hargs hallowed) fun o ho => settle_yields hP key hcurrent ho
  | .null, _, key, hincoming, hcurrent | .boolean _, _, key, hincoming, hcurrent
  | .number _, _, key, hincoming, hcurrent | .string _, _, key, hincoming, hcurrent
  | .text _, _, key, hincoming, hcurrent | .element _, _, key, hincoming, hcurrent
  | .nodes _, _, key, hincoming, hcurrent | .array _, _, key, hincoming, hcurrent
  | .record _, _, key, hincoming, hcurrent => .pure (hP.absorb key hcurrent hincoming)

theorem mergeFirstInto_yields (hP : Hereditary T P) (H : hooks.Offers T P) :
    ∀ {args : List Value} {current : Value} (key : Key), (∀ v ∈ args, P v) → P current →
      Yields P (mergeFirstInto hooks args current key)
  | [], _, key, _, hcurrent => .pure (hP.absorb key hcurrent hP.null)
  | v :: _, _, key, hargs, hcurrent =>
    mergeInto_yields hP H key (.of_hereditary hP (hargs v (List.mem_cons_self ..))) hcurrent

end

theorem merge_yields (hP : Hereditary T P) (H : hooks.Offers T P) {current incoming : Value}
    (key : Key) (hcurrent : P current) (hincoming : Mergeable T P incoming) :
    Yields P (merge hooks current incoming key) :=
  mergeInto_yields hP H key hincoming hcurrent

end Value
end

/-- All operations are allowed, or all of them are those of documents. -/
def Registry.Allows (T : Prop) (r : Registry) : Prop :=
  ∀ tag op, r.get? tag = some op → T ∨ op.isBuiltin = true

theorem Registry.builtins_allows (T : Prop) : builtins.Allows T := by
  have hall : ∀ e ∈ builtins.entries, e.2.isBuiltin = true := by decide +kernel
  intro tag op h
  exact .inr (hall _ (Assoc.mem_of_get? h))

namespace Document

variable {T : Prop} {P : Value → Prop} {d : Document} {f : Path → Tree → StateM Store Value}

theorem hooks_offers (hcall : ∀ p t, Yields (Mergeable T P) (f p t)) (origin : Path) :
    (d.hooks f origin).Offers T P := by
  intro target
  dsimp only [hooks]
  cases d.root.resolve target with
  | none => exact .bind_any fun _ => .pure (by simp)
  | some found => exact .bind (hcall _ _) fun v hv => .pure (by simpa using hv)

theorem takeIn_yields (hP : Value.Hereditary T P) {hooks : Hooks Store} (H : hooks.Offers T P)
    (yields : Bool) {acc incoming : Value} (key : Key) (hacc : P acc)
    (hincoming : Mergeable T P incoming) : Yields P (takeIn hooks yields acc incoming key) := by
  unfold takeIn
  split
  · next hyields =>
    have hmarkup : incoming.isMarkup = true := (Bool.and_eq_true_iff.mp hyields).2
    exact .pure (hincoming.of_kind_ne (Value.kind_ne_of_isMarkup hmarkup))
  · exact Value.merge_yields hP H key hacc hincoming

theorem foldChildren_yields (hP : Value.Hereditary T P) {hooks : Hooks Store}
    (H : hooks.Offers T P) (hcall : ∀ p t, Yields (Mergeable T P) (f p t)) (path : Path)
    (children : List (Key × Tree)) (yields : Bool) {acc : Value} (hacc : P acc) :
    Yields P (foldChildren f hooks path yields children acc) := by
  induction children generalizing yields acc with
  | nil => exact .pure hacc
  | cons e rest ih =>
    obtain ⟨k, t⟩ := e
    rw [foldChildren_cons]
    refine .bind (hcall _ t) fun incoming hincoming => ?_
    exact .bind (takeIn_yields hP H yields k hacc hincoming) fun acc hacc => ih false hacc

theorem has_seed (hP : Value.Hereditary T P) (t : Tree) : P (seed t) := by
  unfold seed
  cases t.kind with
  | array | transformer => exact hP.array.mpr (by simp)
  | record => exact hP.record.mpr ⟨.nil, by simp⟩
  | _ => exact hP.leaf rfl

theorem mergeable_generate (hP : Value.Hereditary T P) {r : Registry} (hr : r.Allows T)
    (path : Path) (host : Node) {content : Value} (h : P content) :
    Mergeable T P (generate r path host content) := by
  have hargs : ∀ v ∈ argumentsOf content, P v := by
    cases content with
    | array items => exact hP.array.mp h
    | _ => exact List.forall_mem_singleton.mpr h
  unfold generate
  dsimp only
  split
  · next op hop => exact ⟨hargs, hr _ op hop⟩
  · exact hP.null

theorem mergeable_finish (hP : Value.Hereditary T P) (hr : d.registry.Allows T) (path : Path)
    (t : Tree) {content : Value} (h : P content) : Mergeable T P (d.finish path t content) := by
  have hcast (k : Kind) : P ((content.castTo? k).getD content) := by
    cases hk : content.castTo? k with
    | none => exact h
    | some v => exact hP.castTo? h hk
  unfold finish
  split
  · exact hP.leaf (v := .element _) rfl
  · exact mergeable_generate hP hr _ _ h
  · exact .of_hereditary hP (hcast _)

/-- A node that is no transformer ends with a value of its own kind. -/
theorem kind_finish {path : Path} {t : Tree} (content : Value) (h : t.kind ≠ .transformer) :
    (d.finish path t content).kind = t.kind := by
  unfold finish
  cases hk : t.kind with
  | transformer => exact absurd hk h
  | _ => rfl

/-- Computing a node gives a mergeable value where other nodes do. -/
theorem compute_yields (hP : Value.Hereditary T P) (hr : d.registry.Allows T)
    (hcall : ∀ p t, Yields (Mergeable T P) (f p t)) (path : Path) (t : Tree) :
    Yields (Mergeable T P) (d.compute f path t) :=
  .bind (foldChildren_yields hP (hooks_offers hcall path) hcall path t.subtrees _ (has_seed hP t))
    fun _ h => .pure (mergeable_finish hP hr path t h)

end Document
end MarkupEval
