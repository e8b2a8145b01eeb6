import Mathlib.Data.Fintype.EquivFin
import Mathlib.Logic.Relation
import MarkupEval.Proofs.Evaluation.History

/-!
# Cycles of dependencies

A node depends on its children and, for each reference among them, on the node that the reference
leads to (`Depends`). Within one level more a node settles exactly if the nodes that it depends on
settle (`settles_succ_iff`): computing a node asks for these and for no others, which is told by
what each step of the computation demands (`Demands`). A node therefore settles exactly if no cycle
of dependencies is reached from it. As evaluating a node of a fresh tree meets a cycle exactly if
the node does not settle, cycles are found where there are any, and nowhere else
(`evaluateNode_cycle_iff`).
-/

namespace MarkupEval

open EvalError Relation

/-! ## References -/

namespace Node

/-- The path text of a reference whose content is a text. -/
def reference? : Node → Option String
  | .element tag _ [.text s] =>
    if Text.lower tag = Operation.referenceTag then some (Text.trimString s) else none
  | _ => none

mutual

/-- The content of every reference is a single text. -/
def RefersByText : Node → Prop
  | .text _ => True
  | .element tag _ children =>
    (Text.lower tag = Operation.referenceTag → ∃ s, children = [.text s]) ∧
      AllReferByText children

def AllReferByText : List Node → Prop
  | [] => True
  | n :: ns => n.RefersByText ∧ AllReferByText ns

end

theorem allReferByText_iff {ns : List Node} : AllReferByText ns ↔ ∀ n ∈ ns, n.RefersByText := by
  induction ns with
  | nil => simp [AllReferByText]
  | cons n ns ih => simp [AllReferByText, ih]

theorem RefersByText.children {n : Node} (h : n.RefersByText) :
    ∀ m ∈ n.children, m.RefersByText := by
  cases n with
  | text s => exact fun _ hm => nomatch hm
  | element tag attrs children => exact allReferByText_iff.mp h.2

theorem reference?_eq_none {n : Node}
    (h : Text.lower (n.tag?.getD "") ≠ Operation.referenceTag) : n.reference? = none := by
  unfold reference?
  split
  · exact if_neg h
  · rfl

end Node

namespace Value

/-- The path text that a reference goes to. -/
def referenceTarget? : Value → Option String
  | .transformer _ args .reference => (Operation.referenceTarget args).toOption
  | _ => none

theorem referenceTarget?_of_kind_ne {v : Value} (h : v.kind ≠ .transformer) :
    v.referenceTarget? = none := by
  cases v with
  | transformer name args op => exact absurd rfl h
  | _ => rfl

theorem referenceTarget?_eq_some {v : Value} {target : String}
    (h : v.referenceTarget? = some target) : ∃ name args, v = .transformer name args .reference ∧
      Operation.referenceTarget args = .ok target := by
  cases v with
  | transformer name args op =>
    cases op with
    | reference =>
      refine ⟨name, args, rfl, ?_⟩
      cases hargs : Operation.referenceTarget args with
      | error e => simp [referenceTarget?, hargs, Except.toOption] at h
      | ok s => simpa [referenceTarget?, hargs, Except.toOption] using h
    | _ => cases h
  | _ => cases h

end Value

/-! ## What computations demand -/

/-- A computation meets no cycle exactly if a condition holds, in whatever state it starts. -/
def Demands {α : Type} (c : Prop) (m : StateM Store α) : Prop :=
  ∀ s, NoCycle (m.run s).2.errors ↔ NoCycle s.errors ∧ c

namespace Demands

variable {α β : Type} {b c : Prop}

theorem congr {m : StateM Store α} (h : Demands b m) (hbc : b ↔ c) : Demands c m := fun s =>
  (h s).trans (and_congr_right' hbc)

theorem pure (a : α) : Demands True (pure a) := fun _ => (and_true _).symm.to_iff

theorem bind {m : StateM Store α} {k : α → StateM Store β} (hm : Demands b m)
    (hk : ∀ a, Demands c (k a)) : Demands (b ∧ c) (m >>= k) := by
  intro s
  rw [StateM.run_bind, hk, hm, and_assoc]

theorem bind_free {m : StateM Store α} {k : α → StateM Store β} (hm : Demands b m)
    (hk : ∀ a, Demands True (k a)) : Demands b (m >>= k) :=
  (hm.bind hk).congr (and_iff_left trivial)

theorem record {e : EvalError} (he : ∀ p, e ≠ .cycle p) :
    Demands True (modify (Store.record e)) := fun s => by
  change NoCycle (s.errors ++ [e]) ↔ _
  rw [noCycle_append, and_iff_left (noCycle_singleton he), and_true]

end Demands

namespace Document

variable {d : Document} {n : Nat} {p : Path} {t : Tree}

theorem recompute_demands (hd : d.root.Keyed) (ht : d.root.at? p = some t) :
    Demands (d.Settles n p t) (d.recompute n p t) := by
  intro s
  rw [run_recompute hd s n ht, noCycle_append]
  rfl

/-- The node that a path text leads to settles, if there is one. -/
def TargetSettles (d : Document) (n : Nat) (target : String) : Prop :=
  ∀ q u, d.root.resolve target = some (q, u) → d.Settles n q u

theorem resolve_demands (hd : d.root.Keyed) (target : String) :
    Demands (d.TargetSettles n target) ((d.hooks (d.recompute n) p).resolve target) := by
  dsimp only [hooks]
  cases h : d.root.resolve target with
  | none =>
    refine ((Demands.record (by simp)).bind_free fun _ => .pure _).congr ?_
    simp [TargetSettles, h]
  | some found =>
    obtain ⟨q, u⟩ := found
    refine ((recompute_demands hd (Tree.at?_of_resolve h)).bind_free fun _ => .pure _).congr ?_
    simp [TargetSettles, h]

/-- What taking in a value asks for: a reference asks for the node that it leads to. -/
def TakesIn (d : Document) (n : Nat) : Value → Prop
  | .transformer _ args .reference =>
    ∀ target, Operation.referenceTarget args = .ok target → d.TargetSettles n target
  | _ => True

theorem takesIn_iff_referenceTarget? {v : Value} : d.TakesIn n v ↔
    ∀ target, v.referenceTarget? = some target → d.TargetSettles n target := by
  cases v with
  | transformer name args op =>
    cases op with
    | reference =>
      cases h : Operation.referenceTarget args <;>
        simp [TakesIn, Value.referenceTarget?, h, Except.toOption]
    | _ => simp [TakesIn, Value.referenceTarget?]
  | _ => simp [TakesIn, Value.referenceTarget?]

theorem takesIn_of_referenceTarget?_eq_none {v : Value} (h : v.referenceTarget? = none) :
    d.TakesIn n v := by
  rw [takesIn_iff_referenceTarget?, h]
  exact fun _ hnone => nomatch hnone

theorem settle_demands (current : Value) (key : Key) (o : Outcome) :
    Demands True (Value.settle (d.hooks (d.recompute n) p) current key o) := by
  cases o with
  | fail e => exact (Demands.record (by simp)).bind_free fun _ => .pure _
  | _ => exact .pure _

theorem runReference_demands (hd : d.root.Keyed) (args : List Value) :
    Demands (∀ target, Operation.referenceTarget args = .ok target → d.TargetSettles n target)
      (Operation.runReference (d.hooks (d.recompute n) p) args) := by
  unfold Operation.runReference
  cases h : Operation.referenceTarget args with
  | error e =>
    refine (Demands.pure _).congr ?_
    simp
  | ok target =>
    refine ((resolve_demands hd target).bind_free fun _ => .pure _).congr ?_
    simp

/-- Merging a value of a document into another one demands what taking it in asks for. -/
theorem merge_demands (hd : d.root.Keyed) {incoming : Value}
    (h : Mergeable False Value.Plain incoming) (current : Value) (key : Key) :
    Demands (d.TakesIn n incoming)
      (Value.merge (d.hooks (d.recompute n) p) current incoming key) := by
  cases incoming with
  | transformer name args op =>
    obtain ⟨-, hop⟩ := h
    cases op with
    | reference => exact (runReference_demands hd args).bind_free (settle_demands current key)
    | convert target => exact (Demands.pure _).bind_free (settle_demands current key)
    | smart tag => exact (Demands.pure _).bind_free (settle_demands current key)
    | _ => simp [Operation.isBuiltin] at hop
  | _ => exact .pure _

theorem takeIn_demands (hd : d.root.Keyed) {incoming : Value}
    (h : Mergeable False Value.Plain incoming) (yields : Bool) (acc : Value) (key : Key) :
    Demands (d.TakesIn n incoming)
      (takeIn (d.hooks (d.recompute n) p) yields acc incoming key) := by
  unfold takeIn
  split
  · next hyields =>
    have hmarkup : incoming.isMarkup = true := (Bool.and_eq_true_iff.mp hyields).2
    have htakes : d.TakesIn n incoming := takesIn_of_referenceTarget?_eq_none
      (Value.referenceTarget?_of_kind_ne (Value.kind_ne_of_isMarkup hmarkup))
    exact (Demands.pure _).congr (iff_of_true trivial htakes)
  · exact merge_demands hd h acc key

/-- Folding the children demands that each of them settles, and what taking in its value asks
for. -/
theorem foldChildren_demands (hd : d.root.Keyed) (hr : d.registry.Allows False)
    {children : List (Key × Tree)}
    (hchildren : ∀ k c, (k, c) ∈ children → d.root.at? (p ++ [k]) = some c) (yields : Bool)
    (acc : Value) :
    Demands (∀ k c, (k, c) ∈ children →
        d.Settles n (p ++ [k]) c ∧ d.TakesIn n (d.valueWithin n (p ++ [k]) c))
      (foldChildren (d.recompute n) (d.hooks (d.recompute n) p) p yields children acc) := by
  induction children generalizing yields acc with
  | nil => exact (Demands.pure acc).congr (by simp)
  | cons e rest ih =>
    obtain ⟨k, c⟩ := e
    have hc := hchildren k c (List.mem_cons_self ..)
    have hvalue : Mergeable False Value.Plain (d.valueWithin n (p ++ [k]) c) :=
      recompute_yields Value.plain_hereditary hr n _ c {}
    have hrest := ih fun k c h => hchildren k c (List.mem_cons_of_mem _ h)
    intro s
    rw [foldChildren_cons, StateM.run_bind, run_recompute hd s n hc]
    rw [((takeIn_demands hd hvalue yields acc k).bind fun acc => hrest false acc) _, noCycle_append]
    simp only [List.mem_cons, Prod.mk.injEq, or_imp, forall_and, and_imp, forall_eq_apply_imp_iff,
      forall_eq, Settles, and_assoc]
    tauto

/-- Within one level more a node settles exactly if its children settle and what taking in their
values asks for. -/
theorem settles_succ_iff_children (hd : d.root.Keyed) (hr : d.registry.Allows False)
    (ht : d.root.at? p = some t) :
    d.Settles (n + 1) p t ↔ ∀ k c, (k, c) ∈ t.subtrees →
      d.Settles n (p ++ [k]) c ∧ d.TakesIn n (d.valueWithin n (p ++ [k]) c) := by
  have hfold := foldChildren_demands hd hr (n := n) (fun _ _ h => Tree.at?_child hd ht h)
    (hasScalarSeed t.kind) (seed t)
  exact ((hfold.bind_free fun _ => .pure _) {}).trans (and_iff_right noCycle_nil)

/-! ## Dependencies -/

/-- A node depends on its children, and on the nodes that the references among them lead to. -/
inductive Depends (d : Document) : Path → Path → Prop
  | child {p t k c} (ht : d.root.at? p = some t) (hc : (k, c) ∈ t.subtrees) :
    Depends d p (p ++ [k])
  | reference {p t k c target q u} (ht : d.root.at? p = some t) (hc : (k, c) ∈ t.subtrees)
    (htarget : c.host.reference? = some target) (hq : d.root.resolve target = some (q, u)) :
    Depends d p q

theorem get?_builtins_eq_reference {tag : String} :
    Registry.builtins.get? tag = some .reference ↔ tag = Operation.referenceTag := by
  have hall : ∀ e ∈ Registry.builtins.entries, e.2 = .reference → e.1 = Operation.referenceTag := by
    decide +kernel
  constructor
  · intro h
    exact hall _ (Assoc.mem_of_get? h) rfl
  · rintro rfl
    decide +kernel

/-- Only a node with the tag of references gives one. -/
theorem referenceTarget?_finish (hr : d.registry = Registry.builtins)
    (htag : Text.lower (t.host.tag?.getD "") ≠ Operation.referenceTag) (content : Value) :
    (d.finish p t content).referenceTarget? = none := by
  by_cases hkind : t.kind = .transformer
  · simp only [finish, hkind, generate, hr]
    split
    · next op hop =>
      cases op with
      | reference => exact absurd (get?_builtins_eq_reference.mp hop) htag
      | _ => rfl
    · rfl
  · exact Value.referenceTarget?_of_kind_ne (kind_finish content hkind ▸ hkind)

/-- The transformer of a reference that settles has the text as its argument. -/
theorem valueWithin_reference (hd : d.root.Keyed) (hr : d.registry = Registry.builtins)
    {o : Options} {tag s : String} {attrs : Attributes}
    (htag : Text.lower tag = Operation.referenceTag)
    (hc : d.root.at? p = some (.ofHost Registry.builtins o (.element tag attrs [.text s])))
    (hp : d.Settles n p (.ofHost Registry.builtins o (.element tag attrs [.text s]))) :
    d.valueWithin n p (.ofHost Registry.builtins o (.element tag attrs [.text s])) =
      .transformer (invocationName p Operation.referenceTag) [.text s] .reference := by
  let c : Tree := .ofHost Registry.builtins o (.element tag attrs [.text s])
  have hkind : c.kind = .transformer := by
    change Tree.classify Registry.builtins (Text.lower tag) = _
    rw [htag]
    decide +kernel
  have hchild : (Key.position 0, Tree.ofHost Registry.builtins o (.text s)) ∈ c.subtrees :=
    List.mem_singleton.mpr rfl
  have hseed : seed c = .array [] := by simp only [seed, hkind]
  have hyields : hasScalarSeed c.kind = false := by rw [hkind]; rfl
  have htag' : Text.lower (c.host.tag?.getD "") = Operation.referenceTag := htag
  -- The reference and its text are two computations inside each other.
  match n, hp with
  | 0, hp => exact absurd hp not_settles_zero
  | 1, hp =>
    have hall : d.registry.Allows False := hr ▸ Registry.builtins_allows False
    exact absurd ((settles_succ_iff_children hd hall hc).mp hp _ _ hchild).1 not_settles_zero
  | n + 2, hp =>
    let f := d.recompute (n + 1)
    have hcontent : ((foldChildren f (d.hooks f p) p (hasScalarSeed c.kind) c.subtrees
        (seed c)).run {}).1 = .array [.text s] := by
      rw [hyields, hseed]
      rfl
    change d.finish p c ((foldChildren f (d.hooks f p) p (hasScalarSeed c.kind) c.subtrees
      (seed c)).run {}).1 = _
    rw [hcontent]
    simp only [finish, hkind, generate, htag', hr, get?_builtins_eq_reference.mpr rfl, argumentsOf]

/-- A wrapped host with the transformers of documents, in which the content of every reference is a
single text. -/
structure Referring (d : Document) : Prop where
  keyed : d.root.Keyed
  registry : d.registry = Registry.builtins
  node : ∀ p t, d.root.at? p = some t →
    ∃ o m, m.RefersByText ∧ Tree.ofHost Registry.builtins o m = t

theorem referring_ofHost (o : Options) {host : Node} (hrefs : host.RefersByText) :
    (ofHost Registry.builtins o host).Referring where
  keyed := Tree.ofHost_keyed Registry.builtins o host
  registry := rfl
  node _ _ ht := by
    obtain ⟨m, hm, heq⟩ := Tree.exists_ofHost_of_at? Node.RefersByText.children hrefs ht
    exact ⟨o, m, hm, heq⟩

theorem Referring.allows (hd : d.Referring) : d.registry.Allows False :=
  hd.registry ▸ Registry.builtins_allows False

theorem Referring.exists_text (hd : d.Referring) (ht : d.root.at? p = some t)
    (htag : Text.lower (t.host.tag?.getD "") = Operation.referenceTag) :
    ∃ o tag attrs s, Text.lower tag = Operation.referenceTag ∧
      t = .ofHost Registry.builtins o (.element tag attrs [.text s]) := by
  obtain ⟨o, m, hm, rfl⟩ := hd.node p t ht
  rw [Tree.host_ofHost] at htag
  cases m with
  | text s =>
    have hempty : Text.lower "" ≠ Operation.referenceTag := by decide +kernel
    exact absurd htag hempty
  | element tag attrs children =>
    obtain ⟨s, rfl⟩ := hm.1 htag
    exact ⟨o, tag, attrs, s, htag, rfl⟩

/-- Where a node that settles refers to can be told from its host. -/
theorem referenceTarget?_valueWithin (hd : d.Referring) (ht : d.root.at? p = some t)
    (hp : d.Settles n p t) : (d.valueWithin n p t).referenceTarget? = t.host.reference? := by
  by_cases htag : Text.lower (t.host.tag?.getD "") = Operation.referenceTag
  · obtain ⟨o, tag, attrs, s, htag', rfl⟩ := hd.exists_text ht htag
    rw [valueWithin_reference hd.keyed hd.registry htag' ht hp, Tree.host_ofHost]
    simp [Value.referenceTarget?, Operation.referenceTarget, Except.toOption, Node.reference?,
      htag']
  · rw [Node.reference?_eq_none htag]
    cases n with
    | zero => exact absurd hp not_settles_zero
    | succ n => exact referenceTarget?_finish hd.registry htag _

/-- For a node that settles, what taking in its value asks for can be told from its host. -/
theorem takesIn_iff (hd : d.Referring) (ht : d.root.at? p = some t) (hp : d.Settles n p t) :
    d.TakesIn n (d.valueWithin n p t) ↔
      ∀ target, t.host.reference? = some target → d.TargetSettles n target := by
  rw [takesIn_iff_referenceTarget?, referenceTarget?_valueWithin hd ht hp]

/-- Within one level more a node settles exactly if all that it depends on settles. -/
theorem settles_succ_iff (hd : d.Referring) (ht : d.root.at? p = some t) :
    d.Settles (n + 1) p t ↔ ∀ q, d.Depends p q → ∃ u, d.root.at? q = some u ∧ d.Settles n q u := by
  have hat : ∀ {k c}, (k, c) ∈ t.subtrees → d.root.at? (p ++ [k]) = some c :=
    fun hc => Tree.at?_child hd.keyed ht hc
  rw [settles_succ_iff_children hd.keyed hd.allows ht]
  constructor
  · intro h q hq
    cases hq with
    | child ht' hc =>
      cases ht.symm.trans ht'
      exact ⟨_, hat hc, (h _ _ hc).1⟩
    | reference ht' hc htarget hq =>
      cases ht.symm.trans ht'
      obtain ⟨hsettles, htakes⟩ := h _ _ hc
      have htargets := (takesIn_iff hd (hat hc) hsettles).mp htakes
      exact ⟨_, Tree.at?_of_resolve hq, htargets _ htarget _ _ hq⟩
  · intro h k c hc
    have hsettles : d.Settles n (p ++ [k]) c := by
      obtain ⟨u, hu, hsettles⟩ := h _ (.child ht hc)
      cases (hat hc).symm.trans hu
      exact hsettles
    refine ⟨hsettles, (takesIn_iff hd (hat hc) hsettles).mpr fun target htarget q u hq => ?_⟩
    obtain ⟨w, hw, hsettles⟩ := h q (.reference ht hc htarget hq)
    cases (Tree.at?_of_resolve hq).symm.trans hw
    exact hsettles

/-! ## Cycles -/

theorem Depends.node (hd : d.root.Keyed) {p q : Path} (h : d.Depends p q) :
    ∃ u, d.root.at? q = some u := by
  cases h with
  | child ht hc => exact ⟨_, Tree.at?_child hd ht hc⟩
  | reference ht hc htarget hq => exact ⟨_, Tree.at?_of_resolve hq⟩

/-- Finitely many nodes are reached from a node by a relation that leads to nodes. -/
theorem finite_reached {R : Path → Path → Prop} (hR : ∀ p q, R p q → ∃ u, d.root.at? q = some u)
    (ht : d.root.at? p = some t) : Finite { q // ReflTransGen R p q } := by
  have hlisted : ∀ q, ReflTransGen R p q → q ∈ (d.root.nodes.map Prod.fst).toFinset := by
    intro q hq
    have hnode : ∃ u, d.root.at? q = some u := by
      rcases hq.cases_tail with rfl | ⟨_, -, hlast⟩
      · exact ⟨t, ht⟩
      · exact hR _ _ hlast
    obtain ⟨u, hu⟩ := hnode
    rw [List.mem_toFinset]
    exact List.mem_map_of_mem (Tree.mem_nodes_of_at? hu)
  exact Finite.of_injective _ (Subtype.map_injective hlisted Function.injective_id)

/-- What a node has if all nodes that it leads to have it, every node has from which no cycle is
reached. -/
theorem induction_of_acyclic {R : Path → Path → Prop} {motive : Path → Tree → Prop}
    (hR : ∀ p q, R p q → ∃ u, d.root.at? q = some u) (ht : d.root.at? p = some t)
    (hacyclic : ∀ q, ReflTransGen R p q → ¬TransGen R q q)
    (step : ∀ q u, ReflTransGen R p q → d.root.at? q = some u →
      (∀ q' u', R q q' → d.root.at? q' = some u' → motive q' u') → motive q u) : motive p t := by
  let Below (x y : { q // ReflTransGen R p q }) : Prop := TransGen R y.1 x.1
  have hfinite : Finite { q // ReflTransGen R p q } := finite_reached hR ht
  have htrans : IsTrans _ Below := ⟨fun _ _ _ hxy hyz => hyz.trans hxy⟩
  have hirrefl : Std.Irrefl Below := ⟨fun x => hacyclic x.1 x.2⟩
  have hwf : WellFounded Below := Finite.wellFounded_of_trans_of_irrefl Below
  have hall : ∀ x : { q // ReflTransGen R p q }, ∀ u, d.root.at? x.1 = some u →
      motive x.1 u := by
    intro x
    induction x using hwf.induction with
    | _ x ih =>
      intro u hu
      exact step x.1 u x.2 hu fun q w hq hw => ih ⟨q, x.2.tail hq⟩ (.single hq) w hw
  exact hall ⟨p, .refl⟩ t ht

/-- Where no cycle of dependencies is reached, a node settles. -/
theorem settles_of_acyclic (hd : d.Referring) (ht : d.root.at? p = some t)
    (hacyclic : ∀ q, ReflTransGen d.Depends p q → ¬TransGen d.Depends q q) :
    d.Settles d.bound p t := by
  refine induction_of_acyclic (fun _ _ h => h.node hd.keyed) ht hacyclic fun q u _ hu ih => ?_
  have hsucc : d.Settles (d.bound + 1) q u := by
    refine (settles_succ_iff hd hu).mpr fun q' hq => ?_
    obtain ⟨w, hw⟩ := hq.node hd.keyed
    exact ⟨w, hw, ih q' w hq hw⟩
  exact hsucc.within_bound hd.keyed hu

theorem Settles.of_depends (hd : d.Referring) (ht : d.root.at? p = some t) (hp : d.Settles n p t)
    {q : Path} (hq : d.Depends p q) : ∃ m < n, ∃ u, d.root.at? q = some u ∧ d.Settles m q u := by
  cases n with
  | zero => exact absurd hp not_settles_zero
  | succ n => exact ⟨n, n.lt_succ_self, (settles_succ_iff hd ht).mp hp q hq⟩

/-- What is reached from a node that settles needs less depth. -/
theorem Settles.of_transGen (hd : d.Referring) (ht : d.root.at? p = some t) (hp : d.Settles n p t)
    {q : Path} (hq : TransGen d.Depends p q) :
    ∃ m < n, ∃ u, d.root.at? q = some u ∧ d.Settles m q u := by
  induction hq with
  | single hq => exact hp.of_depends hd ht hq
  | tail _ hq ih =>
    obtain ⟨m, hm, u, hu, hsettles⟩ := ih
    obtain ⟨l, hl, hnext⟩ := hsettles.of_depends hd hu hq
    exact ⟨l, hl.trans hm, hnext⟩

/-- A node on a cycle of dependencies does not settle: it would need less depth than itself. -/
theorem not_settles_of_cycle (hd : d.Referring) (ht : d.root.at? p = some t)
    (hcycle : TransGen d.Depends p p) : ¬d.Settles n p t := by
  induction n using Nat.strong_induction_on with | _ n ih
  intro hp
  obtain ⟨m, hm, u, hu, hsettles⟩ := hp.of_transGen hd ht hcycle
  cases ht.symm.trans hu
  exact ih m hm hsettles

theorem settles_iff_acyclic (hd : d.Referring) (ht : d.root.at? p = some t) :
    d.Settles d.bound p t ↔ ∀ q, ReflTransGen d.Depends p q → ¬TransGen d.Depends q q := by
  constructor
  · intro hp q hq hcycle
    rcases reflTransGen_iff_eq_or_transGen.mp hq with rfl | hq
    · exact not_settles_of_cycle hd ht hcycle hp
    · obtain ⟨m, -, u, hu, hsettles⟩ := hp.of_transGen hd ht hq
      exact not_settles_of_cycle hd hu hcycle hsettles
  · exact settles_of_acyclic hd ht

/-- On a fresh tree no cycle is met exactly if the node settles. -/
theorem noCycle_fresh_iff_settles (hd : d.root.Keyed) (ht : d.root.at? p = some t) :
    NoCycle ((d.evaluateNode p t).run {}).2.errors ↔ d.Settles d.bound p t := by
  refine ⟨settles_of_fresh hd ht, fun hp => ?_⟩
  obtain ⟨-, -, es, hes, hno, -⟩ := quiet_fresh.faithful hd ht hp
  rw [run_evaluateNode]
  dsimp only
  rw [hes]
  exact hno

/-- With the transformers of documents, and where the content of every reference is a single text,
evaluating a node of a fresh tree meets a cycle exactly if a cycle of dependencies is reached from
the node, in lax and in strict mode. -/
theorem evaluateNode_cycle_iff (o : Options) (host : Node) (hrefs : host.RefersByText)
    (ht : (ofHost Registry.builtins o host).root.at? p = some t) :
    let d := ofHost Registry.builtins o host
    (∃ q, .cycle q ∈ ((d.evaluateNode p t).run {}).2.errors) ↔
      ∃ q, ReflTransGen d.Depends p q ∧ TransGen d.Depends q q := by
  intro d
  have hd : d.Referring := referring_ofHost o hrefs
  have hno := (noCycle_fresh_iff_settles hd.keyed ht).trans (settles_iff_acyclic hd ht)
  have hcycle := not_congr hno
  simpa only [NoCycle, not_forall, not_not, exists_prop] using hcycle

/-- A string outside of a cycle that is reached from it. -/
theorem evaluateNode_cycle_iff_cyclic :
    cyclicHost.RefersByText ∧
      let d := ofHost Registry.builtins { strict := true } cyclicHost
      ∃ t, d.root.at? [.name "c"] = some t ∧
        ((∃ q, .cycle q ∈ ((d.evaluateNode [.name "c"] t).run {}).2.errors) ↔
          ∃ q, ReflTransGen d.Depends [.name "c"] q ∧ TransGen d.Depends q q) := by
  have htags : Text.lower "record" ≠ Operation.referenceTag ∧
      Text.lower "string" ≠ Operation.referenceTag := by decide +kernel
  have hrefs : cyclicHost.RefersByText := by
    simp [cyclicHost, Node.RefersByText, Node.AllReferByText, htags]
  refine ⟨hrefs, ?_⟩
  intro d
  have hsome : (d.root.at? [.name "c"]).isSome := by decide +kernel
  refine ⟨_, (Option.some_get hsome).symm, ?_⟩
  exact evaluateNode_cycle_iff { strict := true } cyclicHost hrefs (Option.some_get hsome).symm

end Document
end MarkupEval
