import MarkupEval.Proofs.Evaluation.History

/-!
# What lax evaluation keeps

With the transformers of documents a node that is no transformer gives a value of its own kind in
which there is no transformer (`fits_compute`), so that lax mode keeps it. Between calls, therefore,
whenever a node is stored, so is every node below it, transformers apart. During a call this can
fail: a node that was reached through a reference is stored while one below it is still being
computed. What holds all the time is that on the way from a stored node down to one that is not
stored there is a node that is being computed (`Covered`). Every evaluation keeps that
(`filled_valueOf`), and between calls no node is being computed (`evaluateNode_complete`).
-/

namespace MarkupEval
namespace Document

variable {d : Document} {p : Path} {t : Tree} {s : Store}

/-! ## The values that nodes give -/

theorem valueOf_yields (hr : d.registry.Allows False) (fuel : Nat) (p : Path) (t : Tree) :
    Yields (Mergeable False Value.Plain) (d.valueOf fuel p t) := by
  have hplain := Value.plain_hereditary
  induction fuel using Nat.strong_induction_on generalizing p t with | _ fuel ih
  intro s
  refine run_valueOf_cases (motive := fun r => Mergeable False Value.Plain r.1) ?_ ?_ ?_ ?_
  · exact fun v _ => .of_hereditary hplain v.plain_toValue
  · exact fun _ _ => .of_hereditary hplain hplain.null
  · exact fun _ _ => .of_hereditary hplain hplain.null
  · rintro n rfl - -
    exact compute_yields hplain hr (ih n n.lt_succ_self) p t _

theorem kind_compute {f : Path → Tree → StateM Store Value} (h : t.kind ≠ .transformer) :
    ((d.compute f p t).run s).1.kind = t.kind := kind_finish _ h

/-- What a node that is no transformer is worth: a plain value of its kind. -/
structure Fits (t : Tree) (v : Value) : Prop where
  kind : v.kind = t.kind
  plain : v.Plain

theorem fits_compute (hr : d.registry.Allows False) (fuel : Nat) (h : t.kind ≠ .transformer) :
    Fits t ((d.compute (d.valueOf fuel) p t).run s).1 := by
  have hkind : ((d.compute (d.valueOf fuel) p t).run s).1.kind = t.kind := kind_compute h
  have hmergeable := compute_yields Value.plain_hereditary hr (valueOf_yields hr fuel) p t s
  exact ⟨hkind, hmergeable.of_kind_ne (hkind ▸ h)⟩

/-- What is stored once a result has been kept or not. -/
theorem get?_keepResult {v : Value} {before : Nat} {q : Path} {w : Stored}
    (h : Assoc.get? q (d.keepResult p t v before s).memo = some w) :
    Assoc.get? q s.memo = some w ∨ q = p ∧ w = .ofValue v ∧ t.kind ≠ .transformer := by
  unfold keepResult at h
  split at h
  · next hkept =>
    simp only [Store.keep, Assoc.get?_insert] at h
    split at h
    · next heq =>
      have hkind : t.kind ≠ .transformer := by
        intro hkind
        simp [isKept, hkind] at hkept
      exact .inr ⟨heq, (Option.some.inj h).symm, hkind⟩
    · exact .inl h
  · exact .inl h

/-- In lax mode a result that fits is kept, whatever problems there were. -/
theorem keepResult_of_fits (hlax : d.options.strict = false) {v : Value} {before : Nat}
    (h : t.kind ≠ .transformer) (hv : Fits t v) :
    d.keepResult p t v before s = s.keep p (.ofValue v) := by
  have hopaque := Stored.not_isOpaque_ofValue hv.plain.transformerFree
  simp [keepResult, isKept, h, hlax, hopaque]

/-! ## Covered nodes -/

/-- Every node from a path downwards is stored or a transformer, or there is one that is being
computed on the way to it. -/
def Covered (d : Document) (s : Store) (p : Path) : Prop :=
  ∀ q u, p <+: q → d.root.at? q = some u → u.kind ≠ .transformer →
    s.isStored q ∨ ∃ a ∈ s.active, p <+: a ∧ a <+: q

theorem covered_of_active (h : p ∈ s.active) : d.Covered s p :=
  fun _ _ hq _ _ => .inr ⟨p, h, List.prefix_refl p, hq⟩

theorem Covered.mono {a : Store} (h : d.Covered s p) (hactive : s.active ⊆ a.active)
    (hstored : ∀ q, s.isStored q → a.isStored q) : d.Covered a p := by
  intro q u hq hu hkind
  rcases h q u hq hu hkind with hq' | ⟨c, hc, hpc, hcq⟩
  · exact .inl (hstored q hq')
  · exact .inr ⟨c, hactive hc, hpc, hcq⟩

theorem Covered.of_extends {a : Store} (h : d.Covered s p) (ha : Extends s a) : d.Covered a p :=
  h.mono (fun _ hc => ha.active ▸ hc) fun _ => ha.stored

/-- Where a node that is being computed stood in the way, the nodes below are covered by it once it
is done. -/
theorem Covered.leave {a b : Store} {x : Path} (hx : d.Covered a x) (hp : d.Covered b p)
    (hactive : a.active = p :: b.active) (hstored : ∀ q, a.isStored q → b.isStored q) :
    d.Covered b x := by
  intro q u hq hu hkind
  rcases hx q u hq hu hkind with hq' | ⟨c, hc, hxc, hcq⟩
  · exact .inl (hstored q hq')
  rcases List.mem_cons.mp (hactive ▸ hc) with rfl | hc
  · rcases hp q u hcq hu hkind with hq' | ⟨e, he, hce, heq⟩
    · exact .inl hq'
    · exact .inr ⟨e, he, hxc.trans hce, heq⟩
  · exact .inr ⟨c, hc, hxc, hcq⟩

/-- A node is covered if it is kept and its children are covered. It does not stand in the way of
its children itself. -/
theorem covered_of_children {a b : Store} (ht : d.root.at? p = some t)
    (hchildren : ∀ k c, (k, c) ∈ t.subtrees → d.Covered a (p ++ [k]))
    (hactive : a.active = p :: b.active) (hstored : ∀ q, a.isStored q → b.isStored q)
    (hself : t.kind ≠ .transformer → b.isStored p) : d.Covered b p := by
  rintro q u ⟨r, rfl⟩ hu hkind
  have hbelow : t.at? r = some u := by simpa [Tree.at?_append, ht] using hu
  cases r with
  | nil =>
    cases hbelow
    rw [List.append_nil]
    exact .inl (hself hkind)
  | cons k r =>
    obtain ⟨c, hc, -⟩ := Option.bind_eq_some_iff.mp hbelow
    have hq : p ++ [k] <+: p ++ k :: r := ⟨r, by simp⟩
    rcases hchildren k c (Assoc.mem_of_get? hc) _ u hq hu hkind with h | ⟨e, he, hke, heq⟩
    · exact .inl (hstored _ h)
    rcases List.mem_cons.mp (hactive ▸ he) with rfl | he
    · simpa using hke.length_le
    · exact .inr ⟨e, he, (List.prefix_append p [k]).trans hke, heq⟩

/-- What is stored is of the kind of its node, and the nodes below are covered. -/
structure Filled (d : Document) (s : Store) : Prop where
  kind : ∀ p v, Assoc.get? p s.memo = some v →
    ∃ t, d.root.at? p = some t ∧ v.toValue.kind = t.kind
  covered : ∀ p, s.isStored p → d.Covered s p

theorem filled_of_memo_eq_nil (h : s.memo = []) : d.Filled s := by
  refine ⟨fun p v hv => ?_, fun p hp => ?_⟩
  · simp [h] at hv
  · simp [Store.isStored, h] at hp

theorem Filled.clear (h : d.Filled s) : d.Filled { s with errors := [] } := ⟨h.kind, h.covered⟩

theorem Filled.record (h : d.Filled s) (e : EvalError) : d.Filled (s.record e) :=
  ⟨h.kind, h.covered⟩

theorem Filled.enter (h : d.Filled s) (p : Path) : d.Filled (s.enter p) :=
  ⟨h.kind, fun x hx => (h.covered x hx).mono (List.subset_cons_self ..) fun _ hq => hq⟩

theorem isStored_of_get? {v : Stored} (h : Assoc.get? p s.memo = some v) : s.isStored p := by
  simp [Store.isStored, h]

/-- The end of the computation of a node whose children are covered. -/
theorem Filled.leave (hlax : d.options.strict = false) {a : Store} (ha : d.Filled a)
    (hactive : a.active = p :: s.active) (ht : d.root.at? p = some t)
    (hchildren : ∀ k c, (k, c) ∈ t.subtrees → d.Covered a (p ++ [k])) {v : Value}
    (hv : t.kind ≠ .transformer → Fits t v) (before : Nat) :
    let b := d.keepResult p t v before (a.leave p)
    d.Filled b ∧ d.Covered b p := by
  intro b
  have hleave : a.active = p :: b.active := by
    rw [active_keepResult, Store.leave, hactive]
    exact congrArg (p :: ·) (List.erase_cons_head ..).symm
  have hstored : ∀ q, a.isStored q → b.isStored q := fun _ hq => isStored_keepResult hq
  have hself : t.kind ≠ .transformer → b.isStored p := by
    intro hkind
    simp only [b]
    rw [keepResult_of_fits hlax hkind (hv hkind)]
    exact isStored_keep.mpr (.inl rfl)
  have hp : d.Covered b p := covered_of_children ht hchildren hleave hstored hself
  refine ⟨⟨fun x w hw => ?_, fun x hx => ?_⟩, hp⟩
  · rcases get?_keepResult hw with hw | ⟨rfl, rfl, hkind⟩
    · exact ha.kind x w hw
    · have hfits := hv hkind
      exact ⟨t, ht, by rw [Stored.toValue_ofValue_of_plain hfits.plain, hfits.kind]⟩
  · obtain ⟨w, hw⟩ := Option.isSome_iff_exists.mp hx
    rcases get?_keepResult hw with hw | ⟨rfl, -, -⟩
    · exact (ha.covered x (isStored_of_get? hw)).leave hp hleave hstored
    · exact hp

/-- Every evaluation in lax mode keeps a store filled, and it covers the node that is evaluated. -/
theorem filled_valueOf (hd : d.root.Keyed) (hr : d.registry.Allows False)
    (hlax : d.options.strict = false) (fuel : Nat) (ht : d.root.at? p = some t) (hs : d.Filled s)
    (hnested : d.Nested fuel s.active) :
    d.Filled ((d.valueOf fuel p t).run s).2 ∧ d.Covered ((d.valueOf fuel p t).run s).2 p := by
  induction fuel using Nat.strong_induction_on generalizing p t s with | _ fuel ih
  refine run_valueOf_cases (motive := fun r => d.Filled r.2 ∧ d.Covered r.2 p) ?_ ?_ ?_ ?_
  · exact fun v hv => ⟨hs, hs.covered p (isStored_of_get? hv)⟩
  · exact fun hmem _ => ⟨hs.record _, covered_of_active hmem⟩
  · exact fun hmem hfuel => absurd hfuel (hnested.fuel_ne_zero ht hmem)
  · rintro n rfl hmem -
    have hnested' : d.Nested n (s.enter p).active := hnested.cons ht hmem
    have hask : ∀ q u, d.root.at? q = some u → ∀ a, d.Filled a → a.active = p :: s.active →
        d.Filled ((d.valueOf n q u).run a).2 ∧ d.Covered ((d.valueOf n q u).run a).2 q :=
      fun q u hu a ha hactive => ih n n.lt_succ_self hu ha (hactive ▸ hnested')
    have hkeeps := valueOf_keeps hd fun q u hu a ha hactive => (hask q u hu a ha hactive).1
    have henter : d.Filled (s.enter p) ∧ (s.enter p).active = p :: s.active := ⟨hs.enter p, rfl⟩
    obtain ⟨hfilled, hactive⟩ := compute_keeps hd (fun _ e _ h => ⟨h.1.record e, h.2⟩) hkeeps ht _
      henter
    refine hfilled.leave hlax hactive ht (fun k c hc => ?_) (fits_compute hr n) _
    -- A child is covered when it has been asked for, and it stays covered.
    have hchild := Tree.at?_child hd ht hc
    refine (compute_reaches hd
      (J := fun a => (d.Filled a ∧ a.active = p :: s.active) ∧ d.Covered a (p ++ [k]))
      (fun _ e _ h => ⟨h.1.record e, h.2⟩) (fun _ e _ h => ⟨⟨h.1.1.record e, h.1.2⟩, h.2⟩) hkeeps
      ?_ ht hc ?_ henter).2
    · exact fun q u hu a h => ⟨hkeeps q u hu a h.1, h.2.of_extends (extends_valueOf hd n hu a)⟩
    · exact fun a h => ⟨hkeeps _ c hchild a h, (hask _ c hchild a h.1 h.2).2⟩

/-- A node that is not being computed gives a value that fits, and gives it from the store the next
time. -/
theorem fits_valueOf (hr : d.registry.Allows False) (hlax : d.options.strict = false) {fuel : Nat}
    (ht : d.root.at? p = some t) (hkind : t.kind ≠ .transformer) (hs : d.Filled s)
    (hmem : p ∉ s.active) (hfuel : fuel ≠ 0) :
    let r := (d.valueOf fuel p t).run s
    Fits t r.1 ∧ ∃ v, Assoc.get? p r.2.memo = some v ∧ v.toValue = r.1 := by
  refine run_valueOf_cases (motive := fun r =>
    Fits t r.1 ∧ ∃ v, Assoc.get? p r.2.memo = some v ∧ v.toValue = r.1) ?_ ?_ ?_ ?_
  · intro v hv
    obtain ⟨u, hu, hvkind⟩ := hs.kind p v hv
    cases ht.symm.trans hu
    exact ⟨⟨hvkind, v.plain_toValue⟩, v, hv, rfl⟩
  · exact fun h _ => absurd h hmem
  · exact fun _ h => absurd h hfuel
  · rintro n rfl - -
    have hfits : Fits t ((d.compute (d.valueOf n) p t).run (s.enter p)).1 := fits_compute hr n hkind
    refine ⟨hfits, _, ?_, Stored.toValue_ofValue_of_plain hfits.plain⟩
    rw [keepResult_of_fits hlax hkind hfits, Store.keep, Assoc.get?_insert, if_pos rfl]

/-! ## Between calls -/

/-- No node is being computed, and the nodes below a stored one are stored. -/
structure Complete (d : Document) (s : Store) : Prop where
  active : s.active = []
  filled : d.Filled s

theorem Complete.nested (h : d.Complete s) : d.Nested d.root.nodes.length s.active :=
  h.active ▸ nested_nil

theorem complete_afterCalls (hd : d.root.Keyed) (hr : d.registry.Allows False)
    (hlax : d.options.strict = false) (calls : List Call) : d.Complete (d.afterCalls calls) := by
  refine afterCalls_keeps ⟨rfl, filled_of_memo_eq_nil rfl⟩
    (fun s hs => ⟨hs.active, filled_of_memo_eq_nil rfl⟩) (fun p t ht s hs => ?_) calls
  rw [run_evaluateNode]
  refine ⟨(extends_valueOf hd _ ht _).active.trans hs.active, ?_⟩
  exact (filled_valueOf hd hr hlax _ ht hs.filled.clear hs.nested).1

theorem Covered.isStored (h : d.Covered s p) (hactive : s.active = []) {q : Path} {u : Tree}
    (hq : p <+: q) (hu : d.root.at? q = some u) (hkind : u.kind ≠ .transformer) :
    s.isStored q := by
  rcases h q u hq hu hkind with h | ⟨a, ha, -⟩
  · exact h
  · simp [hactive] at ha

/-- In lax mode, with the transformers of documents, a call after any others on a node that is no
transformer gives a value of the kind of the node without transformers, keeps a result for the node
and for all nodes below it that are no transformers, and gives the same value once more without a
problem. -/
theorem evaluateNode_complete (o : Options) (hlax : o.strict = false) (host : Node)
    (calls : List Call) (ht : (ofHost Registry.builtins o host).root.at? p = some t)
    (hkind : t.kind ≠ .transformer) :
    let d := ofHost Registry.builtins o host
    let first := (d.evaluateNode p t).run (d.afterCalls calls)
    let second := (d.evaluateNode p t).run first.2
    (∃ v, first.1 = .ok v ∧ v.kind = t.kind ∧ v.TransformerFree ∧ second.1 = .ok v) ∧
      (∀ q u, t.at? q = some u → u.kind ≠ .transformer → first.2.isStored (p ++ q)) ∧
      second.2.errors = [] := by
  intro d first second
  have hd : d.root.Keyed := Tree.ofHost_keyed Registry.builtins o host
  have hr : d.registry.Allows False := Registry.builtins_allows False
  have hs : d.Complete (d.afterCalls calls) := complete_afterCalls hd hr hlax calls
  have hfilled : d.Filled { d.afterCalls calls with errors := [] } := hs.filled.clear
  have hmem : p ∉ (d.afterCalls calls).active := by simp [hs.active]
  obtain ⟨hfits, v, hv, hvalue⟩ := fits_valueOf hr hlax ht hkind hfilled hmem
    (hs.nested.fuel_ne_zero ht hmem)
  have hcovered := (filled_valueOf hd hr hlax _ ht hfilled hs.nested).2
  have hactive := (extends_valueOf hd d.root.nodes.length ht
    { d.afterCalls calls with errors := [] }).active.trans hs.active
  simp only [second, first, run_evaluateNode]
  generalize (d.valueOf d.root.nodes.length p t).run _ = r at *
  rw [run_valueOf_of_stored (s := { r.2 with errors := [] }) hv, answer_lax hlax, answer_lax hlax]
  refine ⟨⟨r.1, rfl, hfits.kind, hfits.plain.transformerFree, ?_⟩, fun q u hu hukind => ?_, rfl⟩
  · rw [hvalue]
  · refine hcovered.isStored hactive (List.prefix_append p q) ?_ hukind
    rw [Tree.at?_append]
    exact (congrArg (·.bind (·.at? q)) ht).trans hu

/-- The string that is read around a cycle, whose text and reference lie below it. -/
theorem evaluateNode_complete_cyclic :
    let d := ofHost Registry.builtins {} cyclicHost
    ∃ t, d.root.at? [.name "a"] = some t ∧ t.kind ≠ .transformer ∧
      let first := (d.evaluateNode [.name "a"] t).run (d.afterCalls [.evaluateNode [.name "c"]])
      let second := (d.evaluateNode [.name "a"] t).run first.2
      (∃ v, first.1 = .ok v ∧ v.kind = t.kind ∧ v.TransformerFree ∧ second.1 = .ok v) ∧
        (∀ q u, t.at? q = some u → u.kind ≠ .transformer → first.2.isStored ([.name "a"] ++ q)) ∧
        second.2.errors = [] := by
  intro d
  have hsome : (d.root.at? [.name "a"]).isSome := by decide +kernel
  have hkinds : ∀ t ∈ d.root.at? [.name "a"], t.kind ≠ .transformer := by decide +kernel
  have hkind := hkinds _ (Option.get_mem hsome)
  refine ⟨_, (Option.some_get hsome).symm, hkind, ?_⟩
  exact evaluateNode_complete {} rfl cyclicHost [.evaluateNode [.name "c"]]
    (Option.some_get hsome).symm hkind

end Document
end MarkupEval
