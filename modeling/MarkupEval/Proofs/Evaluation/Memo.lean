import MarkupEval.Proofs.Evaluation.Recomputation
import MarkupEval.Proofs.Value.Restored

/-!
# Evaluation with a store of results

A store is sound if what it keeps for a node is what recomputing the node gives; this may be asked
of all nodes or of some, at least of those that settle. No cycle is then met at a node that settles,
as long as the nodes that are being computed need more depth than it does (`faithful_of_settles`).
Where all nodes count, evaluation and recomputation of a node agree as long as no cycle is met
(`settles_of_noCycle`). In strict mode every evaluation keeps such a store sound (`sound_valueOf`),
and it answers the same from any two of them (`valueOf_agree`).
-/

namespace MarkupEval

open EvalError

namespace Document

variable {d : Document}

/-! ## One evaluation step -/

/-- Keeps a result if that is allowed. -/
def keepResult (d : Document) (p : Path) (t : Tree) (v : Value) (before : Nat) (s : Store) :
    Store :=
  if d.isKept t (.ofValue v) before s.errors.length then s.keep p (.ofValue v) else s

section
variable {fuel : Nat} {p : Path} {t : Tree} {s : Store}

theorem run_valueOf_of_stored {v : Stored} (h : Assoc.get? p s.memo = some v) :
    (d.valueOf fuel p t).run s = (v.toValue, s) := by
  unfold valueOf
  simp only [StateT.run_bind, StateT.run_get, pure_bind, h]
  rfl

theorem run_valueOf_of_active (h : Assoc.get? p s.memo = none) (hp : p ∈ s.active) :
    (d.valueOf fuel p t).run s = (.null, s.record (.cycle p)) := by
  unfold valueOf
  simp only [StateT.run_bind, StateT.run_get, pure_bind, h, hp, if_true]
  rfl

theorem run_valueOf_of_new (h : Assoc.get? p s.memo = none) (hp : p ∉ s.active) :
    (d.valueOf (fuel + 1) p t).run s =
      let r := (d.compute (d.valueOf fuel) p t).run (s.enter p)
      (r.1, d.keepResult p t r.1 s.errors.length (r.2.leave p)) := by
  unfold valueOf
  simp only [StateT.run_bind, StateT.run_get, pure_bind, h, hp, if_false, StateT.run_modify]
  generalize (d.compute (d.valueOf fuel) p t).run (s.enter p) = r
  obtain ⟨v, s'⟩ := r
  change StateT.run (if _ then _ else _) _ = _
  unfold keepResult
  split <;> rfl

theorem run_valueOf_of_exhausted (h : Assoc.get? p s.memo = none) (hp : p ∉ s.active) :
    (d.valueOf 0 p t).run s = (.null, s) := by
  unfold valueOf
  simp only [StateT.run_bind, StateT.run_get, pure_bind, h, hp, if_false]
  rfl

/-- The ways in which a node gets its value. -/
theorem run_valueOf_cases {motive : Value × Store → Prop}
    (stored : ∀ v, Assoc.get? p s.memo = some v → motive (v.toValue, s))
    (active : p ∈ s.active → Assoc.get? p s.memo = none → motive (.null, s.record (.cycle p)))
    (exhausted : p ∉ s.active → fuel = 0 → motive (.null, s))
    (new : ∀ n, fuel = n + 1 → p ∉ s.active → Assoc.get? p s.memo = none →
      motive (((d.compute (d.valueOf n) p t).run (s.enter p)).1,
        d.keepResult p t ((d.compute (d.valueOf n) p t).run (s.enter p)).1 s.errors.length
          (((d.compute (d.valueOf n) p t).run (s.enter p)).2.leave p))) :
    motive ((d.valueOf fuel p t).run s) := by
  cases h : Assoc.get? p s.memo with
  | some v =>
    rw [run_valueOf_of_stored h]
    exact stored v h
  | none =>
    by_cases hp : p ∈ s.active
    · rw [run_valueOf_of_active h hp]
      exact active hp h
    · cases fuel with
      | zero =>
        rw [run_valueOf_of_exhausted h hp]
        exact exhausted hp rfl
      | succ n =>
        rw [run_valueOf_of_new h hp]
        exact new n rfl hp h

/-- What can be told from what is kept holds after an evaluation if it holds once a new value has
been computed. -/
theorem run_valueOf_of_memo {I : Store → Prop} (hmemo : ∀ {a b}, I a → b.memo = a.memo → I b)
    (hs : I s) (hnew : ∀ n, fuel = n + 1 → p ∉ s.active →
      let r := (d.compute (d.valueOf n) p t).run (s.enter p)
      I (d.keepResult p t r.1 s.errors.length (r.2.leave p))) :
    I ((d.valueOf fuel p t).run s).2 :=
  run_valueOf_cases (motive := fun r => I r.2) (fun _ _ => hs) (fun _ _ => hmemo hs rfl)
    (fun _ _ => hs) fun n hn hp _ => hnew n hn hp

@[simp] theorem active_keepResult (v : Value) (before : Nat) :
    (d.keepResult p t v before s).active = s.active := by
  unfold keepResult
  split <;> rfl

@[simp] theorem errors_keepResult (v : Value) (before : Nat) :
    (d.keepResult p t v before s).errors = s.errors := by
  unfold keepResult
  split <;> rfl

end

/-! ## What an evaluation leaves as it was -/

/-- The nodes that are being computed are the same; problems and results were only added. -/
structure Extends (s a : Store) : Prop where
  active : a.active = s.active
  errors : s.errors <+: a.errors
  stored : ∀ {q : Path}, s.isStored q → a.isStored q

theorem Extends.refl (s : Store) : Extends s s := ⟨rfl, List.prefix_refl _, id⟩

theorem Extends.trans {s a b : Store} (h : Extends s a) (h' : Extends a b) : Extends s b :=
  ⟨h'.active.trans h.active, h.errors.trans h'.errors, fun hq => h'.stored (h.stored hq)⟩

theorem Extends.record {s a : Store} (h : Extends s a) (e : EvalError) : Extends s (a.record e) :=
  ⟨h.active, h.errors.trans (List.prefix_append _ _), h.stored⟩

theorem isStored_keep {s : Store} {p q : Path} {v : Stored} :
    (s.keep p v).isStored q ↔ q = p ∨ s.isStored q := by
  simp only [Store.isStored, Store.keep, Assoc.get?_insert]
  split
  · next heq => simp [heq]
  · next hne => simp [hne]

theorem isStored_keepResult {s : Store} {p q : Path} {t : Tree} {v : Value} {before : Nat}
    (h : s.isStored q) : (d.keepResult p t v before s).isStored q := by
  unfold keepResult
  split
  · exact isStored_keep.mpr (.inr h)
  · exact h

theorem extends_valueOf (hd : d.root.Keyed) (fuel : Nat) {p : Path} {t : Tree}
    (ht : d.root.at? p = some t) (s : Store) : Extends s ((d.valueOf fuel p t).run s).2 := by
  induction fuel using Nat.strong_induction_on generalizing p t s with | _ fuel ih
  refine run_valueOf_cases (motive := fun r => Extends s r.2) ?_ ?_ ?_ ?_
  · exact fun _ _ => .refl s
  · exact fun _ _ => (Extends.refl s).record _
  · exact fun _ _ => .refl s
  · rintro n rfl - -
    have hcompute := compute_keeps hd (I := Extends (s.enter p)) (fun _ e _ h => h.record e)
      (fun q u hu a ha => ha.trans (ih n n.lt_succ_self hu a)) ht _ (.refl _)
    refine ⟨?_, ?_, fun hq => isStored_keepResult (hcompute.stored hq)⟩
    · rw [active_keepResult, Store.leave, hcompute.active]
      exact List.erase_cons_head ..
    · rw [errors_keepResult]
      exact hcompute.errors

/-- While the same nodes are being computed, asking for a node keeps a property of states. -/
theorem valueOf_keeps (hd : d.root.Keyed) {I : Store → Prop} {active : List Path} {n : Nat}
    (hask : ∀ q u, d.root.at? q = some u → ∀ a, I a → a.active = active →
      I ((d.valueOf n q u).run a).2) (q : Path) (u : Tree) (hu : d.root.at? q = some u) :
    MarkupEval.Keeps (fun a => I a ∧ a.active = active) (d.valueOf n q u) := fun a h =>
  ⟨hask q u hu a h.1 h.2, (extends_valueOf hd n hu a).active.trans h.2⟩

/-- Computing a node keeps a property of states if asking for other nodes keeps it while the node is
being computed. -/
theorem compute_entered_keeps (hd : d.root.Keyed) {I : Store → Prop}
    (hrecord : ∀ a e, I a → I (a.record e)) {n : Nat} {p : Path} {t : Tree}
    (ht : d.root.at? p = some t) {s : Store}
    (hask : ∀ q u, d.root.at? q = some u → ∀ a, I a → a.active = p :: s.active →
      I ((d.valueOf n q u).run a).2) (hs : I (s.enter p)) :
    let r := (d.compute (d.valueOf n) p t).run (s.enter p)
    I r.2 ∧ r.2.active = p :: s.active :=
  compute_keeps hd (fun a e _ h => ⟨hrecord a e h.1, h.2⟩) (valueOf_keeps hd hask) ht (s.enter p)
    ⟨hs, rfl⟩

/-! ## Sound stores -/

/-- What a node is worth, once it has settled. -/
def value (d : Document) (p : Path) (t : Tree) : Value := d.valueWithin d.bound p t

/-- The problems of a node, once it has settled. -/
def problems (d : Document) (p : Path) (t : Tree) : List EvalError := d.problemsWithin d.bound p t

/-- A result that may be kept for a node: that of recomputing it. In strict mode there is no problem
with it. -/
structure Keeps (d : Document) (p : Path) (t : Tree) (v : Stored) : Prop where
  settles : d.Settles d.bound p t
  eq : v = .ofValue (d.value p t)
  not_isOpaque : v.isOpaque = false
  strict : d.options.strict = true → d.problems p t = []

/-- The stored results of the nodes that count are those of recomputing them. -/
def Sound (d : Document) (Counts : Path → Tree → Prop) (s : Store) : Prop :=
  ∀ p v, Assoc.get? p s.memo = some v → ∃ t, d.root.at? p = some t ∧ (Counts p t → d.Keeps p t v)

/-- Every node counts. -/
def everyNode (_ : Path) (_ : Tree) : Prop := True

theorem everyNode_of {p : Path} {t : Tree} (_ : d.Settles d.bound p t) : everyNode p t := trivial

variable {Counts : Path → Tree → Prop}

theorem sound_of_memo_eq_nil {s : Store} (h : s.memo = []) : d.Sound Counts s := by
  intro p v hv
  simp [h] at hv

theorem Sound.of_memo_eq {s s' : Store} (h : d.Sound Counts s) (hmemo : s'.memo = s.memo) :
    d.Sound Counts s' := fun p v hv => h p v (hmemo ▸ hv)

theorem Sound.keeps {s : Store} (h : d.Sound Counts s) {p : Path} {t : Tree} {v : Stored}
    (ht : d.root.at? p = some t) (hv : Assoc.get? p s.memo = some v) (hp : Counts p t) :
    d.Keeps p t v := by
  obtain ⟨u, hu, hk⟩ := h p v hv
  cases ht.symm.trans hu
  exact hk hp

theorem Keeps.toValue {p : Path} {t : Tree} {v : Stored} (h : d.Keeps p t v) :
    v.toValue = d.value p t := by
  obtain ⟨-, rfl, hv, -⟩ := h
  exact Stored.toValue_ofValue_of_not_isOpaque (wellFormed_valueWithin ..) hv

theorem Sound.keep {s : Store} (h : d.Sound Counts s) {p : Path} {t : Tree} {v : Stored}
    (ht : d.root.at? p = some t) (hk : Counts p t → d.Keeps p t v) :
    d.Sound Counts (s.keep p v) := by
  intro q w hw
  simp only [Store.keep, Assoc.get?_insert] at hw
  split at hw
  · next heq =>
    cases hw
    exact ⟨t, heq ▸ ht, heq ▸ hk⟩
  · exact h q w hw

/-! ## The nodes that are being computed -/

/-- The nodes that are being computed differ, and there is a level of computation for each of the
others. -/
structure Nested (d : Document) (fuel : Nat) (active : List Path) : Prop where
  nodup : active.Nodup
  node : ∀ p ∈ active, ∃ t, d.root.at? p = some t
  enough : d.bound ≤ fuel + active.length

theorem Nested.length_le {fuel : Nat} {active : List Path} (h : d.Nested fuel active) :
    active.length ≤ d.bound := by
  have hsub : active ⊆ d.root.nodes.map Prod.fst := fun p hp => by
    obtain ⟨t, ht⟩ := h.node p hp
    exact List.mem_map_of_mem (Tree.mem_nodes_of_at? ht)
  simpa [bound] using (List.subperm_of_subset h.nodup hsub).length_le

theorem Nested.cons {fuel : Nat} {active : List Path} (h : d.Nested (fuel + 1) active) {p : Path}
    {t : Tree} (ht : d.root.at? p = some t) (hp : p ∉ active) : d.Nested fuel (p :: active) where
  nodup := List.nodup_cons.mpr ⟨hp, h.nodup⟩
  node := List.forall_mem_cons.mpr ⟨⟨t, ht⟩, h.node⟩
  enough := by
    have := h.enough
    simp only [List.length_cons]
    omega

/-- There is a level left for every node that is not being computed. -/
theorem Nested.fuel_ne_zero {fuel : Nat} {active : List Path} (h : d.Nested fuel active) {p : Path}
    {t : Tree} (ht : d.root.at? p = some t) (hp : p ∉ active) : fuel ≠ 0 := by
  rintro rfl
  have hcons : d.Nested 0 (p :: active) :=
    ⟨List.nodup_cons.mpr ⟨hp, h.nodup⟩, List.forall_mem_cons.mpr ⟨⟨t, ht⟩, h.node⟩, by
      have := h.enough
      simp only [List.length_cons]
      omega⟩
  have := hcons.length_le
  have := h.enough
  simp only [List.length_cons] at *
  omega

theorem nested_nil : d.Nested d.root.nodes.length [] := ⟨.nil, by simp, by simp [bound]⟩

/-- A depth that is not enough for any of the nodes that are being computed. -/
def Unsettled (d : Document) (n : Nat) (active : List Path) : Prop :=
  ∀ q ∈ active, ∀ u, d.root.at? q = some u → ¬d.Settles n q u

theorem unsettled_nil (n : Nat) : d.Unsettled n [] := fun _ hq => nomatch hq

theorem Unsettled.of_succ (hd : d.root.Keyed) {n : Nat} {active : List Path}
    (h : d.Unsettled (n + 1) active) : d.Unsettled n active := by
  intro q hq u hu hsettles
  exact h q hq u hu (hsettles.mono hd hu n.le_succ)

theorem Unsettled.cons {n : Nat} {active : List Path} (h : d.Unsettled n active) {p : Path}
    {t : Tree} (ht : d.root.at? p = some t) (hp : ¬d.Settles n p t) :
    d.Unsettled n (p :: active) := by
  intro q hq u hu
  rcases List.mem_cons.mp hq with rfl | hq
  · cases ht.symm.trans hu
    exact hp
  · exact h q hq u hu

/-! ## Evaluation beside recomputation -/

/-- A value and a store that are as good as recomputing the node: the store is sound, and there is
no cycle among the problems that were added. In strict mode they are those of recomputing. -/
structure Faithful (d : Document) (Counts : Path → Tree → Prop) (p : Path) (t : Tree) (s : Store)
    (r : Value × Store) : Prop where
  value : r.1 = d.value p t
  sound : d.Sound Counts r.2
  errors : ∃ es, r.2.errors = s.errors ++ es ∧ NoCycle es ∧
    (d.options.strict = true → es = d.problems p t)

/-- An evaluation that began in the state `s` is now in the state `a`, and recomputation of the same
node, which began without problems, in the state `b`. -/
structure Mirrors (d : Document) (Counts : Path → Tree → Prop) (s a b : Store) : Prop where
  sound : d.Sound Counts a
  active : a.active = s.active
  errors : ∃ es, a.errors = s.errors ++ es ∧ NoCycle es ∧ (d.options.strict = true → es = b.errors)
  noCycle : NoCycle b.errors

theorem Mirrors.start {s : Store} (h : d.Sound Counts s) : d.Mirrors Counts s s {} :=
  ⟨h, rfl, ⟨[], by simp, noCycle_nil, fun _ => rfl⟩, noCycle_nil⟩

theorem Mirrors.record {s a b : Store} (h : d.Mirrors Counts s a b) {e : EvalError}
    (he : ∀ p, e ≠ .cycle p) : d.Mirrors Counts s (a.record e) (b.record e) := by
  obtain ⟨hsound, hactive, ⟨es, hes, hno, hstrict⟩, hb⟩ := h
  refine ⟨hsound.of_memo_eq rfl, hactive, ⟨es ++ [e], ?_, ?_, ?_⟩, ?_⟩
  · simp [Store.record, hes]
  · exact noCycle_append.mpr ⟨hno, noCycle_singleton he⟩
  · intro hs
    simp [Store.record, hstrict hs]
  · exact noCycle_append.mpr ⟨hb, noCycle_singleton he⟩

/-- Asking for a node that settles keeps the two side by side. -/
theorem Mirrors.call (hd : d.root.Keyed) {s a b : Store} (h : d.Mirrors Counts s a b) {n : Nat}
    {p : Path} {t : Tree} (ht : d.root.at? p = some t) (hp : d.Settles n p t) {r : Value × Store}
    (hr : d.Faithful Counts p t a r) (hactive : r.2.active = a.active) :
    r.1 = ((d.recompute n p t).run b).1 ∧ d.Mirrors Counts s r.2 ((d.recompute n p t).run b).2 := by
  obtain ⟨hvalue, hproblems⟩ := hp.eq_bound hd ht
  obtain ⟨es, hes, hno, hstrict⟩ := h.errors
  obtain ⟨fs, hfs, hno', hstrict'⟩ := hr.errors
  rw [run_recompute hd b n ht]
  refine ⟨hr.value.trans hvalue.symm, hr.sound, hactive.trans h.active, ⟨es ++ fs, ?_, ?_, ?_⟩, ?_⟩
  · rw [hfs, hes, List.append_assoc]
  · exact noCycle_append.mpr ⟨hno, hno'⟩
  · intro hs
    rw [hstrict hs, hstrict' hs, hproblems, problems]
  · exact noCycle_append.mpr ⟨h.noCycle, hp⟩

/-- A result that is kept in strict mode came without a new problem. -/
theorem errors_eq_of_isKept (hstrict : d.options.strict = true) {t : Tree} {v : Stored}
    {before after : Nat} (h : d.isKept t v before after = true) : before = after := by
  simp only [isKept, hstrict, Bool.not_true, Bool.or_false, Bool.and_eq_true, beq_iff_eq] at h
  exact h.1.2

theorem not_isOpaque_of_isKept {t : Tree} {v : Stored} {before after : Nat}
    (h : d.isKept t v before after = true) : v.isOpaque = false := by
  simp only [isKept, Bool.and_eq_true, Bool.not_eq_true'] at h
  exact h.2

/-- A computation that ends beside that of recomputing gives a faithful result, whether the result
is kept or not. -/
theorem Mirrors.faithful (hd : d.root.Keyed) {p : Path} {t : Tree} (ht : d.root.at? p = some t)
    {n : Nat} (hp : d.Settles n p t) {s : Store} {r : Value × Store}
    (hvalue : r.1 = d.valueWithin n p t)
    (h : d.Mirrors Counts (s.enter p) r.2 ((d.recompute n p t).run {}).2) :
    d.Faithful Counts p t s (r.1, d.keepResult p t r.1 s.errors.length (r.2.leave p)) := by
  obtain ⟨hbound, hproblems⟩ := hp.eq_bound hd ht
  obtain ⟨es, hes, hno, hstrict⟩ := h.errors
  have hes' : r.2.errors = s.errors ++ es := hes
  have hv : r.1 = d.value p t := hvalue.trans hbound
  have hs : d.options.strict = true → es = d.problems p t := fun hs => (hstrict hs).trans hproblems
  refine ⟨hv, ?_, es, by rw [errors_keepResult]; exact hes', hno, hs⟩
  unfold keepResult
  split
  · next hkept =>
    refine (h.sound.of_memo_eq rfl).keep ht fun _ =>
      ⟨hp.within_bound hd ht, by rw [hv], not_isOpaque_of_isKept hkept, ?_⟩
    intro hstrict'
    have hlength := errors_eq_of_isKept hstrict' hkept
    have hempty : es = [] := by simpa [Store.leave, hes'] using hlength
    rw [← hs hstrict', hempty]
  · exact h.sound.of_memo_eq rfl

/-- No cycle is met at a node that settles within a depth that is not enough for any of the nodes
that are being computed. -/
theorem faithful_of_settles (hd : d.root.Keyed)
    (hcounts : ∀ {p t}, d.Settles d.bound p t → Counts p t) (n fuel : Nat) {p : Path} {t : Tree}
    (ht : d.root.at? p = some t) {s : Store} (hs : d.Sound Counts s)
    (hnested : d.Nested fuel s.active) (hp : d.Settles n p t) (hactive : d.Unsettled n s.active) :
    d.Faithful Counts p t s ((d.valueOf fuel p t).run s) := by
  induction n generalizing fuel p t s with
  | zero => exact absurd hp not_settles_zero
  | succ n ih =>
    have hactive' : d.Unsettled n s.active := hactive.of_succ hd
    -- A node that settles earlier is done; one that does not joins the active nodes below.
    by_cases hpn : d.Settles n p t
    · exact ih fuel ht hs hnested hpn hactive'
    refine run_valueOf_cases (motive := d.Faithful Counts p t s) ?_ ?_ ?_ ?_
    · intro v hv
      have hk := hs.keeps ht hv (hcounts (hp.within_bound hd ht))
      exact ⟨hk.toValue, hs, [], by simp, noCycle_nil, fun hstrict => (hk.strict hstrict).symm⟩
    · exact fun hmem _ => absurd hp (hactive p hmem t ht)
    · exact fun hmem hfuel => absurd hfuel (hnested.fuel_ne_zero ht hmem)
    · rintro m rfl hmem -
      have hnested' : d.Nested m (s.enter p).active := hnested.cons ht hmem
      have hbelow : d.Unsettled n (s.enter p).active := hactive'.cons ht hpn
      have hcall : ∀ q u, d.root.at? q = some u → Sim (d.Mirrors Counts (s.enter p))
          (fun b => NoCycle b.errors) (d.valueOf m q u) (d.recompute n q u) := by
        refine fun q u hu => ⟨(recompute_succ_sim hd n hu).good_before, fun a b h hgood => ?_⟩
        rw [run_recompute hd b n hu] at hgood
        have hq : d.Settles n q u := (noCycle_append.mp hgood).2
        have hfaithful : d.Faithful Counts q u a ((d.valueOf m q u).run a) :=
          ih m hu h.sound (h.active ▸ hnested') hq (h.active ▸ hbelow)
        exact h.call hd hu hq hfaithful (extends_valueOf hd m hu a).active
      have hsim := compute_sim ⟨fun _ h => (noCycle_append.mp h).1, fun he h _ => h.record he⟩ hd
        hcall ht
      obtain ⟨hv, hmirrors⟩ := hsim.agree (s.enter p) {} (.start (hs.of_memo_eq rfl)) hp
      exact Mirrors.faithful hd ht hp hv hmirrors

/-- The problems that were added since a state. -/
def newProblems (s a : Store) : List EvalError := a.errors.drop s.errors.length

theorem newProblems_eq {s a : Store} {es : List EvalError} (h : a.errors = s.errors ++ es) :
    newProblems s a = es := by
  simp [newProblems, h]

theorem newProblems_trans {s a b : Store} (ha : s.errors <+: a.errors)
    (hb : a.errors <+: b.errors) : newProblems s b = newProblems s a ++ newProblems a b := by
  obtain ⟨es, hes⟩ := ha
  obtain ⟨fs, hfs⟩ := hb
  have hall : b.errors = s.errors ++ (es ++ fs) := by
    rw [← hfs, ← hes, List.append_assoc]
  rw [newProblems_eq hall, newProblems_eq hes.symm, newProblems_eq hfs.symm]

theorem noCycle_newProblems_of_extends {s a b : Store} (h : Extends a b)
    (hb : NoCycle (newProblems s b)) : NoCycle (newProblems s a) := by
  obtain ⟨es, hes⟩ := h.errors
  rw [newProblems, ← hes, List.drop_append] at hb
  exact (noCycle_append.mp hb).1

/-- A node at which no cycle is met settles. -/
theorem settles_of_noCycle (hd : d.root.Keyed) (fuel : Nat) {p : Path} {t : Tree}
    (ht : d.root.at? p = some t) {s : Store} (hs : d.Sound everyNode s)
    (hnested : d.Nested fuel s.active)
    (hno : NoCycle (newProblems s ((d.valueOf fuel p t).run s).2)) :
    d.Settles d.bound p t ∧ d.Faithful everyNode p t s ((d.valueOf fuel p t).run s) := by
  induction fuel using Nat.strong_induction_on generalizing p t s with | _ fuel ih
  revert hno
  refine run_valueOf_cases (motive := fun r => NoCycle (newProblems s r.2) →
    d.Settles d.bound p t ∧ d.Faithful everyNode p t s r) ?_ ?_ ?_ ?_
  · intro v hv _
    have hk := hs.keeps ht hv trivial
    exact ⟨hk.settles, hk.toValue, hs, [], by simp, noCycle_nil, fun hstrict =>
      (hk.strict hstrict).symm⟩
  · intro _ _ hno
    rw [newProblems_eq rfl] at hno
    exact absurd hno (not_noCycle_append_cycle (l := []))
  · exact fun hmem hfuel => absurd hfuel (hnested.fuel_ne_zero ht hmem)
  · rintro n rfl hmem - hno
    have hnested' : d.Nested n (s.enter p).active := hnested.cons ht hmem
    have hcall : ∀ q u, d.root.at? q = some u →
        Sim (fun b a => d.Mirrors everyNode (s.enter p) a b)
        (fun a => NoCycle (newProblems (s.enter p) a)) (d.recompute d.bound q u)
        (d.valueOf n q u) := by
      refine fun q u hu => ⟨fun a => noCycle_newProblems_of_extends (extends_valueOf hd n hu a),
        fun b a h hgood => ?_⟩
      have hext := extends_valueOf hd n (p := q) hu a
      have hq : NoCycle (newProblems a ((d.valueOf n q u).run a).2) := by
        obtain ⟨es, hes, -⟩ := h.errors
        rw [newProblems_trans (hes ▸ List.prefix_append _ _) hext.errors] at hgood
        exact (noCycle_append.mp hgood).2
      obtain ⟨hset, hfaithful⟩ := ih n n.lt_succ_self hu h.sound (h.active ▸ hnested') hq
      obtain ⟨hv, hmirrors⟩ := h.call hd hu hset hfaithful hext.active
      exact ⟨hv.symm, hmirrors⟩
    have hrecord : RecordSim (fun b a => d.Mirrors everyNode (s.enter p) a b)
        fun a => NoCycle (newProblems (s.enter p) a) :=
      ⟨fun _ h => noCycle_newProblems_of_extends ((Extends.refl _).record _) h,
        fun he h _ => h.record he⟩
    obtain ⟨hv, hmirrors⟩ := (compute_sim hrecord hd hcall ht).agree {} (s.enter p)
      (.start (hs.of_memo_eq rfl)) (by simpa [newProblems, Store.enter, Store.leave] using hno)
    have hset : d.Settles (d.bound + 1) p t := hmirrors.noCycle
    exact ⟨hset.within_bound hd ht, Mirrors.faithful hd ht hset hv.symm hmirrors⟩

/-! ## Strict mode -/

/-- In strict mode every evaluation keeps a store sound, whatever problems it meets. -/
theorem sound_valueOf (hd : d.root.Keyed) (hstrict : d.options.strict = true) (fuel : Nat)
    {p : Path} {t : Tree} (ht : d.root.at? p = some t) {s : Store} (hs : d.Sound everyNode s)
    (hnested : d.Nested fuel s.active) : d.Sound everyNode ((d.valueOf fuel p t).run s).2 := by
  induction fuel using Nat.strong_induction_on generalizing p t s with | _ fuel ih
  by_cases hno : NoCycle (newProblems s ((d.valueOf fuel p t).run s).2)
  · exact (settles_of_noCycle hd fuel ht hs hnested hno).2.sound
  revert hno
  refine run_valueOf_cases (motive := fun r => ¬NoCycle (newProblems s r.2) → d.Sound everyNode r.2)
    ?_ ?_ ?_ ?_
  · exact fun _ _ _ => hs
  · exact fun _ _ _ => hs.of_memo_eq rfl
  · exact fun _ _ _ => hs
  · rintro n rfl hmem - hcycle
    have hnested' : d.Nested n (s.enter p).active := hnested.cons ht hmem
    obtain ⟨hsound, hactive⟩ := compute_entered_keeps hd (fun _ _ h => h.of_memo_eq rfl) ht
      (fun q u hu a h hactive => ih n n.lt_succ_self hu h (hactive ▸ hnested'))
      (hs.of_memo_eq rfl)
    dsimp only at hcycle ⊢
    generalize (d.compute (d.valueOf n) p t).run (s.enter p) = r at *
    -- The cycle is a new problem, so the result is not kept.
    have hlength : s.errors.length ≠ (r.2.leave p).errors.length := by
      intro hlength
      apply hcycle
      rw [newProblems, errors_keepResult, List.drop_of_length_le hlength.ge]
      exact noCycle_nil
    rw [keepResult, if_neg fun hkept => hlength (errors_eq_of_isKept hstrict hkept)]
    exact hsound.of_memo_eq rfl

/-- The states of two evaluations of a node that began in the states `s` and `s'`. -/
structure Twins (d : Document) (s s' a b : Store) : Prop where
  sound : d.Sound everyNode a
  sound' : d.Sound everyNode b
  active : a.active = s.active
  active' : b.active = s.active
  errors : ∃ es, a.errors = s.errors ++ es ∧ b.errors = s'.errors ++ es

theorem Twins.start {s s' : Store} (hs : d.Sound everyNode s) (hs' : d.Sound everyNode s')
    (hsame : s'.active = s.active) : d.Twins s s' s s' :=
  ⟨hs, hs', rfl, hsame, [], by simp, by simp⟩

theorem Twins.record {s s' a b : Store} (h : d.Twins s s' a b) (e : EvalError) :
    d.Twins s s' (a.record e) (b.record e) := by
  obtain ⟨hsound, hsound', hactive, hactive', es, hes, hes'⟩ := h
  refine ⟨hsound.of_memo_eq rfl, hsound'.of_memo_eq rfl, hactive, hactive', es ++ [e], ?_, ?_⟩
  · simp [Store.record, hes]
  · simp [Store.record, hes']

/-- Both evaluations go on from where they are and meet the same problems. -/
theorem Twins.trans {s s' a b a' b' : Store} (h : d.Twins s s' a b) (h' : d.Twins a b a' b') :
    d.Twins s s' a' b' := by
  obtain ⟨-, -, hactive, -, es, hes, hes'⟩ := h
  obtain ⟨hsound, hsound', ha, hb, fs, hfs, hfs'⟩ := h'
  refine ⟨hsound, hsound', ha.trans hactive, hb.trans hactive, es ++ fs, ?_, ?_⟩
  · rw [hfs, hes, List.append_assoc]
  · rw [hfs', hes', List.append_assoc]

/-- In strict mode the answer and the problems are the same from any two sound stores, as long as
none of the nodes that are being computed settles. -/
theorem valueOf_agree (hd : d.root.Keyed) (hstrict : d.options.strict = true) (fuel : Nat)
    {p : Path} {t : Tree} (ht : d.root.at? p = some t) {s s' : Store} (hs : d.Sound everyNode s)
    (hs' : d.Sound everyNode s') (hsame : s'.active = s.active) (hnested : d.Nested fuel s.active)
    (hactive : d.Unsettled d.bound s.active) :
    ((d.valueOf fuel p t).run s).1 = ((d.valueOf fuel p t).run s').1 ∧
      ∃ es, ((d.valueOf fuel p t).run s).2.errors = s.errors ++ es ∧
        ((d.valueOf fuel p t).run s').2.errors = s'.errors ++ es := by
  induction fuel using Nat.strong_induction_on generalizing p t s s' with | _ fuel ih
  by_cases hp : d.Settles d.bound p t
  · obtain ⟨hv, -, es, hes, -, h⟩ := faithful_of_settles hd everyNode_of d.bound fuel ht hs
      hnested hp hactive
    obtain ⟨hv', -, fs, hfs, -, h'⟩ := faithful_of_settles hd everyNode_of d.bound fuel ht hs'
      (hsame ▸ hnested) hp (hsame ▸ hactive)
    refine ⟨hv.trans hv'.symm, d.problems p t, ?_, ?_⟩
    · rw [hes, h hstrict]
    · rw [hfs, h' hstrict]
  -- A node that does not settle is kept in neither store.
  have hnew : ∀ {a : Store}, d.Sound everyNode a → Assoc.get? p a.memo = none := fun ha =>
    Option.eq_none_iff_forall_ne_some.mpr fun v hv => hp (ha.keeps ht hv trivial).settles
  by_cases hmem : p ∈ s.active
  · rw [run_valueOf_of_active (hnew hs) hmem, run_valueOf_of_active (hnew hs') (hsame ▸ hmem)]
    exact ⟨rfl, [.cycle p], rfl, rfl⟩
  obtain ⟨n, rfl⟩ := Nat.exists_eq_succ_of_ne_zero (hnested.fuel_ne_zero ht hmem)
  rw [run_valueOf_of_new (hnew hs) hmem, run_valueOf_of_new (hnew hs') (hsame ▸ hmem)]
  have hnested' : d.Nested n (s.enter p).active := hnested.cons ht hmem
  have hbelow : d.Unsettled d.bound (s.enter p).active := hactive.cons ht hp
  have hcall : ∀ q u, d.root.at? q = some u →
      Sim (d.Twins (s.enter p) (s'.enter p)) (fun _ => True) (d.valueOf n q u)
        (d.valueOf n q u) := by
    refine fun q u hu => ⟨fun _ _ => trivial, fun a b h _ => ?_⟩
    have hna : d.Nested n a.active := h.active ▸ hnested'
    have hnb : d.Nested n b.active := h.active' ▸ hnested'
    have hab : b.active = a.active := h.active'.trans h.active.symm
    obtain ⟨hv, herrors⟩ := ih n n.lt_succ_self hu h.sound h.sound' hab hna (h.active ▸ hbelow)
    refine ⟨hv, h.trans ⟨?_, ?_, ?_, ?_, herrors⟩⟩
    · exact sound_valueOf hd hstrict n hu h.sound hna
    · exact sound_valueOf hd hstrict n hu h.sound' hnb
    · exact (extends_valueOf hd n hu a).active
    · exact (extends_valueOf hd n hu b).active.trans hab
  have hrecord : RecordSim (d.Twins (s.enter p) (s'.enter p)) fun _ => True :=
    ⟨fun _ _ => trivial, fun _ h _ => h.record _⟩
  have hstart : d.Twins (s.enter p) (s'.enter p) (s.enter p) (s'.enter p) :=
    .start (hs.of_memo_eq rfl) (hs'.of_memo_eq rfl) (congrArg (p :: ·) hsame)
  obtain ⟨hv, htwins⟩ := (compute_sim hrecord hd hcall ht).agree _ _ hstart trivial
  obtain ⟨es, hes, hes'⟩ := htwins.errors
  refine ⟨hv, es, ?_, ?_⟩
  · rw [errors_keepResult]
    exact hes
  · rw [errors_keepResult]
    exact hes'

end Document
end MarkupEval
