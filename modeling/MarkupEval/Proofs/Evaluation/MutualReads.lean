import MarkupEval.Proofs.Evaluation.CutReads
import MarkupEval.Proofs.Evaluation.Dependency
import MarkupEval.Proofs.Evaluation.References

/-!
# Nodes that read each other

A node that is read while it is being computed counts as null. A node that reads itself does so
wherever the evaluation began. Of two nodes that read each other (`Mutual`) it is the one at which
the evaluation began, so that the other one ends with another value than on a fresh tree
(`stored_ne_fresh_mutual`).

The nodes from which no such two are reached are not affected. While one of them is computed, none
of the nodes that it reads is being computed, itself apart; each of them therefore gives what it
gives on a fresh tree, whatever is kept and wherever the evaluation began
(`givesFresh_of_not_reachesMutual`). So lax mode keeps nothing else for them (`stored_eq_fresh`).
-/

namespace MarkupEval

open EvalError Relation

/-! ## Merging the values of documents -/

section
variable {σ τ : Type} {Rel : (α : Type) → StateM σ α → StateM τ α → Prop} {hooks : Hooks σ}
  {hooks' : Hooks τ} {incoming : Value}

/-- Merging a value of a document looks up the target of a reference and nothing else. -/
theorem Value.merge_rel_of_mergeable (C : Compositional Rel)
    (hreport : ∀ e, Rel _ (hooks.report e) (hooks'.report e))
    (h : Mergeable False Value.Plain incoming)
    (hresolve : ∀ target, incoming.referenceTarget? = some target →
      Rel _ (hooks.resolve target) (hooks'.resolve target)) (current : Value) (key : Key) :
    Rel _ (merge hooks current incoming key) (merge hooks' current incoming key) := by
  cases incoming with
  | transformer name args op =>
    obtain ⟨-, hop⟩ := h
    have hsettle := settle_rel C hreport current key
    cases op with
    | reference =>
      have hrun : Rel _ (Operation.runReference hooks args) (Operation.runReference hooks' args) :=
        Operation.runReference_rel C fun target htarget => hresolve target (by
          simp [referenceTarget?, htarget, Except.toOption])
      exact C.bind hrun hsettle
    | convert _ | smart _ => exact C.bind (C.pure _) hsettle
    | _ => simp [Operation.isBuiltin] at hop
  | _ => exact C.pure _

theorem Document.takeIn_rel_of_mergeable (C : Compositional Rel)
    (hreport : ∀ e, Rel _ (hooks.report e) (hooks'.report e))
    (h : Mergeable False Value.Plain incoming)
    (hresolve : ∀ target, incoming.referenceTarget? = some target →
      Rel _ (hooks.resolve target) (hooks'.resolve target)) (yields : Bool) (acc : Value)
    (key : Key) : Rel _ (takeIn hooks yields acc incoming key)
      (takeIn hooks' yields acc incoming key) := by
  unfold takeIn
  split
  · exact C.pure _
  · exact Value.merge_rel_of_mergeable C hreport h hresolve acc key

end

namespace Document

variable {d : Document} {p q r : Path} {t u : Tree} {n m : Nat} {s : Store}

/-! ## What a node reads -/

/-- What a node gives on a fresh tree. -/
def freshValue (d : Document) (p : Path) (t : Tree) : Value :=
  ((d.valueOf d.root.nodes.length p t).run {}).1

/-- On a fresh tree the computation of a node begins with nothing kept. -/
theorem freshValue_eq_compute (ht : d.root.at? p = some t) : ∃ n, d.root.nodes.length = n + 1 ∧
    d.freshValue p t = ((d.compute (d.valueOf n) p t).run (Store.enter p {})).1 := by
  obtain ⟨n, hn⟩ := Nat.exists_eq_succ_of_ne_zero (nested_nil.fuel_ne_zero ht List.not_mem_nil)
  refine ⟨n, hn, ?_⟩
  rw [freshValue, hn, run_valueOf_of_new rfl List.not_mem_nil]

/-- A node reads its children and, for each reference among them, the node that the content of the
reference leads to on a fresh tree. -/
inductive Reads (d : Document) : Path → Path → Prop
  | child {p t k c} (ht : d.root.at? p = some t) (hc : (k, c) ∈ t.subtrees) : Reads d p (p ++ [k])
  | reference {p t k c target q u} (ht : d.root.at? p = some t) (hc : (k, c) ∈ t.subtrees)
    (htarget : (d.freshValue (p ++ [k]) c).referenceTarget? = some target)
    (hq : d.root.resolve target = some (q, u)) : Reads d p q

/-- Two nodes that read each other, directly or through others. -/
structure Mutual (d : Document) (q r : Path) : Prop where
  ne : q ≠ r
  there : ReflTransGen d.Reads q r
  back : ReflTransGen d.Reads r q

/-- A cycle of two or more nodes is reached: two nodes that read each other. -/
def ReachesMutual (d : Document) (p : Path) : Prop :=
  ∃ q r, ReflTransGen d.Reads p q ∧ d.Mutual q r

theorem Reads.node (hd : d.root.Keyed) (h : d.Reads p q) : ∃ u, d.root.at? q = some u := by
  cases h with
  | child ht hc => exact ⟨_, Tree.at?_child hd ht hc⟩
  | reference ht hc htarget hq => exact ⟨_, Tree.at?_of_resolve hq⟩

theorem ReachesMutual.of_reached (h : d.ReachesMutual q) (hpq : ReflTransGen d.Reads p q) :
    d.ReachesMutual p := by
  obtain ⟨r, r', hqr, hmutual⟩ := h
  exact ⟨r, r', hpq.trans hqr, hmutual⟩

theorem freshValue_eq_of_settles (hd : d.root.Keyed) (ht : d.root.at? p = some t)
    (hp : d.Settles n p t) : d.freshValue p t = d.valueWithin n p t := by
  have hfaithful := quiet_fresh.faithful hd ht (hp.within_bound hd ht)
  exact hfaithful.value.trans (hp.eq_bound hd ht).1.symm

/-- A reference asks for its text only, and the text for nothing. -/
theorem settles_reference (hd : d.Referring) (ht : d.root.at? p = some t)
    (htag : Text.lower (t.host.tag?.getD "") = Operation.referenceTag) : d.Settles 2 p t := by
  obtain ⟨o, tag, attrs, s, -, rfl⟩ := hd.exists_text ht htag
  refine (settles_succ_iff_children hd.keyed hd.allows ht).mpr fun k c hc => ?_
  have hu : d.root.at? (p ++ [k]) = some c := Tree.at?_child hd.keyed ht hc
  cases List.mem_singleton.mp hc
  have hsettles : d.Settles 1 _ _ :=
    (settles_succ_iff_children hd.keyed hd.allows hu).mpr fun _ _ hc => nomatch hc
  refine ⟨hsettles, (takesIn_iff hd hu hsettles).mpr fun target htarget => ?_⟩
  rw [Tree.host_ofHost] at htarget
  cases htarget

/-- Where the content of references is a text, where they lead to can be told from their hosts. -/
theorem referenceTarget?_freshValue (hd : d.Referring) (ht : d.root.at? p = some t) :
    (d.freshValue p t).referenceTarget? = t.host.reference? := by
  by_cases htag : Text.lower (t.host.tag?.getD "") = Operation.referenceTag
  · have hp : d.Settles 2 p t := settles_reference hd ht htag
    rw [freshValue_eq_of_settles hd.keyed ht hp, referenceTarget?_valueWithin hd ht hp]
  · obtain ⟨n, -, hvalue⟩ := freshValue_eq_compute ht
    rw [Node.reference?_eq_none htag, hvalue]
    exact referenceTarget?_finish hd.registry htag _

/-- Where the content of every reference is a text, a node reads what it depends on. -/
theorem reads_iff_depends (hd : d.Referring) : d.Reads p q ↔ d.Depends p q := by
  constructor
  · rintro (⟨ht, hc⟩ | ⟨ht, hc, htarget, hq⟩)
    · exact .child ht hc
    · rw [referenceTarget?_freshValue hd (Tree.at?_child hd.keyed ht hc)] at htarget
      exact .reference ht hc htarget hq
  · rintro (⟨ht, hc⟩ | ⟨ht, hc, htarget, hq⟩)
    · exact .child ht hc
    · rw [← referenceTarget?_freshValue hd (Tree.at?_child hd.keyed ht hc)] at htarget
      exact .reference ht hc htarget hq

/-- No way leads back from another node that is read. -/
theorem not_reached_of_reads (hp : ¬d.ReachesMutual p) (hpq : d.Reads p q) (hne : q ≠ p) :
    ¬ReflTransGen d.Reads q p := fun hqp =>
  hp ⟨p, q, .refl, hne.symm, .single hpq, hqp⟩

/-- Where every node reads itself and nodes of a higher rank only, no two read each other. -/
theorem not_reachesMutual_of_rank (rank : Path → Nat)
    (hrank : ∀ p q, d.Reads p q → q = p ∨ rank p < rank q) (p : Path) : ¬d.ReachesMutual p := by
  have hreached : ∀ q r, ReflTransGen d.Reads q r → r = q ∨ rank q < rank r := by
    intro q r h
    induction h with
    | refl => exact .inl rfl
    | tail _ hlast ih =>
      obtain rfl | hlast := hrank _ _ hlast
      · exact ih
      · obtain rfl | ih := ih
        · exact .inr hlast
        · exact .inr (ih.trans hlast)
  rintro ⟨q, r, -, hne, hqr, hrq⟩
  have hlt : rank q < rank r := (hreached q r hqr).resolve_left hne.symm
  have hgt : rank r < rank q := (hreached r q hrq).resolve_left hne
  exact hlt.asymm hgt

/-- What a node has if the other nodes that it reads have it, every node has from which no two are
reached that read each other. -/
theorem induction_of_not_reachesMutual (hd : d.root.Keyed) {motive : Path → Tree → Prop}
    (step : ∀ p t, d.root.at? p = some t → ¬d.ReachesMutual p →
      (∀ q u, d.Reads p q → q ≠ p → d.root.at? q = some u → motive q u) → motive p t)
    (ht : d.root.at? p = some t) (hp : ¬d.ReachesMutual p) : motive p t := by
  let Other (a b : Path) : Prop := d.Reads a b ∧ b ≠ a
  have hreads {a b : Path} (h : ReflTransGen Other a b) : ReflTransGen d.Reads a b :=
    ReflTransGen.mono (fun _ _ h => And.left h) _ _ h
  refine induction_of_acyclic (R := Other) (fun _ _ h => h.1.node hd) ht ?_ ?_
  · intro q hq hcycle
    obtain ⟨r, ⟨hqr, hne⟩, hrq⟩ := TransGen.head'_iff.mp hcycle
    exact hp ⟨q, r, hreads hq, hne.symm, .single hqr, hreads hrq⟩
  · intro q u hq hu ih
    exact step q u hu (fun h => hp (h.of_reached (hreads hq)))
      fun q' u' hq' hne hu' => ih q' u' ⟨hq', hne⟩ hu'

/-! ## What is kept -/

/-- What is kept for a node from which no two are reached that read each other is what it gives on a
fresh tree. -/
def Fresh (d : Document) (s : Store) : Prop :=
  ∀ p v, Assoc.get? p s.memo = some v →
    ∃ t, d.root.at? p = some t ∧ (¬d.ReachesMutual p → v.toValue = d.freshValue p t)

theorem fresh_of_memo_eq_nil (h : s.memo = []) : d.Fresh s := by
  intro p v hv
  simp [h] at hv

theorem Fresh.of_memo_eq {s' : Store} (h : d.Fresh s) (hmemo : s'.memo = s.memo) : d.Fresh s' :=
  fun p v hv => h p v (hmemo ▸ hv)

theorem Fresh.leave (h : d.Fresh s) (p : Path) : d.Fresh (s.leave p) := h.of_memo_eq rfl

theorem Fresh.toValue (h : d.Fresh s) (ht : d.root.at? p = some t) (hp : ¬d.ReachesMutual p)
    {v : Stored} (hv : Assoc.get? p s.memo = some v) : v.toValue = d.freshValue p t := by
  obtain ⟨u, hu, hvalue⟩ := h p v hv
  cases ht.symm.trans hu
  exact hvalue hp

/-- A plain value may be kept if it is what the node gives on a fresh tree. -/
theorem Fresh.keepResult (h : d.Fresh s) (ht : d.root.at? p = some t) {v : Value} {before : Nat}
    (hplain : t.kind ≠ .transformer → v.Plain) (hv : ¬d.ReachesMutual p → v = d.freshValue p t) :
    d.Fresh (d.keepResult p t v before s) := by
  intro q w hw
  rcases get?_keepResult hw with hw | ⟨rfl, rfl, hkind⟩
  · exact h q w hw
  · refine ⟨t, ht, fun hp => ?_⟩
    rw [Stored.toValue_ofValue_of_plain (hplain hkind)]
    exact hv hp

theorem get?_keepResult_of_ne {v : Value} {before : Nat} (h : q ≠ p) :
    Assoc.get? q (d.keepResult p t v before s).memo = Assoc.get? q s.memo := by
  unfold Document.keepResult
  split
  · exact (Assoc.get?_insert ..).trans (if_neg h)
  · rfl

/-- Nothing is kept for a node while it is being computed. -/
theorem get?_memo_of_active (hd : d.root.Keyed) (fuel : Nat) (ht : d.root.at? p = some t)
    (hq : q ∈ s.active) :
    Assoc.get? q ((d.valueOf fuel p t).run s).2.memo = Assoc.get? q s.memo := by
  induction fuel using Nat.strong_induction_on generalizing p t s with | _ fuel ih
  apply run_valueOf_of_memo (I := fun a => Assoc.get? q a.memo = Assoc.get? q s.memo)
    (fun h hmemo => hmemo ▸ h) rfl
  rintro n rfl hp
  obtain ⟨hmemo, -⟩ := compute_entered_keeps hd
    (I := fun a => Assoc.get? q a.memo = Assoc.get? q s.memo) (fun _ _ h => h) ht
    (fun q' u hu a h hactive => (ih n n.lt_succ_self hu
      (hactive ▸ List.mem_cons_of_mem p hq)).trans h) rfl
  have hne : q ≠ p := fun h => hp (h ▸ hq)
  exact (get?_keepResult_of_ne hne).trans hmemo

/-! ## While a node is being computed -/

/-- The node gives its fresh value, whatever is kept and whatever is being computed, as long as it
does not reach the nodes that are being computed. -/
def GivesFresh (d : Document) (p : Path) (t : Tree) : Prop :=
  ∀ fuel s, d.Fresh s → d.Nested fuel s.active →
    (∀ x ∈ s.active, ¬ReflTransGen d.Reads p x) →
      ((d.valueOf fuel p t).run s).1 = d.freshValue p t ∧
        d.Fresh ((d.valueOf fuel p t).run s).2

/-- A state in which a node is being computed. Of the nodes that are being computed it reaches none
but itself. -/
structure Inside (d : Document) (p : Path) (n : Nat) (s : Store) : Prop where
  fresh : d.Fresh s
  nested : d.Nested n s.active
  mem : p ∈ s.active
  absent : Assoc.get? p s.memo = none
  apart : ∀ x ∈ s.active, x ≠ p → ¬ReflTransGen d.Reads p x

theorem Inside.enter (hs : d.Fresh s) (hnested : d.Nested (n + 1) s.active)
    (ht : d.root.at? p = some t) (hmem : p ∉ s.active) (habsent : Assoc.get? p s.memo = none)
    (hapart : ∀ x ∈ s.active, ¬ReflTransGen d.Reads p x) : d.Inside p n (s.enter p) where
  fresh := hs.of_memo_eq rfl
  nested := hnested.cons ht hmem
  mem := List.mem_cons_self
  absent := habsent
  apart x hx hne := hapart x ((List.mem_cons.mp hx).resolve_left hne)

theorem Inside.record (h : d.Inside p n s) (e : EvalError) : d.Inside p n (s.record e) :=
  ⟨h.fresh.of_memo_eq rfl, h.nested, h.mem, h.absent, h.apart⟩

/-- Two states in which the same node is being computed. -/
structure InsideBoth (d : Document) (p : Path) (n m : Nat) (a b : Store) : Prop where
  left : d.Inside p n a
  right : d.Inside p m b

theorem InsideBoth.record {a b : Store} (h : d.InsideBoth p n m a b) (e : EvalError) :
    d.InsideBoth p n m (a.record e) (b.record e) := ⟨h.left.record e, h.right.record e⟩

/-- What a node finds at a node that it reads: null at itself. -/
def found (d : Document) (p q : Path) (u : Tree) : Value :=
  if q = p then .null else d.freshValue q u

theorem found_child (k : Key) (c : Tree) : d.found p (p ++ [k]) c = d.freshValue (p ++ [k]) c :=
  if_neg (by simp)

section
variable (hd : d.root.Keyed) (hp : ¬d.ReachesMutual p)
  (hreads : ∀ q u, d.Reads p q → q ≠ p → d.root.at? q = some u → d.GivesFresh q u)
include hd hp hreads

theorem Inside.ask (h : d.Inside p n s) (hpq : d.Reads p q) (hu : d.root.at? q = some u) :
    ((d.valueOf n q u).run s).1 = d.found p q u ∧
      d.Inside p n ((d.valueOf n q u).run s).2 := by
  by_cases hne : q = p
  · subst hne
    rw [run_valueOf_of_active h.absent h.mem]
    exact ⟨(if_pos rfl).symm, h.record _⟩
  -- A node that is being computed and that `q` reaches would be reached from `p` too.
  have hapart : ∀ x ∈ s.active, ¬ReflTransGen d.Reads q x := by
    intro x hx hqx
    by_cases hxp : x = p
    · exact not_reached_of_reads hp hpq hne (hxp ▸ hqx)
    · exact h.apart x hx hxp (.head hpq hqx)
  obtain ⟨hvalue, hfresh⟩ := hreads q u hpq hne hu n s h.fresh h.nested hapart
  have hactive := (extends_valueOf hd n hu s).active
  refine ⟨hvalue.trans (if_neg hne).symm, hfresh, ?_, ?_, ?_, ?_⟩
  · exact hactive ▸ h.nested
  · exact hactive ▸ h.mem
  · exact (get?_memo_of_active hd n hu h.mem).trans h.absent
  · exact hactive ▸ h.apart

/-- In two states in which a node is being computed it finds the same. -/
theorem ask_sim (hpq : d.Reads p q) (hu : d.root.at? q = some u) :
    Sim (d.InsideBoth p n m) (fun _ => True) (d.valueOf n q u) (d.valueOf m q u) := by
  refine ⟨fun _ _ => trivial, fun a b h _ => ?_⟩
  obtain ⟨hv, ha⟩ := h.left.ask hd hp hreads hpq hu
  obtain ⟨hv', hb⟩ := h.right.ask hd hp hreads hpq hu
  exact ⟨hv.trans hv'.symm, ha, hb⟩

theorem takeIn_sim_of_reads (hr : d.registry.Allows False) (ht : d.root.at? p = some t) {k : Key}
    {c : Tree} (hc : (k, c) ∈ t.subtrees) (yields : Bool) (acc : Value) :
    Sim (d.InsideBoth p n m) (fun _ => True)
      (takeIn (d.hooks (d.valueOf n) p) yields acc (d.freshValue (p ++ [k]) c) k)
      (takeIn (d.hooks (d.valueOf m) p) yields acc (d.freshValue (p ++ [k]) c) k) := by
  have hrecord (e : EvalError) : Sim (d.InsideBoth p n m) (fun _ => True)
      (modify (Store.record e)) (modify (Store.record e)) :=
    .modify (fun _ _ => trivial) fun _ _ h _ => h.record e
  apply takeIn_rel_of_mergeable Sim.compositional
  · exact fun e => hrecord (.transformer p e)
  · exact valueOf_yields hr _ _ _ _
  · intro target htarget
    dsimp only [hooks]
    cases hfound : d.root.resolve target with
    | none => exact .bind (hrecord (.unresolved p target)) fun _ => .pure none
    | some found =>
      have hread : d.Reads p found.1 := .reference ht hc htarget hfound
      exact .bind (ask_sim hd hp hreads hread (Tree.at?_of_resolve hfound)) fun v => .pure (some v)

theorem foldChildren_sim_of_reads (hr : d.registry.Allows False) (ht : d.root.at? p = some t)
    {children : List (Key × Tree)} (hchildren : children ⊆ t.subtrees) (yields : Bool)
    (acc : Value) :
    Sim (d.InsideBoth p n m) (fun _ => True)
      (foldChildren (d.valueOf n) (d.hooks (d.valueOf n) p) p yields children acc)
      (foldChildren (d.valueOf m) (d.hooks (d.valueOf m) p) p yields children acc) := by
  induction children generalizing yields acc with
  | nil => exact .pure acc
  | cons e rest ih =>
    obtain ⟨k, c⟩ := e
    have hc : (k, c) ∈ t.subtrees := hchildren List.mem_cons_self
    have hu : d.root.at? (p ++ [k]) = some c := Tree.at?_child hd ht hc
    have hread : d.Reads p (p ++ [k]) := .child ht hc
    rw [foldChildren_cons, foldChildren_cons]
    -- The child is not the node itself, so that its value is the fresh one in both states.
    apply Sim.bind_value (ask_sim hd hp hreads hread hu)
    · intro a b h
      exact (h.left.ask hd hp hreads hread hu).1.trans (found_child k c)
    · apply Sim.bind (takeIn_sim_of_reads hd hp hreads hr ht hc yields acc)
      exact fun acc => ih (fun _ h => hchildren (List.mem_cons_of_mem _ h)) false acc

/-- A node gives its fresh value if the other nodes that it reads do. -/
theorem givesFresh_of_reads (hr : d.registry.Allows False) (ht : d.root.at? p = some t) :
    d.GivesFresh p t := by
  intro fuel s hs hnested hapart
  refine run_valueOf_cases (motive := fun r => r.1 = d.freshValue p t ∧ d.Fresh r.2) ?_ ?_ ?_ ?_
  · exact fun v hv => ⟨hs.toValue ht hp hv, hs⟩
  · exact fun hmem _ => absurd .refl (hapart p hmem)
  · exact fun hmem hfuel => absurd hfuel (hnested.fuel_ne_zero ht hmem)
  · rintro n rfl hmem habsent
    obtain ⟨m, hm, hfresh⟩ := freshValue_eq_compute ht
    have hinside : d.Inside p n (s.enter p) := .enter hs hnested ht hmem habsent hapart
    have hinside' : d.Inside p m (Store.enter p {}) :=
      .enter (fresh_of_memo_eq_nil rfl) (hm ▸ nested_nil) ht List.not_mem_nil rfl
        fun _ hx => nomatch hx
    have hcompute : Sim (d.InsideBoth p n m) (fun _ => True) (d.compute (d.valueOf n) p t)
        (d.compute (d.valueOf m) p t) :=
      .bind (foldChildren_sim_of_reads hd hp hreads hr ht (List.Subset.refl _) _ _) fun _ =>
        .pure _
    obtain ⟨hsame, hafter, -⟩ := hcompute.agree _ _ ⟨hinside, hinside'⟩ trivial
    have hvalue := hsame.trans hfresh.symm
    refine ⟨hvalue, ?_⟩
    exact (hafter.fresh.leave p).keepResult ht (fun hkind => (fits_compute hr n hkind).plain)
      fun _ => hvalue

end

theorem givesFresh_of_not_reachesMutual (hd : d.root.Keyed) (hr : d.registry.Allows False)
    (ht : d.root.at? p = some t) (hp : ¬d.ReachesMutual p) : d.GivesFresh p t :=
  induction_of_not_reachesMutual hd
    (fun _ _ ht hp hreads => givesFresh_of_reads hd hp hreads hr ht) ht hp

/-! ## After any calls -/

/-- Every evaluation keeps a store fresh, as long as nodes that read each other are reached from all
that are being computed. -/
theorem fresh_valueOf (hd : d.root.Keyed) (hr : d.registry.Allows False) (fuel : Nat)
    (ht : d.root.at? p = some t) (hs : d.Fresh s) (hnested : d.Nested fuel s.active)
    (hactive : ∀ x ∈ s.active, d.ReachesMutual x) :
    d.Fresh ((d.valueOf fuel p t).run s).2 := by
  induction fuel using Nat.strong_induction_on generalizing p t s with | _ fuel ih
  by_cases hp : d.ReachesMutual p
  · apply run_valueOf_of_memo Fresh.of_memo_eq hs
    rintro n rfl hmem
    have hnested' : d.Nested n (s.enter p).active := hnested.cons ht hmem
    have hactive' : ∀ x ∈ (s.enter p).active, d.ReachesMutual x :=
      List.forall_mem_cons.mpr ⟨hp, hactive⟩
    obtain ⟨hfresh, -⟩ := compute_entered_keeps hd (fun _ _ h => h.of_memo_eq rfl) ht
      (fun q u hu a h hsame => ih n n.lt_succ_self hu h (hsame ▸ hnested') (hsame ▸ hactive'))
      (hs.of_memo_eq rfl)
    exact (hfresh.leave p).keepResult ht (fun hkind => (fits_compute hr n hkind).plain)
      fun h => absurd hp h
  · have hapart : ∀ x ∈ s.active, ¬ReflTransGen d.Reads p x := fun x hx hpx =>
      hp ((hactive x hx).of_reached hpx)
    exact (givesFresh_of_not_reachesMutual hd hr ht hp fuel s hs hnested hapart).2

theorem fresh_afterCalls (hd : d.root.Keyed) (hr : d.registry.Allows False) (calls : List Call) :
    d.Fresh (d.afterCalls calls) := by
  refine (afterCalls_keeps (I := fun s => s.active = [] ∧ d.Fresh s)
    ⟨rfl, fresh_of_memo_eq_nil rfl⟩ (fun s hs => ⟨hs.1, fresh_of_memo_eq_nil rfl⟩) ?_ calls).2
  rintro p t ht s ⟨hactive, hfresh⟩
  rw [run_evaluateNode]
  refine ⟨(extends_valueOf hd _ ht _).active.trans hactive, ?_⟩
  refine fresh_valueOf hd hr _ ht (hfresh.of_memo_eq rfl) ?_ ?_
  · exact hactive ▸ nested_nil
  · exact hactive ▸ fun _ hx => nomatch hx

/-- What lax mode keeps for a node from which no cycle of two or more nodes is reached is what the
node gives on a fresh tree, even if it reads itself. For a node that meets no cycle there it is
also the value of recomputing it, in which nothing is null because it is being computed. -/
theorem stored_eq_fresh (o : Options) (hlax : o.strict = false) (host : Node) (calls : List Call)
    {v : Stored}
    (hv : Assoc.get? p ((ofHost Registry.builtins o host).afterCalls calls).memo = some v) :
    let d := ofHost Registry.builtins o host
    ∃ t, d.root.at? p = some t ∧
      (¬d.ReachesMutual p → ((d.evaluateNode p t).run {}).1 = .ok v.toValue) ∧
      (NoCycle ((d.evaluateNode p t).run {}).2.errors →
        ((d.evaluateNode p t).run {}).1 = .ok v.toValue ∧
          ∀ n, d.root.nodes.length ≤ n → ((d.recompute n p t).run {}).1 = v.toValue ∧
            NoCycle ((d.recompute n p t).run {}).2.errors) := by
  intro d
  have hd : d.root.Keyed := Tree.ofHost_keyed Registry.builtins o host
  have hr : d.registry.Allows False := Registry.builtins_allows False
  obtain ⟨t, ht, hvalue⟩ := fresh_afterCalls hd hr calls p v hv
  refine ⟨t, ht, fun hp => ?_, stored_eq_recompute hd hlax calls hv ht⟩
  rw [run_evaluateNode]
  change d.answer _ = _
  rw [answer_lax hlax, hvalue hp]
  rfl

/-- An array that takes in itself. -/
def selfHost : Node :=
  .element "array" ∅ [.element "array" ∅ [.element "ref" ∅ [.text "/0"]]]

theorem not_reachesMutual_selfHost (p : Path) :
    ¬(ofHost Registry.builtins {} selfHost).ReachesMutual p := by
  let d := ofHost Registry.builtins {} selfHost
  have htag : Text.lower "array" ≠ Operation.referenceTag := by decide +kernel
  have hrefs : selfHost.RefersByText := by
    simp [selfHost, Node.RefersByText, Node.AllReferByText, htag]
  have hself : ∀ x ∈ d.root.nodes, ∀ e ∈ x.2.subtrees, ∀ target ∈ e.2.host.reference?,
      ∀ f ∈ d.root.resolve target, f.1 = x.1 := by
    decide +kernel
  refine not_reachesMutual_of_rank List.length (fun p q hpq => ?_) p
  cases (reads_iff_depends (referring_ofHost {} hrefs)).mp hpq with
  | child ht hc => exact .inr (by simp)
  | reference ht hc htarget hq =>
    exact .inl (hself _ (Tree.mem_nodes_of_at? ht) _ hc _ htarget _ hq)

/-- Two arrays that take in each other, and a string that refers to a number. -/
def mutualHost : Node :=
  .element "record" ∅
    [.element "array" (.ofPairs [("_name", "a")]) [.element "ref" ∅ [.text "/b"]],
     .element "array" (.ofPairs [("_name", "b")]) [.element "ref" ∅ [.text "/a"]],
     .element "string" (.ofPairs [("_name", "c")]) [.text "c: ", .element "ref" ∅ [.text "/d"]],
     .element "number" (.ofPairs [("_name", "d")]) [.text "4"]]

/-- The array that takes in itself, in which a cycle is met, and the string of a tree in which other
nodes read each other. -/
theorem stored_eq_fresh_self_mutual :
    (let d := ofHost Registry.builtins {} selfHost
      ∃ v t, Assoc.get? [.position 0] (d.afterCalls [.evaluate]).memo = some v ∧
        d.root.at? [.position 0] = some t ∧ ¬d.ReachesMutual [.position 0] ∧
        ¬NoCycle ((d.evaluateNode [.position 0] t).run {}).2.errors ∧
        ((d.evaluateNode [.position 0] t).run {}).1 = .ok v.toValue) ∧
    (let d := ofHost Registry.builtins {} mutualHost
      ∃ v t, Assoc.get? [.name "c"] (d.afterCalls [.evaluate]).memo = some v ∧
        d.root.at? [.name "c"] = some t ∧
        NoCycle ((d.evaluateNode [.name "c"] t).run {}).2.errors ∧
        ((d.evaluateNode [.name "c"] t).run {}).1 = .ok v.toValue ∧
        ((d.recompute d.root.nodes.length [.name "c"] t).run {}).1 = v.toValue) := by
  refine ⟨?_, ?_⟩
  · intro d
    have hsome : (Assoc.get? [.position 0] (d.afterCalls [.evaluate]).memo).isSome := by
      decide +kernel
    have hv := (Option.some_get hsome).symm
    obtain ⟨t, ht, hfresh, -⟩ := stored_eq_fresh {} rfl selfHost [.evaluate] hv
    have hp : ¬d.ReachesMutual [.position 0] := not_reachesMutual_selfHost _
    have hcycle : ∀ t ∈ d.root.at? [.position 0],
        .cycle [.position 0] ∈ ((d.evaluateNode [.position 0] t).run {}).2.errors := by
      decide +kernel
    exact ⟨_, t, hv, ht, hp, fun hno => hno _ (hcycle t ht), hfresh hp⟩
  · intro d
    have hsome : (Assoc.get? [.name "c"] (d.afterCalls [.evaluate]).memo).isSome := by
      decide +kernel
    have hv := (Option.some_get hsome).symm
    obtain ⟨t, ht, -, hfresh⟩ := stored_eq_fresh {} rfl mutualHost [.evaluate] hv
    have herrors : ∀ t ∈ d.root.at? [.name "c"],
        ((d.evaluateNode [.name "c"] t).run {}).2.errors = [] := by decide +kernel
    have hno : NoCycle ((d.evaluateNode [.name "c"] t).run {}).2.errors := by
      rw [herrors t ht]
      exact noCycle_nil
    obtain ⟨hvalue, hrecompute⟩ := hfresh hno
    exact ⟨_, t, hv, ht, hno, hvalue, (hrecompute _ (Nat.le_refl _)).1⟩

/-- After an evaluation of the first array, null is kept inside the second one in place of the
first, and a fresh evaluation of the second one puts null a level deeper. -/
theorem stored_ne_fresh_mutual :
    let d := ofHost Registry.builtins {} mutualHost
    ∃ v t, Assoc.get? [.name "b"] (d.afterCalls [.evaluateNode [.name "a"]]).memo = some v ∧
      d.root.at? [.name "b"] = some t ∧
      ((d.evaluateNode [.name "b"] t).run {}).1 ≠ .ok v.toValue := by
  intro d
  let itemKinds : Value → List Kind := fun v => v.toItems.map Value.kind
  have hkept : (Assoc.get? [.name "b"] (d.afterCalls [.evaluateNode [.name "a"]]).memo).map
      (fun v => itemKinds v.toValue) = some [.null] := by decide +kernel
  have hfresh : ∀ t ∈ d.root.at? [.name "b"],
      (((d.evaluateNode [.name "b"] t).run {}).1.toOption.map itemKinds) = some [.array] := by
    decide +kernel
  have hsome : (d.root.at? [.name "b"]).isSome := by decide +kernel
  obtain ⟨v, hv, hitems⟩ := Option.map_eq_some_iff.mp hkept
  refine ⟨v, _, hv, (Option.some_get hsome).symm, fun heq => ?_⟩
  have hdeeper := hfresh _ (Option.get_mem hsome)
  rw [heq] at hdeeper
  have hitems' : itemKinds v.toValue = [.array] := Option.some.inj hdeeper
  rw [hitems] at hitems'
  cases hitems'

end Document
end MarkupEval
