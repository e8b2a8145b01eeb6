import Mathlib.Data.Finset.Card
import Mathlib.Order.Monotone.Basic
import MarkupEval.Proofs.Evaluation.Results

/-!
# Evaluation without a store of results

`Document.recompute` computes the value of a node anew from the values of the nodes that it asks
for, which are computed anew in turn. There is no store and no record of what is being computed;
only the depth is bounded, and a computation that would be deeper counts as a cycle.

A node settles within a depth if no cycle is met. From then on a greater depth changes neither its
value nor its problems (`Settles.mono`), and a node that settles at all settles within as many
computations inside each other as the tree has nodes (`Settles.within_bound`).
-/

namespace MarkupEval

/-! ## Lists of problems -/

namespace EvalError

/-- None of the problems is a cycle. -/
def NoCycle (es : List EvalError) : Prop := ∀ p, cycle p ∉ es

theorem noCycle_nil : NoCycle [] := fun _ => List.not_mem_nil

theorem noCycle_append {es fs : List EvalError} : NoCycle (es ++ fs) ↔ NoCycle es ∧ NoCycle fs := by
  simp only [NoCycle, List.mem_append, not_or, forall_and]

theorem not_noCycle_append_cycle {l : List EvalError} {p : Path} :
    ¬NoCycle (l ++ [cycle p]) := fun h => h p (by simp)

theorem noCycle_singleton {e : EvalError} (he : ∀ p, e ≠ cycle p) : NoCycle [e] := fun p h =>
  he p (List.mem_singleton.mp h).symm

end EvalError

open EvalError

namespace Document

/-- The value of a node, with at most so many computations inside each other. -/
def recompute (d : Document) : Nat → Path → Tree → StateM Store Value
  | 0, path, _ => do
    modify (Store.record (.cycle path))
    return .null
  | n + 1, path, t => d.compute (recompute d n) path t

/-- What a node is worth when nothing is kept. -/
def valueWithin (d : Document) (n : Nat) (p : Path) (t : Tree) : Value :=
  ((d.recompute n p t).run {}).1

/-- The problems that are met when nothing is kept. -/
def problemsWithin (d : Document) (n : Nat) (p : Path) (t : Tree) : List EvalError :=
  ((d.recompute n p t).run {}).2.errors

/-- So many computations inside each other are enough for a node. -/
def Settles (d : Document) (n : Nat) (p : Path) (t : Tree) : Prop :=
  NoCycle (d.problemsWithin n p t)

variable {d : Document}

theorem not_settles_zero {p : Path} {t : Tree} : ¬d.Settles 0 p t :=
  not_noCycle_append_cycle (l := [])

theorem recompute_yields {T : Prop} {P : Value → Prop} (hP : Value.Hereditary T P)
    (hr : d.registry.Allows T) (n : Nat) (p : Path) (t : Tree) :
    Yields (Mergeable T P) (d.recompute n p t) := by
  induction n generalizing p t with
  | zero => exact .bind_any fun _ => .pure (.of_hereditary hP hP.null)
  | succ n ih => exact compute_yields hP hr ih p t

theorem wellFormed_valueWithin (n : Nat) (p : Path) (t : Tree) :
    (d.valueWithin n p t).WellFormed := by
  have hall : d.registry.Allows True := fun _ _ _ => .inl trivial
  exact (recompute_yields Value.wellFormed_hereditary hall n p t {}).of_admitted
    Value.wellFormed_hereditary trivial

/-! ## The state does not matter -/

/-- What a run from the state `s` leaves behind, seen from a run that starts without problems. -/
structure FrameOf (s a b : Store) : Prop where
  memo : a.memo = s.memo
  active : a.active = s.active
  errors : a.errors = s.errors ++ b.errors

theorem FrameOf.record {s a b : Store} (h : FrameOf s a b) (e : EvalError) :
    FrameOf s (a.record e) (b.record e) :=
  ⟨h.memo, h.active, by simp [Store.record, h.errors]⟩

theorem recompute_sim_frame (hd : d.root.Keyed) (s : Store) (n : Nat) {p : Path} {t : Tree}
    (ht : d.root.at? p = some t) :
    Sim (FrameOf s) (fun _ => True) (d.recompute n p t) (d.recompute n p t) := by
  induction n generalizing p t with
  | zero =>
    exact .bind (.modify (fun _ _ => trivial) fun _ _ h _ => h.record _) fun _ => .pure _
  | succ n ih =>
    exact compute_sim ⟨fun _ _ => trivial, fun _ h _ => h.record _⟩ hd (fun _ _ h => ih h) ht

/-- Recomputing gives the same value in every state, and adds the same problems. -/
theorem run_recompute (hd : d.root.Keyed) (s : Store) (n : Nat) {p : Path} {t : Tree}
    (ht : d.root.at? p = some t) :
    (d.recompute n p t).run s =
      (d.valueWithin n p t, { s with errors := s.errors ++ d.problemsWithin n p t }) := by
  obtain ⟨hv, hmemo, hactive, herrors⟩ := (recompute_sim_frame hd s n ht).agree s {}
    ⟨rfl, rfl, by simp⟩ trivial
  refine Prod.ext hv ?_
  generalize ((d.recompute n p t).run s).2 = s' at *
  cases s'
  simp_all [problemsWithin]

/-! ## Greater depths -/

theorem recordSim_noCycle : RecordSim Eq fun s => NoCycle s.errors where
  good_before _ h := (noCycle_append.mp h).1
  agree _ h _ := h ▸ rfl

theorem recompute_succ_sim (hd : d.root.Keyed) (n : Nat) {p : Path} {t : Tree}
    (ht : d.root.at? p = some t) :
    Sim Eq (fun s => NoCycle s.errors) (d.recompute (n + 1) p t) (d.recompute n p t) := by
  induction n generalizing p t with
  | zero =>
    exact ⟨fun _ h => (noCycle_append.mp h).1, fun _ _ _ h => absurd h not_noCycle_append_cycle⟩
  | succ n ih => exact compute_sim recordSim_noCycle hd (fun _ _ h => ih h) ht

theorem Settles.succ (hd : d.root.Keyed) {n : Nat} {p : Path} {t : Tree}
    (ht : d.root.at? p = some t) (h : d.Settles n p t) :
    d.valueWithin (n + 1) p t = d.valueWithin n p t ∧
      d.problemsWithin (n + 1) p t = d.problemsWithin n p t := by
  obtain ⟨hv, hs⟩ := (recompute_succ_sim hd n ht).agree {} {} rfl h
  exact ⟨hv, congrArg Store.errors hs⟩

theorem Settles.eq_of_le (hd : d.root.Keyed) {n m : Nat} {p : Path} {t : Tree}
    (ht : d.root.at? p = some t) (h : d.Settles n p t) (hnm : n ≤ m) :
    d.valueWithin m p t = d.valueWithin n p t ∧
      d.problemsWithin m p t = d.problemsWithin n p t := by
  induction hnm with
  | refl => exact ⟨rfl, rfl⟩
  | @step m _ ih =>
    have hm : d.Settles m p t := by
      rw [Settles, ih.2]
      exact h
    obtain ⟨hv, hp⟩ := hm.succ hd ht
    exact ⟨hv.trans ih.1, hp.trans ih.2⟩

theorem Settles.mono (hd : d.root.Keyed) {n m : Nat} {p : Path} {t : Tree}
    (ht : d.root.at? p = some t) (h : d.Settles n p t) (hnm : n ≤ m) : d.Settles m p t := by
  rw [Settles, (h.eq_of_le hd ht hnm).2]
  exact h

/-! ## The depth that is enough -/

/-- Where every node that settles one level further settles already, so does every node that needs
two levels more. -/
theorem settles_of_settles_succ (hd : d.root.Keyed) {n : Nat}
    (h : ∀ p t, d.root.at? p = some t → d.Settles (n + 1) p t → d.Settles n p t) {p : Path}
    {t : Tree} (ht : d.root.at? p = some t) (hp : d.Settles (n + 2) p t) :
    d.Settles (n + 1) p t := by
  have hcall : ∀ q u, d.root.at? q = some u →
      Sim Eq (fun s => NoCycle s.errors) (d.recompute n q u) (d.recompute (n + 1) q u) := by
    refine fun q u hu => ⟨(recompute_succ_sim hd (n + 1) hu).good_before, fun s s' hs hgood => ?_⟩
    subst hs
    rw [run_recompute hd s _ hu] at hgood ⊢
    rw [run_recompute hd s _ hu]
    have hn : d.Settles n q u := h q u hu (noCycle_append.mp hgood).2
    rw [(hn.succ hd hu).1, (hn.succ hd hu).2]
    exact ⟨rfl, rfl⟩
  obtain ⟨-, hs⟩ := (compute_sim recordSim_noCycle hd hcall ht).agree {} {} rfl hp
  rw [Settles, problemsWithin, recompute, hs]
  exact hp

open Classical in
/-- The nodes that settle within a depth. -/
noncomputable def settled (d : Document) (n : Nat) : Finset (Path × Tree) :=
  d.root.nodes.toFinset.filter fun x => d.Settles n x.1 x.2

theorem mem_settled (hd : d.root.Keyed) {n : Nat} {p : Path} {t : Tree} :
    (p, t) ∈ d.settled n ↔ d.root.at? p = some t ∧ d.Settles n p t := by
  classical
  simp [settled, Tree.mem_nodes_iff hd]

theorem settled_mono (hd : d.root.Keyed) {n m : Nat} (h : n ≤ m) : d.settled n ⊆ d.settled m := by
  rintro ⟨p, t⟩ hx
  rw [mem_settled hd] at hx ⊢
  exact ⟨hx.1, hx.2.mono hd hx.1 h⟩

/-- The depth that is enough for all nodes that settle: the number of nodes. -/
def bound (d : Document) : Nat := d.root.nodes.length

theorem card_settled_le (n : Nat) : (d.settled n).card ≤ d.bound := by
  classical
  exact (Finset.card_filter_le _ _).trans (List.toFinset_card_le _)

/-- A node that settles at all settles within the number of nodes. -/
theorem Settles.within_bound (hd : d.root.Keyed) {n : Nat} {p : Path} {t : Tree}
    (ht : d.root.at? p = some t) (h : d.Settles n p t) : d.Settles d.bound p t := by
  have hmono : Monotone fun m => (d.settled m).card := fun _ _ hm =>
    Finset.card_le_card (settled_mono hd hm)
  have hstable : ∀ m, (d.settled m).card = (d.settled (m + 1)).card →
      (d.settled (m + 1)).card = (d.settled (m + 2)).card := by
    intro m hm
    have heq := Finset.eq_of_subset_of_card_le (settled_mono hd (Nat.le_succ m)) hm.ge
    refine congrArg Finset.card (Finset.Subset.antisymm (settled_mono hd (Nat.le_succ _)) ?_)
    rintro ⟨q, u⟩ hx
    rw [mem_settled hd] at hx ⊢
    refine ⟨hx.1, settles_of_settles_succ hd (fun q u hu hq => ?_) hx.1 hx.2⟩
    have : (q, u) ∈ d.settled m := heq ▸ (mem_settled hd).mpr ⟨hu, hq⟩
    exact ((mem_settled hd).mp this).2
  rcases Nat.le_total n d.bound with hn | hn
  · exact h.mono hd ht hn
  · have hcard := Nat.stabilises_of_monotone hmono card_settled_le hstable hn
    have heq := Finset.eq_of_subset_of_card_le (settled_mono hd hn) hcard.le
    have : (p, t) ∈ d.settled d.bound := heq ▸ (mem_settled hd).mpr ⟨ht, h⟩
    exact ((mem_settled hd).mp this).2

theorem Settles.eq_bound (hd : d.root.Keyed) {n : Nat} {p : Path} {t : Tree}
    (ht : d.root.at? p = some t) (h : d.Settles n p t) :
    d.valueWithin n p t = d.valueWithin d.bound p t ∧
      d.problemsWithin n p t = d.problemsWithin d.bound p t := by
  have hn := h.eq_of_le hd ht (Nat.le_max_left n d.bound)
  have hb := (h.within_bound hd ht).eq_of_le hd ht (Nat.le_max_right n d.bound)
  exact ⟨hn.1.symm.trans hb.1, hn.2.symm.trans hb.2⟩

end Document
end MarkupEval
