import MarkupEval.Proofs.Evaluation.History

/-!
# Results that were computed around a cycle

Lax mode keeps a result whatever problems there were. Where the computation met a cycle, the node
that was read a second time counted as null, and which node that is can depend on where the
evaluation started.

Only nodes that meet a cycle on a fresh tree themselves are affected (`stored_eq_recompute`). The
nodes that settle are computed as if the others were not there: a node that settles asks for such
nodes only, so a store that is sound at these stays sound, whatever it keeps for the others
(`sound_settling_valueOf`).
-/

namespace MarkupEval

open EvalError

namespace Document

variable {d : Document} {p : Path} {t : Tree} {s : Store}

/-- Every evaluation keeps a store sound at the nodes that settle, as long as none of the nodes that
are being computed settles. -/
theorem sound_settling_valueOf (hd : d.root.Keyed) (fuel : Nat) (ht : d.root.at? p = some t)
    (hs : d.Sound (d.Settles d.bound) s) (hnested : d.Nested fuel s.active)
    (hactive : d.Unsettled d.bound s.active) :
    d.Sound (d.Settles d.bound) ((d.valueOf fuel p t).run s).2 := by
  induction fuel using Nat.strong_induction_on generalizing p t s with | _ fuel ih
  by_cases hp : d.Settles d.bound p t
  · exact (faithful_of_settles hd id d.bound fuel ht hs hnested hp hactive).sound
  apply run_valueOf_of_memo Sound.of_memo_eq hs
  rintro n rfl hmem
  have hnested' : d.Nested n (s.enter p).active := hnested.cons ht hmem
  have hbelow : d.Unsettled d.bound (s.enter p).active := hactive.cons ht hp
  obtain ⟨hsound, -⟩ := compute_entered_keeps hd (fun _ _ h => h.of_memo_eq rfl) ht
    (fun q u hu a h hactive => ih n n.lt_succ_self hu h (hactive ▸ hnested') (hactive ▸ hbelow))
    (hs.of_memo_eq rfl)
  -- The node does not settle, so that nothing is asked of what is kept for it.
  unfold keepResult
  dsimp only
  split
  · exact (hsound.of_memo_eq rfl).keep ht fun h => absurd h hp
  · exact hsound.of_memo_eq rfl

/-- After any calls the store is sound at the nodes that settle. -/
theorem sound_settling_afterCalls (hd : d.root.Keyed) (calls : List Call) :
    d.Sound (d.Settles d.bound) (d.afterCalls calls) := by
  refine (afterCalls_keeps (I := fun s => s.active = [] ∧ d.Sound (d.Settles d.bound) s)
    ⟨rfl, sound_of_memo_eq_nil rfl⟩ (fun s hs => ⟨hs.1, sound_of_memo_eq_nil rfl⟩) ?_ calls).2
  intro p t ht s hs
  obtain ⟨hactive, hsound⟩ := hs
  rw [run_evaluateNode]
  refine ⟨(extends_valueOf hd _ ht _).active.trans hactive, ?_⟩
  refine sound_settling_valueOf hd _ ht (hsound.of_memo_eq rfl) ?_ ?_
  · exact hactive ▸ nested_nil
  · exact hactive ▸ unsettled_nil _

/-- What lax mode keeps for a node that meets no cycle on a fresh tree is what it gives there. It is
the value of recomputing the node too, in which no cycle is met either: nothing was null because it
was being computed. -/
theorem stored_eq_recompute (hd : d.root.Keyed) (hlax : d.options.strict = false)
    (calls : List Call) {v : Stored} (hv : Assoc.get? p (d.afterCalls calls).memo = some v)
    (ht : d.root.at? p = some t) (hfresh : NoCycle ((d.evaluateNode p t).run {}).2.errors) :
    ((d.evaluateNode p t).run {}).1 = .ok v.toValue ∧
      ∀ n, d.root.nodes.length ≤ n → ((d.recompute n p t).run {}).1 = v.toValue ∧
        NoCycle ((d.recompute n p t).run {}).2.errors := by
  have hp : d.Settles d.bound p t := settles_of_fresh hd ht hfresh
  have hvalue : v.toValue = d.value p t :=
    ((sound_settling_afterCalls hd calls).keeps ht hv hp).toValue
  have hfaithful := quiet_fresh.faithful hd ht hp
  refine ⟨?_, fun n hn => ⟨?_, hp.mono hd ht hn⟩⟩
  · rw [run_evaluateNode]
    change d.answer _ = _
    rw [answer_lax hlax, hvalue]
    exact congrArg Except.ok hfaithful.value
  · rw [hvalue]
    exact (hp.eq_of_le hd ht hn).1

end Document
end MarkupEval
