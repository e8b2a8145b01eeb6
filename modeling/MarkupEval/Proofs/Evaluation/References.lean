import MarkupEval.Proofs.Evaluation.Coverage
import MarkupEval.Proofs.Evaluation.Dependency

/-!
# References in a fold

A reference is a child whose value, a transformer, brings in the value of another node. What the
fold becomes is what it would become if the child had that value itself
(`foldChildren_readThrough_iff`), with one exception: the seed of a scalar gives way to markup that
the first child has, but not to markup that the first child refers to. There the text of the seed
stays in front (`foldChildren_ne_readThrough_number`).
-/

namespace MarkupEval

namespace Value

variable {σ : Type} {hooks : Hooks σ}

/-- A reference brings in what is found at its target. -/
theorem run_merge_reference {name target : String} {args : List Value} {current v : Value}
    {s s' : σ} (key : Key) (htarget : Operation.referenceTarget args = .ok target)
    (hfound : (hooks.resolve target).run s = (some v, s')) (hv : v.kind ≠ .transformer) :
    (merge hooks current (.transformer name args .reference) key).run s =
      (current.absorb v key, s') := by
  have houtcome : Operation.referenceOutcome target (some v) = .merge v := by
    cases v with
    | transformer name args op => exact absurd rfl hv
    | _ => rfl
  have hrun : (Operation.runReference hooks args).run s = (.merge v, s') := by
    simp only [Operation.runReference, htarget]
    rw [StateM.run_bind, hfound]
    exact congrArg (·, s') houtcome
  have hne : Operation.reference ≠ .mergeFirst := nofun
  rw [merge, mergeInto.eq_2 hooks _ _ _ _ _ hne, StateM.run_bind, Operation.run, hrun]
  rfl

end Value

namespace Document

variable {d : Document} {f : Path → Tree → StateM Store Value} {path q : Path} {n c u : Tree}
  {k : Key} {s : Store}

/-! ## Folds -/

theorem foldChildren_append (hooks : Hooks Store) (yields : Bool) (before after : List (Key × Tree))
    (acc : Value) :
    foldChildren f hooks path yields (before ++ after) acc =
      foldChildren f hooks path yields before acc >>=
        foldChildren f hooks path (yields && before.isEmpty) after := by
  induction before generalizing yields acc with
  | nil =>
    rw [foldChildren, pure_bind]
    simp
  | cons e before ih =>
    obtain ⟨k, t⟩ := e
    rw [List.cons_append, foldChildren_cons, foldChildren_cons, bind_assoc]
    congr
    funext incoming
    rw [bind_assoc]
    congr
    funext acc
    rw [ih]
    simp

/-- A node that is no transformer has a value that is none. -/
theorem kind_valueOf_ne (fuel : Nat) (hkind : u.kind ≠ .transformer) (s : Store) :
    ((d.valueOf fuel q u).run s).1.kind ≠ .transformer := by
  refine run_valueOf_cases (motive := fun r => r.1.kind ≠ .transformer) ?_ ?_ ?_ ?_
  · exact fun v _ => v.plain_toValue.kind_ne
  · exact fun _ _ => nofun
  · exact fun _ _ => nofun
  · rintro m rfl - -
    rw [kind_compute hkind]
    exact hkind

/-- Evaluation in which one node takes the value of the node that it refers to for its own. -/
def readThrough (d : Document) (f : Path → Tree → StateM Store Value) (origin : Path) (p : Path)
    (t : Tree) : StateM Store Value := do
  let v ← f p t
  if p = origin then
    match v.referenceTarget?.bind d.root.resolve with
    | some (q, u) => f q u
    | none => return v
  else return v

theorem readThrough_of_ne {origin p : Path} (h : p ≠ origin) (t : Tree) :
    d.readThrough f origin p t = f p t := by
  unfold readThrough
  simp only [if_neg h, bind_pure]

theorem run_readThrough {origin : Path} {target : String} {t : Tree}
    (htarget : ((f origin t).run s).1.referenceTarget? = some target)
    (hresolve : d.root.resolve target = some (q, u)) :
    (d.readThrough f origin origin t).run s = (f q u).run ((f origin t).run s).2 := by
  unfold readThrough
  rw [StateM.run_bind]
  simp only [if_true, htarget, Option.bind_some, hresolve]

/-- A fold asks for its children only. -/
theorem foldChildren_congr {g : Path → Tree → StateM Store Value} (hooks : Hooks Store)
    (yields : Bool) {children : List (Key × Tree)} (acc : Value)
    (h : ∀ k t, (k, t) ∈ children → f (path ++ [k]) t = g (path ++ [k]) t) :
    foldChildren f hooks path yields children acc =
      foldChildren g hooks path yields children acc := by
  have C : Compositional fun α (m m' : StateM Store α) => m = m' :=
    ⟨fun _ => rfl, fun hm hk => by rw [hm, funext hk]⟩
  exact foldChildren_rel C ⟨fun _ => rfl, fun _ => rfl⟩ yields acc h

/-- What a fold becomes when it takes in a value that is no transformer. -/
theorem run_foldChildren_last {hooks : Hooks Store} {yields : Bool} {acc v : Value} {s' : Store}
    (hv : ((f (path ++ [k]) c).run s) = (v, s')) (hkind : v.kind ≠ .transformer) :
    (foldChildren f hooks path yields [(k, c)] acc).run s =
      (if yields && v.isMarkup then v else acc.absorb v k, s') := by
  rw [foldChildren_cons, StateM.run_bind, hv, StateM.run_bind, takeIn]
  split
  · rfl
  · rw [Value.merge_of_kind_ne hkind]
    rfl

/-- What a fold becomes when it takes in a reference to a value that is no transformer. -/
theorem run_foldChildren_reference {yields : Bool} {acc v : Value} {target : String} {s' : Store}
    (htarget : ((f (path ++ [k]) c).run s).1.referenceTarget? = some target)
    (hresolve : d.root.resolve target = some (q, u))
    (hv : (f q u).run ((f (path ++ [k]) c).run s).2 = (v, s')) (hkind : v.kind ≠ .transformer) :
    (foldChildren f (d.hooks f path) path yields [(k, c)] acc).run s = (acc.absorb v k, s') := by
  obtain ⟨name, args, hchild, hargs⟩ := Value.referenceTarget?_eq_some htarget
  have hfound : ((d.hooks f path).resolve target).run ((f (path ++ [k]) c).run s).2 =
      (some v, s') := by
    simp only [hooks, hresolve]
    rw [StateM.run_bind, hv]
    rfl
  rw [foldChildren_cons, StateM.run_bind, hchild, StateM.run_bind, takeIn,
    if_neg (by simp [Value.isMarkup]), Value.run_merge_reference k hargs hfound hkind]
  rfl

/-! ## Seeds -/

theorem absorb_seed {t : Tree} {v : Value} (hseed : hasScalarSeed t.kind = true)
    (hv : v.isMarkup = true) :
    (seed t).absorb v k = .nodes ((seed t).nodesOf ++ v.nodesOf) := by
  unfold seed
  cases ht : t.kind with
  | null | boolean | number | string | text => exact if_pos hv
  | _ => simp [ht, hasScalarSeed] at hseed

/-- The seeds of scalars without text. -/
theorem nodesOf_seed_eq_nil_iff {t : Tree} (hseed : hasScalarSeed t.kind = true) :
    (seed t).nodesOf = [] ↔ t.kind = .null ∨ t.kind = .string := by
  unfold seed
  cases ht : t.kind with
  | null | boolean | number | string | text => simp [Value.nodesOf]
  | _ => simp [ht, hasScalarSeed] at hseed

/-- Markup that a scalar seed takes in stays as it is only if it is a list of nodes and the seed has
no text. -/
theorem absorb_seed_eq_iff {t : Tree} {v : Value} (hseed : hasScalarSeed t.kind = true)
    (hv : v.isMarkup = true) : (seed t).absorb v k = v ↔
      v.kind = .nodes ∧ (t.kind = .null ∨ t.kind = .string) := by
  rw [absorb_seed hseed hv, ← nodesOf_seed_eq_nil_iff hseed]
  cases v with
  | nodes ns => simp [Value.nodesOf, Value.kind]
  | text s | element e => simp [Value.kind]
  | _ => cases hv

/-! ## Reading through a reference -/

/-- What the fold of a node becomes with a reference among its children, whatever store it starts
in, is what it would become if the reference had the value of its target; just that a scalar seed
does not give way to markup that its first child refers to. The store is the same in any case. -/
theorem foldChildren_readThrough_iff (r : Registry) (o : Options) (host : Node) (fuel : Nat)
    {path : Path} {n : Tree} (hn : (ofHost r o host).root.at? path = some n)
    {before after : List (Key × Tree)} {k : Key} {c : Tree}
    (hc : n.subtrees = before ++ (k, c) :: after) (s : Store) :
    let d := ofHost r o host
    let f := d.valueOf fuel
    let fold := fun g children =>
      (foldChildren g (d.hooks f path) path (hasScalarSeed n.kind) children (seed n)).run s
    let child := (f (path ++ [k]) c).run (fold f before).2
    ∀ {target q u}, child.1.referenceTarget? = some target →
      d.root.resolve target = some (q, u) → u.kind ≠ .transformer →
      let v := ((f q u).run child.2).1
      let real := fold f (before ++ [(k, c)])
      let through := fold (d.readThrough f (path ++ [k])) (before ++ [(k, c)])
      real.2 = through.2 ∧
        (real.1 = through.1 ↔
          (before = [] → hasScalarSeed n.kind = true → v.isMarkup = true →
            v.kind = .nodes ∧ (n.kind = .null ∨ n.kind = .string))) := by
  intro d f fold child target q u htarget hresolve hu v real through
  have hd : d.root.Keyed := Tree.ofHost_keyed r o host
  have hv : v.kind ≠ .transformer := kind_valueOf_ne fuel hu _
  have hkeys : ∀ k' t, (k', t) ∈ before → path ++ [k'] ≠ path ++ [k] := by
    intro k' t ht heq
    have hnodup : (Assoc.keys (before ++ (k, c) :: after)).Nodup :=
      hc ▸ (Tree.keyed_iff.mp (hd.at? hn)).1
    refine Assoc.notMem_keys_of_nodup hnodup (List.mem_map.mpr ⟨_, ht, ?_⟩)
    simpa using heq
  -- Both folds take in the same value; only the fold over the node that has it lets a seed give
  -- way.
  have hreal : real = ((fold f before).1.absorb v k, ((f q u).run child.2).2) := by
    simp only [real, fold]
    rw [foldChildren_append, StateM.run_bind]
    exact run_foldChildren_reference htarget hresolve rfl hv
  have hthrough : through =
      (if hasScalarSeed n.kind && before.isEmpty && v.isMarkup then v
        else (fold f before).1.absorb v k, ((f q u).run child.2).2) := by
    simp only [through, fold]
    rw [foldChildren_append, StateM.run_bind, foldChildren_congr _ _ _ fun k' t ht =>
      readThrough_of_ne (hkeys k' t ht) t]
    exact run_foldChildren_last (run_readThrough htarget hresolve) hv
  rw [hreal, hthrough]
  refine ⟨rfl, ?_⟩
  dsimp only
  cases before with
  | cons e before => simp
  | nil =>
    have hstart : (fold f []).1 = seed n := rfl
    rw [hstart]
    by_cases hyields : hasScalarSeed n.kind = true ∧ v.isMarkup = true
    · rw [if_pos (by simp [hyields])]
      simp only [hyields.1, hyields.2, forall_const]
      exact absorb_seed_eq_iff hyields.1 hyields.2
    · rw [if_neg (by simpa using hyields)]
      simp only [true_iff]
      exact fun _ hseed hmarkup => absurd ⟨hseed, hmarkup⟩ hyields

/-- A text that an array refers to after another text, and that a number refers to. -/
def referringHost : Node :=
  .element "record" ∅
    [.element "text" (.ofPairs [("_name", "x")]) [.text "-1"],
     .element "array" (.ofPairs [("_name", "a")]) [.text "x: ", .element "ref" ∅ [.text "/x"]],
     .element "number" (.ofPairs [("_name", "n")]) [.element "ref" ∅ [.text "/x"]]]

theorem foldChildren_readThrough_iff_array :
    let d := ofHost Registry.builtins {} referringHost
    let f := d.valueOf d.root.nodes.length
    ∃ n b c u, d.root.at? [.name "a"] = some n ∧
      n.subtrees = [(.position 0, b)] ++ (.position 1, c) :: [] ∧
      let fold := fun g children =>
        (foldChildren g (d.hooks f [.name "a"]) [.name "a"] (hasScalarSeed n.kind) children
          (seed n)).run {}
      let child := (f [.name "a", .position 1] c).run (fold f [(.position 0, b)]).2
      child.1.referenceTarget? = some "/x" ∧ d.root.resolve "/x" = some ([.name "x"], u) ∧
        u.kind ≠ .transformer ∧
        let v := ((f [.name "x"] u).run child.2).1
        let real := fold f [(.position 0, b), (.position 1, c)]
        let through := fold (d.readThrough f [.name "a", .position 1])
          [(.position 0, b), (.position 1, c)]
        real.2 = through.2 ∧
          (real.1 = through.1 ↔
            ([(Key.position 0, b)] = [] → hasScalarSeed n.kind = true → v.isMarkup = true →
              v.kind = .nodes ∧ (n.kind = .null ∨ n.kind = .string))) := by
  intro d f
  have hnode : (d.root.at? [.name "a"]).any (fun n =>
      Assoc.keys n.subtrees = [.position 0, .position 1] ∧ ∀ e ∈ n.subtrees.drop 1,
        ((f [.name "a", .position 1] e.2).run
          ((foldChildren f (d.hooks f [.name "a"]) [.name "a"] (hasScalarSeed n.kind)
            (n.subtrees.take 1) (seed n)).run {}).2).1.referenceTarget? = some "/x") = true := by
    decide +kernel
  have htarget : (d.root.resolve "/x").any (fun e => e.1 = [.name "x"] ∧
      e.2.kind ≠ .transformer) = true := by
    decide +kernel
  obtain ⟨n, hn, h⟩ := (Option.any_eq_true _ _).mp hnode
  obtain ⟨hkeys, hrefs⟩ := of_decide_eq_true h
  obtain ⟨⟨_, b⟩, rest, hsubs, rfl, hrest⟩ := List.map_eq_cons_iff.mp hkeys
  obtain ⟨⟨_, c⟩, last, rfl, rfl, hlast⟩ := List.map_eq_cons_iff.mp hrest
  cases List.map_eq_nil_iff.mp hlast
  obtain ⟨⟨q, u⟩, hresolve, h⟩ := (Option.any_eq_true _ _).mp htarget
  obtain ⟨rfl, hu⟩ := of_decide_eq_true h
  rw [hsubs] at hrefs
  have href := hrefs (.position 1, c) List.mem_cons_self
  exact ⟨n, b, c, u, hn, hsubs, href, hresolve, hu, foldChildren_readThrough_iff
    Registry.builtins {} referringHost d.root.nodes.length hn hsubs {} href hresolve hu⟩

/-- The seed of a number is its text "0". In front of a text that is referred to it stays, and the
number is 0; in front of the text itself it does not, and the number is -1. -/
theorem foldChildren_ne_readThrough_number :
    let d := ofHost Registry.builtins {} referringHost
    let f := d.valueOf d.root.nodes.length
    let s := Store.enter [.name "n"] {}
    ∃ n c u, d.root.at? [.name "n"] = some n ∧ n.subtrees = [(.position 0, c)] ∧
      let fold := fun g =>
        (foldChildren g (d.hooks f [.name "n"]) [.name "n"] (hasScalarSeed n.kind) n.subtrees
          (seed n)).run s
      ((f [.name "n", .position 0] c).run s).1.referenceTarget? = some "/x" ∧
        d.root.resolve "/x" = some ([.name "x"], u) ∧ u.kind ≠ .transformer ∧
        [.name "x"] ∉ s.active ∧
        (fold f).1 ≠ (fold (d.readThrough f [.name "n", .position 0])).1 ∧
        (fold f).1.toNumber.text = "0" ∧
        (fold (d.readThrough f [.name "n", .position 0])).1.toNumber.text = "-1" := by
  intro d f s
  have hnode : (d.root.at? [.name "n"]).any (fun n =>
      let fold := fun g =>
        (foldChildren g (d.hooks f [.name "n"]) [.name "n"] (hasScalarSeed n.kind) n.subtrees
          (seed n)).run s
      Assoc.keys n.subtrees = [.position 0] ∧ (∀ e ∈ n.subtrees,
        ((f [.name "n", .position 0] e.2).run s).1.referenceTarget? = some "/x") ∧
      (fold f).1.toNumber.text = "0" ∧
      (fold (d.readThrough f [.name "n", .position 0])).1.toNumber.text = "-1") = true := by
    decide +kernel
  have htarget : (d.root.resolve "/x").any (fun e => e.1 = [.name "x"] ∧
      e.2.kind ≠ .transformer) = true := by
    decide +kernel
  obtain ⟨n, hn, h⟩ := (Option.any_eq_true _ _).mp hnode
  obtain ⟨hkeys, hrefs, hreal, hthrough⟩ := of_decide_eq_true h
  obtain ⟨⟨_, c⟩, rest, hsubs, rfl, hrest⟩ := List.map_eq_cons_iff.mp hkeys
  cases List.map_eq_nil_iff.mp hrest
  obtain ⟨⟨q, u⟩, hresolve, h⟩ := (Option.any_eq_true _ _).mp htarget
  obtain ⟨rfl, hu⟩ := of_decide_eq_true h
  have href := hrefs (.position 0, c) (hsubs ▸ List.mem_cons_self)
  refine ⟨n, c, u, hn, hsubs, href, hresolve, hu, by decide, fun heq => ?_, hreal, hthrough⟩
  have hnumber := congrArg (fun v : Value => v.toNumber.text) heq
  exact absurd (hreal.symm.trans (hnumber.trans hthrough)) (by decide)

end Document
end MarkupEval
