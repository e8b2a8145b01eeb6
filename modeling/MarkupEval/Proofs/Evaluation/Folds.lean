import MarkupEval.Proofs.Evaluation.CutReads
import MarkupEval.Proofs.Evaluation.References
import MarkupEval.Proofs.Evaluation.Termination
import MarkupEval.Proofs.Tree.LiveNodes

/-!
# Folds without transformers

Where none of the children of a node is a transformer, nothing happens in a fold besides reading the
children: its computation reads them one after the other and then takes in their values
(`compute_eq_readChildren`). What it comes to can be said outright (`folded_finish`): an array holds
the values of the children with a position and a record those of the children with a name, and out of
markup only a list of nodes is joined, whatever the accumulator was on the way.

So it is wherever an evaluation computes such a node, and where no cycle is met the values of the
children are those that they evaluate to themselves (`evaluateNode_folded`).
-/

namespace MarkupEval

open EvalError

namespace Value

/-! ## Taking in known values -/

/-- What values under keys make of an accumulator. `yields` says that it is a seed that gives way to
markup. -/
def absorbAll : Bool → List (Key × Value) → Value → Value
  | _, [], acc => acc
  | yields, (k, v) :: rest, acc =>
    absorbAll false rest (if yields && v.isMarkup then v else acc.absorb v k)

/-- The values of children without a name. -/
def positionals (children : List (Key × Value)) : List Value :=
  children.filterMap fun e => if e.1.isName then none else some e.2

/-- The values of children with a name, under their names. -/
def entriesOf (children : List (Key × Value)) : List (String × Value) :=
  children.filterMap fun e => e.1.name?.map fun s => (s, e.2)

/-- The nodes of values, one after the other. -/
def nodesOfAll (children : List (Key × Value)) : List Node := children.flatMap fun e => e.2.nodesOf

theorem absorbAll_array (children : List (Key × Value)) (items : List Value) :
    absorbAll false children (.array items) = .array (items ++ positionals children) := by
  induction children generalizing items with
  | nil => simp [absorbAll, positionals]
  | cons e rest ih =>
    obtain ⟨k, v⟩ := e
    cases k with
    | position i =>
      have habsorb : (Value.array items).absorb v (.position i) = .array (items ++ [v]) := rfl
      simp [absorbAll, habsorb, ih, positionals, Key.isName]
    | name s =>
      have habsorb : (Value.array items).absorb v (.name s) = .array items := rfl
      simp [absorbAll, habsorb, ih, positionals, Key.isName]

theorem keys_entriesOf (children : List (Key × Value)) :
    Assoc.keys (entriesOf children) = (Assoc.keys children).filterMap Key.name? := by
  rw [Assoc.keys, entriesOf, List.map_filterMap, Assoc.keys, List.filterMap_map]
  refine List.filterMap_congr fun e _ => ?_
  simp [Option.map_map, Function.comp_def]

theorem absorbAll_record {children : List (Key × Value)} {entries : List (String × Value)}
    (h : (Assoc.keys (entries ++ entriesOf children)).Nodup) :
    absorbAll false children (.record entries) = .record (entries ++ entriesOf children) := by
  induction children generalizing entries with
  | nil => simp [absorbAll, entriesOf]
  | cons e rest ih =>
    obtain ⟨k, v⟩ := e
    cases k with
    | position i => exact ih h
    | name s =>
      have hcons : entriesOf ((.name s, v) :: rest) = (s, v) :: entriesOf rest := rfl
      rw [hcons] at h ⊢
      have hinsert : Assoc.insert s v entries = entries ++ [(s, v)] :=
        Assoc.insert_eq_append (Assoc.notMem_keys_of_nodup h)
      have habsorb : (Value.record entries).absorb v (.name s) = .record (entries ++ [(s, v)]) :=
        congrArg Value.record hinsert
      simp only [absorbAll, Bool.false_and, Bool.false_eq_true, if_false, habsorb]
      rw [ih (by simpa using h)]
      simp

/-- Markup that takes in markup is markup again, with the nodes of both. -/
theorem absorb_of_isMarkup {acc v : Value} (hacc : acc.isMarkup = true) (hv : v.isMarkup = true)
    (k : Key) :
    (acc.absorb v k).isMarkup = true ∧ (acc.absorb v k).nodesOf = acc.nodesOf ++ v.nodesOf := by
  have hjoined : acc.absorb v k = concatenate acc v := by
    cases acc with
    | text s => exact if_pos hv
    | element e => exact if_pos hv
    | nodes ns =>
      cases v with
      | text _ | element _ | nodes _ => rfl
      | _ => cases hv
    | _ => cases hacc
  rw [hjoined]
  exact ⟨rfl, rfl⟩

theorem absorbAll_of_isMarkup {children : List (Key × Value)} {acc : Value}
    (hacc : acc.isMarkup = true) (h : ∀ e ∈ children, e.2.isMarkup = true) :
    (absorbAll false children acc).isMarkup = true ∧
      (absorbAll false children acc).nodesOf = acc.nodesOf ++ nodesOfAll children := by
  induction children generalizing acc with
  | nil => exact ⟨hacc, (List.append_nil _).symm⟩
  | cons e rest ih =>
    obtain ⟨k, v⟩ := e
    rw [List.forall_mem_cons] at h
    obtain ⟨hmarkup, hnodes⟩ := absorb_of_isMarkup hacc h.1 k
    obtain ⟨hrest, hall⟩ := ih hmarkup h.2
    refine ⟨hrest, hall.trans ?_⟩
    rw [hnodes, List.append_assoc]
    rfl

/-- A seed that gives way leaves no trace in front of markup. -/
theorem absorbAll_yielding {children : List (Key × Value)} (hne : children ≠ [])
    (h : ∀ e ∈ children, e.2.isMarkup = true) (seed : Value) :
    (absorbAll true children seed).isMarkup = true ∧
      (absorbAll true children seed).nodesOf = nodesOfAll children := by
  cases children with
  | nil => exact absurd rfl hne
  | cons e rest =>
    obtain ⟨k, v⟩ := e
    rw [List.forall_mem_cons] at h
    have hfirst : absorbAll true ((k, v) :: rest) seed = absorbAll false rest v := by
      simp [absorbAll, h.1]
    rw [hfirst]
    exact absorbAll_of_isMarkup h.1 h.2

theorem stringOf_of_isMarkup {v : Value} (h : v.isMarkup = true) :
    v.stringOf = markupText v.nodesOf := by
  cases v with
  | text s => simp [stringOf, markupText, nodesOf]
  | element e => simp [stringOf, markupText, nodesOf, Element.toNode, Element.html]
  | nodes ns => rfl
  | _ => cases h

/-- What the values of children come to at a node of a kind: the items of an array, the entries of a
record, the nodes of a list, the text of a string or of a text. -/
structure Folded (kind : Kind) (children : List (Key × Value)) (v : Value) : Prop where
  array : kind = .array → v = .array (positionals children)
  record : kind = .record → v = .record (entriesOf children)
  nodes : kind = .nodes → children ≠ [] → (∀ e ∈ children, e.2.isMarkup = true) →
    v = .nodes (nodesOfAll children)
  string : kind = .string → children ≠ [] → (∀ e ∈ children, e.2.isMarkup = true) →
    v = .string (markupText (nodesOfAll children))
  text : kind = .text → children ≠ [] → (∀ e ∈ children, e.2.isMarkup = true) →
    v = .text (markupText (nodesOfAll children))

end Value

/-! ## The names of children -/

theorem List.eraseDups_map {α β : Type} [BEq α] [LawfulBEq α] [BEq β] [LawfulBEq β] {f : α → β}
    (hf : ∀ {a b}, f a = f b → a = b) (l : List α) :
    (l.map f).eraseDups = l.eraseDups.map f := by
  induction l using List.reverseRecOn with
  | nil => rfl
  | append_singleton l a ih =>
    have hmem : f a ∈ l.map f ↔ a ∈ l := by
      refine List.mem_map.trans ⟨?_, fun h => ⟨a, h, rfl⟩⟩
      rintro ⟨b, hb, heq⟩
      exact hf heq ▸ hb
    rw [List.map_append, List.eraseDups_append, List.eraseDups_append, ih, List.map_append]
    by_cases h : a ∈ l
    · simp [List.removeAll, h, hmem]
    · simp [List.removeAll, h, hmem, List.eraseDups_cons]

/-- The children with a name come in the order in which the names were first declared. -/
theorem Tree.names_ofHost (r : Registry) (o : Options) (m : Node) :
    (Assoc.keys (ofHost r o m).subtrees).filterMap Key.name? = (declaredNames o m).eraseDups := by
  have hpositional : (Assoc.keys (positional (wrapped r o m))).filterMap Key.name? = [] := by
    rw [keys_positional, List.filterMap_map]
    exact List.filterMap_eq_nil_iff.mpr fun _ _ => rfl
  rw [subtrees_ofHost, Assoc.keys, List.map_append, List.filterMap_append]
  change (Assoc.keys _).filterMap _ ++ (Assoc.keys _).filterMap _ = _
  rw [hpositional, keys_named, List.eraseDups_map Key.name.inj, List.filterMap_map]
  exact List.filterMap_some

namespace Document

variable {d : Document} {f : Path → Tree → StateM Store Value} {p : Path} {t : Tree} {n : Nat}
  {s : Store}

/-! ## Reading the children -/

/-- Reads children one after the other. -/
def readChildren (f : Path → Tree → StateM Store Value) (path : Path) :
    List (Key × Tree) → StateM Store (List (Key × Value))
  | [] => pure []
  | (k, c) :: rest => do
    let v ← f (path ++ [k]) c
    let vs ← readChildren f path rest
    return (k, v) :: vs

theorem keys_readChildren (children : List (Key × Tree)) (s : Store) :
    Assoc.keys ((readChildren f p children).run s).1 = Assoc.keys children := by
  induction children generalizing s with
  | nil => rfl
  | cons e rest ih =>
    obtain ⟨k, c⟩ := e
    rw [readChildren, StateM.run_bind, StateM.run_bind]
    exact congrArg (k :: ·) (ih _)

/-- A fold over values that are no transformers reads the children and takes in what it has read. -/
theorem foldChildren_eq_readChildren {children : List (Key × Tree)} (hooks : Hooks Store)
    (h : ∀ k c, (k, c) ∈ children → ∀ s, ((f (p ++ [k]) c).run s).1.kind ≠ .transformer)
    (yields : Bool) (acc : Value) :
    foldChildren f hooks p yields children acc =
      readChildren f p children >>= fun vs => pure (Value.absorbAll yields vs acc) := by
  induction children generalizing yields acc with
  | nil => rfl
  | cons e rest ih =>
    obtain ⟨k, c⟩ := e
    have hrest : ∀ k c, (k, c) ∈ rest → ∀ s, ((f (p ++ [k]) c).run s).1.kind ≠ .transformer :=
      fun k c hc => h k c (List.mem_cons_of_mem _ hc)
    refine StateT.ext fun s => ?_
    have hkind : ((f (p ++ [k]) c).run s).1.kind ≠ .transformer :=
      h k c (List.mem_cons_self ..) s
    rw [foldChildren_cons, readChildren, StateM.run_bind, StateM.run_bind, StateM.run_bind,
      StateM.run_bind, takeIn]
    generalize (f (p ++ [k]) c).run s = r at *
    have htake : (if yields && r.1.isMarkup then pure r.1 else Value.merge hooks acc r.1 k) =
        (pure (if yields && r.1.isMarkup then r.1 else acc.absorb r.1 k) : StateM Store Value) := by
      rw [Value.merge_of_kind_ne hkind]
      split <;> rfl
    rw [htake, ih hrest]
    rfl

/-- Computing a node without transformers among its children. -/
theorem compute_eq_readChildren
    (h : ∀ k c, (k, c) ∈ t.subtrees → ∀ s, ((f (p ++ [k]) c).run s).1.kind ≠ .transformer) :
    d.compute f p t = readChildren f p t.subtrees >>= fun vs =>
      pure (d.finish p t (Value.absorbAll (hasScalarSeed t.kind) vs (seed t))) := by
  unfold compute
  rw [foldChildren_eq_readChildren _ h, bind_assoc]
  rfl

/-- What a node makes of the values of its children. -/
theorem folded_finish {vs : List (Key × Value)} (hkeys : (Assoc.keys vs).Nodup) :
    Value.Folded t.kind vs
      (d.finish p t (Value.absorbAll (hasScalarSeed t.kind) vs (seed t))) where
  array hkind := by
    simp only [finish, seed, hkind, hasScalarSeed, Value.absorbAll_array]
    rfl
  record hkind := by
    have hnames : (Assoc.keys ([] ++ Value.entriesOf vs)).Nodup := by
      rw [List.nil_append, Value.keys_entriesOf]
      refine hkeys.filterMap fun k l s hk hl => ?_
      cases k <;> cases l <;> simp_all [Key.name?]
    simp only [finish, seed, hkind, hasScalarSeed, Value.absorbAll_record hnames]
    rfl
  nodes hkind _ hmarkup := by
    have hseed : (Value.nodes []).isMarkup = true := rfl
    obtain ⟨-, hnodes⟩ := Value.absorbAll_of_isMarkup hseed hmarkup
    simp only [finish, seed, hkind, hasScalarSeed, Value.castTo?, Option.getD_some, hnodes]
    rfl
  string hkind hne hmarkup := by
    obtain ⟨hcontent, hnodes⟩ := Value.absorbAll_yielding hne hmarkup (seed t)
    simp only [finish, hkind, hasScalarSeed, Value.castTo?, Option.getD_some,
      Value.stringOf_of_isMarkup hcontent, hnodes]
  text hkind hne hmarkup := by
    obtain ⟨hcontent, hnodes⟩ := Value.absorbAll_yielding hne hmarkup (seed t)
    simp only [finish, hkind, hasScalarSeed, Value.castTo?, Option.getD_some,
      Value.stringOf_of_isMarkup hcontent, hnodes]

/-! ## Recomputing the children -/

theorem kind_recompute_ne (hkind : t.kind ≠ .transformer) (s : Store) :
    ((d.recompute n p t).run s).1.kind ≠ .transformer := by
  cases n with
  | zero => exact nofun
  | succ n =>
    rw [recompute, kind_compute hkind]
    exact hkind

/-- Children that are recomputed have the values that they are worth, and their problems follow each
other. -/
theorem run_readChildren_recompute (hd : d.root.Keyed) {children : List (Key × Tree)}
    (hchildren : ∀ k c, (k, c) ∈ children → d.root.at? (p ++ [k]) = some c) (s : Store) :
    (readChildren (d.recompute n) p children).run s =
      (children.map fun e => (e.1, d.valueWithin n (p ++ [e.1]) e.2),
        { s with errors :=
            s.errors ++ children.flatMap fun e => d.problemsWithin n (p ++ [e.1]) e.2 }) := by
  induction children generalizing s with
  | nil =>
    rw [readChildren, StateM.run_pure]
    simp
  | cons e rest ih =>
    obtain ⟨k, c⟩ := e
    have hrest : ∀ k c, (k, c) ∈ rest → d.root.at? (p ++ [k]) = some c :=
      fun k c hc => hchildren k c (List.mem_cons_of_mem _ hc)
    rw [readChildren, StateM.run_bind, run_recompute hd s n (hchildren k c List.mem_cons_self),
      StateM.run_bind, ih hrest, StateM.run_pure]
    simp

/-- A node without transformers among its children is worth what it makes of what they are worth,
and has their problems. -/
theorem run_recompute_of_children (hd : d.root.Keyed) (ht : d.root.at? p = some t)
    (hchildren : ∀ e ∈ t.subtrees, e.2.kind ≠ .transformer) :
    let vs := t.subtrees.map fun e => (e.1, d.valueWithin n (p ++ [e.1]) e.2)
    d.valueWithin (n + 1) p t =
        d.finish p t (Value.absorbAll (hasScalarSeed t.kind) vs (seed t)) ∧
      d.problemsWithin (n + 1) p t =
        t.subtrees.flatMap fun e => d.problemsWithin n (p ++ [e.1]) e.2 := by
  intro vs
  have hcompute : d.recompute (n + 1) p t = _ :=
    compute_eq_readChildren fun k c hc => kind_recompute_ne (hchildren (k, c) hc)
  have hread := run_readChildren_recompute (n := n) hd (fun _ _ hc => Tree.at?_child hd ht hc) {}
  rw [valueWithin, problemsWithin, hcompute, StateM.run_bind, hread]
  exact ⟨rfl, rfl⟩

theorem settles_of_settles_parent (hd : d.root.Keyed) (ht : d.root.at? p = some t)
    (hchildren : ∀ e ∈ t.subtrees, e.2.kind ≠ .transformer) (hp : d.Settles (n + 1) p t)
    {e : Key × Tree} (he : e ∈ t.subtrees) : d.Settles n (p ++ [e.1]) e.2 := by
  intro q hq
  refine hp q ?_
  rw [(run_recompute_of_children hd ht hchildren).2]
  exact List.mem_flatMap.mpr ⟨e, he, hq⟩

/-- After any calls a node that settles is evaluated as if it were recomputed. -/
theorem faithful_afterCalls (hd : d.root.Keyed) (calls : List Call) (ht : d.root.at? p = some t)
    (hp : d.Settles d.bound p t) :
    let s := { d.afterCalls calls with errors := [] }
    d.Faithful (d.Settles d.bound) p t s ((d.valueOf d.root.nodes.length p t).run s) := by
  intro s
  have hactive : s.active = [] := active_afterCalls hd calls
  exact faithful_of_settles hd id d.bound d.root.nodes.length ht
    ((sound_settling_afterCalls hd calls).of_memo_eq rfl) (hactive ▸ nested_nil) hp
    (hactive ▸ unsettled_nil _)

/-- In lax mode a call answers what a node that settles is worth, whatever came before. -/
theorem evaluateNode_of_settles (hd : d.root.Keyed) (hlax : d.options.strict = false)
    (calls : List Call) (ht : d.root.at? p = some t) (hp : d.Settles d.bound p t) :
    ((d.evaluateNode p t).run (d.afterCalls calls)).1 = .ok (d.value p t) := by
  rw [run_evaluateNode]
  exact (answer_lax hlax _).trans (congrArg Except.ok (faithful_afterCalls hd calls ht hp).value)

/-! ## The closed form -/

/-- Whatever the state, computing a node anew without transformers among its children gives what
its kind makes of the values that it reads for them. -/
theorem folded_valueOf (hd : d.root.Keyed) (ht : d.root.at? p = some t)
    (hchildren : ∀ e ∈ t.subtrees, e.2.kind ≠ .transformer) (fuel : Nat)
    (hnew : Assoc.get? p s.memo = none) (hactive : p ∉ s.active) :
    Value.Folded t.kind ((readChildren (d.valueOf fuel) p t.subtrees).run (s.enter p)).1
      ((d.valueOf (fuel + 1) p t).run s).1 := by
  have hcompute : d.compute (d.valueOf fuel) p t = _ :=
    compute_eq_readChildren fun k c hc => kind_valueOf_ne fuel (hchildren (k, c) hc)
  rw [run_valueOf_of_new hnew hactive, hcompute]
  refine folded_finish ?_
  rw [keys_readChildren]
  exact (Tree.keyed_iff.mp (hd.at? ht)).1

/-- At a node without transformers among its children, whichever call reaches it, a computation
that starts anew gives what the kind of the node makes of the values that it reads for the children,
which come by their keys, those with a name by first declaration. Where no cycle is met, these are
the values that the children evaluate to. -/
theorem evaluateNode_folded (r : Registry) (o : Options) (host : Node) {p : Path} {t : Tree}
    (ht : (ofHost r o host).root.at? p = some t)
    (hchildren : ∀ e ∈ t.subtrees, e.2.kind ≠ .transformer) :
    let d := ofHost r o host
    (Assoc.keys t.subtrees).filterMap Key.name? = (Tree.declaredNames o t.host).eraseDups ∧
      (∀ (fuel : Nat) (s : Store), Assoc.get? p s.memo = none → p ∉ s.active →
        let read := ((readChildren (d.valueOf fuel) p t.subtrees).run (s.enter p)).1
        Assoc.keys read = Assoc.keys t.subtrees ∧
          Value.Folded t.kind read ((d.valueOf (fuel + 1) p t).run s).1) ∧
      (o.strict = false → NoCycle ((d.evaluateNode p t).run {}).2.errors → ∀ calls : List Call,
        let worth := fun q u => ((d.evaluateNode q u).run (d.afterCalls calls)).1
        ∃ vs v, vs.map (fun e => (e.1, .ok e.2)) =
            t.subtrees.map (fun e => (e.1, worth (p ++ [e.1]) e.2)) ∧
          worth p t = .ok v ∧ Value.Folded t.kind vs v) := by
  intro d
  have hd : d.root.Keyed := Tree.ofHost_keyed r o host
  refine ⟨?_, fun fuel s hnew hactive => ⟨keys_readChildren _ _, ?_⟩, fun hlax hfresh calls => ?_⟩
  · obtain ⟨m, -, rfl⟩ :=
      Tree.exists_ofHost_of_at? (P := fun _ => True) (fun _ _ _ => trivial) trivial ht
    rw [Tree.host_ofHost]
    exact Tree.names_ofHost r o m
  · exact folded_valueOf hd ht hchildren fuel hnew hactive
  · have hp : d.Settles d.bound p t := settles_of_fresh hd ht hfresh
    have hsucc : d.Settles (d.bound + 1) p t := hp.mono hd ht (Nat.le_succ _)
    refine ⟨t.subtrees.map fun e => (e.1, d.value (p ++ [e.1]) e.2), d.value p t, ?_,
      evaluateNode_of_settles hd hlax calls ht hp, ?_⟩
    · rw [List.map_map]
      refine List.map_congr_left fun e he => Prod.ext rfl ?_
      exact (evaluateNode_of_settles hd hlax calls (Tree.at?_child hd ht he)
        (settles_of_settles_parent hd ht hchildren hsucc he)).symm
    · rw [value, ← (hp.succ hd ht).1, (run_recompute_of_children hd ht hchildren).1]
      refine folded_finish ?_
      rw [Assoc.keys, List.map_map]
      exact (Tree.keyed_iff.mp (hd.at? ht)).1

/-- A string of three pieces of markup, the last of which comes by a name. -/
def piecesHost : Node :=
  .element "record" ∅
    [.element "string" (.ofPairs [("_name", "s")])
      [.element "i" (.ofPairs [("_name", "x")]) [.text "c"], .text "a", .element "b" ∅ []]]

theorem evaluateNode_folded_pieces :
    let d := ofHost Registry.builtins {} piecesHost
    let p := [Key.name "s"]
    ∃ t, d.root.at? p = some t ∧ (∀ e ∈ t.subtrees, e.2.kind ≠ .transformer) ∧
      Assoc.get? p ({} : Store).memo = none ∧ p ∉ ({} : Store).active ∧
      NoCycle ((d.evaluateNode p t).run {}).2.errors ∧
      let read := ((readChildren (d.valueOf 2) p t.subtrees).run (Store.enter p {})).1
      read ≠ [] ∧ (∀ e ∈ read, e.2.isMarkup = true) ∧
        ((d.valueOf 3 p t).run {}).1 = .string (Value.markupText (Value.nodesOfAll read)) ∧
        Value.markupText (Value.nodesOfAll read) = "a<b></b><i>c</i>" ∧
        ∃ v, ((d.evaluateNode p t).run (d.afterCalls [.evaluate])).1 = .ok v := by
  intro d p
  have hnode : (d.root.at? p).any (fun t =>
      let read := ((readChildren (d.valueOf 2) p t.subtrees).run (Store.enter p {})).1
      t.kind = .string ∧ (∀ e ∈ t.subtrees, e.2.kind ≠ .transformer) ∧
      (∀ e ∈ ((d.evaluateNode p t).run {}).2.errors, e.kind ≠ "cycle") ∧
      read.length ≠ 0 ∧ (∀ e ∈ read, e.2.isMarkup = true) ∧
      Value.markupText (Value.nodesOfAll read) = "a<b></b><i>c</i>") = true := by
    decide +kernel
  obtain ⟨t, ht, h⟩ := (Option.any_eq_true _ _).mp hnode
  obtain ⟨hkind, hchildren, hkinds, hlength, hmarkup, htext⟩ := of_decide_eq_true h
  have hfresh : NoCycle ((d.evaluateNode p t).run {}).2.errors := fun q hq => hkinds _ hq rfl
  have hread : ((readChildren (d.valueOf 2) p t.subtrees).run (Store.enter p {})).1 ≠ [] :=
    List.length_pos_iff.mp (Nat.pos_of_ne_zero hlength)
  obtain ⟨-, hfolded, hcalls⟩ := evaluateNode_folded Registry.builtins {} piecesHost ht hchildren
  obtain ⟨-, v, -, hv, -⟩ := hcalls rfl hfresh [.evaluate]
  exact ⟨t, ht, hchildren, rfl, by decide, hfresh, hread, hmarkup,
    (hfolded 2 {} rfl (by decide)).2.string hkind hread hmarkup, htext, v, hv⟩

end Document
end MarkupEval
