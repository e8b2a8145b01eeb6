import MarkupEval.Proofs.Evaluation.Folds
import MarkupEval.Proofs.Evaluation.Standalone

/-!
# Plain markup

Markup is plain if none of its tags stands for a type or for a transformer. It evaluates to itself in
normal form, without a problem (`evaluate_plain`): text of blanks next to an element is gone, the
children with a name have lost that name and come last, and of those with one name the last one is
left (`Node.normal`).

Every node is worth its own normal form, since what a fold collects are the nodes of its children
(`recompute_plain`). No node refers to another one, so that nothing is ever recorded but cycles
(`onlyCycles_valueOf`), which plain markup does not have either.
-/

namespace MarkupEval

open EvalError

/-! ## Normal forms -/

namespace Node

variable {r : Registry} {o : Options}

mutual

/-- No tag is that of a type or of a transformer. -/
def Plain (r : Registry) : Node → Prop
  | .text _ => True
  | .element tag _ children => Kind.ofTyperTag? (Text.lower tag) = none ∧
    r.contains (Text.lower tag) = false ∧ AllPlain r children

def AllPlain (r : Registry) : List Node → Prop
  | [] => True
  | n :: ns => n.Plain r ∧ AllPlain r ns

end

theorem allPlain_iff {ns : List Node} : AllPlain r ns ↔ ∀ n ∈ ns, n.Plain r := by
  induction ns with
  | nil => simp [AllPlain]
  | cons n ns ih => simp [AllPlain, ih]

theorem Plain.children {n : Node} (h : n.Plain r) : ∀ m ∈ n.children, m.Plain r := by
  cases n with
  | text s => exact fun _ hm => nomatch hm
  | element tag attrs children => exact allPlain_iff.mp h.2.2

/-- The last child that declares a name. -/
def lastNamed? (o : Options) (n : Node) (s : String) : Option Node :=
  (n.children.filter fun c => Tree.declaredName o c.attributes = some s).getLast?

/-- The children that count: those without a name in document order, and then the last one of each
name by its first declaration. -/
def ordered (o : Options) (n : Node) : List Node :=
  n.children.filter (Tree.hasPosition o n) ++
    (Tree.declaredNames o n).eraseDups.filterMap (n.lastNamed? o)

theorem mem_children_of_mem_ordered {n c : Node} (h : c ∈ n.ordered o) : c ∈ n.children := by
  rcases List.mem_append.mp h with h | h
  · exact (List.mem_filter.mp h).1
  · obtain ⟨s, -, hs⟩ := List.mem_filterMap.mp h
    exact (List.mem_filter.mp (List.mem_of_getLast? hs)).1

/-- The children that count in normal form, under the tag as it is spelled and the attributes but
the one that gives a name. -/
def normal (o : Options) : Node → Node
  | .text s => .text s
  | .element tag attrs children =>
    .element tag (attrs.erase o.nameAttribute)
      (((Node.element tag attrs children).ordered o).attach.map fun c => normal o c.1)
termination_by n => n.size
decreasing_by exact size_lt_of_mem_children (mem_children_of_mem_ordered c.2)

@[simp] theorem normal_text (s : String) : (Node.text s).normal o = .text s := by rw [normal]

theorem normal_element (tag : String) (attrs : Attributes) (children : List Node) :
    (Node.element tag attrs children).normal o = .element tag (attrs.erase o.nameAttribute)
      (((Node.element tag attrs children).ordered o).map (normal o)) := by
  rw [normal, List.attach_map_val (f := normal o)]

end Node

namespace Tree

variable {r : Registry} {o : Options} {m : Node}

theorem kind_ofHost_of_plain (h : m.Plain r) :
    (ofHost r o m).kind = if m.isElement then .element else .text := by
  cases m with
  | text s => rfl
  | element tag attrs children =>
    obtain ⟨htyper, hregistry, -⟩ := h
    simp [ofHost, kind, classify, htyper, hregistry, Node.isElement]

theorem kind_ne_of_plain (h : m.Plain r) : (ofHost r o m).kind ≠ .transformer := by
  rw [kind_ofHost_of_plain h]
  split <;> decide

theorem hosts_named (r : Registry) (o : Options) (m : Node) :
    (named (wrapped r o m)).map (fun e => e.2.host) =
      (declaredNames o m).eraseDups.filterMap (m.lastNamed? o) := by
  have hkeys : Assoc.keys (named (wrapped r o m)) = (declaredNames o m).eraseDups.map Key.name := by
    rw [keys_named, List.eraseDups_map Key.name.inj]
  have hlast : (named (wrapped r o m)).filterMap (fun e => some e.2.host) =
      (named (wrapped r o m)).filterMap fun e => e.1.name?.bind (m.lastNamed? o) := by
    refine List.filterMap_congr fun e he => ?_
    obtain ⟨k, t⟩ := e
    obtain ⟨name, rfl, -, hlast⟩ := last_of_mem_named he
    exact hlast
  calc (named (wrapped r o m)).map (fun e => e.2.host)
      = (named (wrapped r o m)).filterMap fun e => e.1.name?.bind (m.lastNamed? o) := by
        rw [← hlast, List.filterMap_eq_map']
    _ = (Assoc.keys (named (wrapped r o m))).filterMap fun k => k.name?.bind (m.lastNamed? o) := by
        rw [Assoc.keys, List.filterMap_map]
        rfl
    _ = (declaredNames o m).eraseDups.filterMap (m.lastNamed? o) := by
        rw [hkeys, List.filterMap_map]
        rfl

/-- The subtrees of a wrapped host stand for the children that count. -/
theorem hosts_subtrees (r : Registry) (o : Options) (m : Node) :
    (ofHost r o m).subtrees.map (fun e => e.2.host) = m.ordered o := by
  rw [subtrees_ofHost, List.map_append, hosts_positional, hosts_named]
  rfl

end Tree

namespace Document

variable {d : Document} {p : Path} {t : Tree} {n : Nat} {m : Node}

/-! ## What plain markup is worth -/

/-- What an element makes of children that are markup of their own. -/
theorem finish_element (hm : m.isElement = true) (hplain : m.Plain d.registry)
    (ns : List (Key × Node)) :
    let t := Tree.ofHost d.registry d.options m
    d.finish p t (Value.absorbAll (hasScalarSeed t.kind)
        (ns.map fun e => (e.1, Value.ofNode e.2)) (seed t)) =
      .element ⟨m.tag?.getD "", m.attributes.erase d.options.nameAttribute, ns.map Prod.snd⟩ := by
  intro t
  have hkind : t.kind = .element := by
    rw [Tree.kind_ofHost_of_plain hplain, if_pos hm]
  have hseed : (Value.nodes []).isMarkup = true := rfl
  have hmarkup : ∀ e ∈ ns.map fun e => (e.1, Value.ofNode e.2), e.2.isMarkup = true :=
    List.forall_mem_map.mpr fun e _ => Value.isMarkup_ofNode e.2
  obtain ⟨-, hnodes⟩ := Value.absorbAll_of_isMarkup hseed hmarkup
  have hall : Value.nodesOfAll (ns.map fun e => (e.1, Value.ofNode e.2)) = ns.map Prod.snd := by
    simp only [Value.nodesOfAll, List.flatMap_map, Value.nodesOf_ofNode]
    exact List.flatMap_pure_eq_map Prod.snd ns
  simp only [finish, seed, hkind, hasScalarSeed, rewrap, hnodes, hall, t, Tree.host_ofHost]
  rfl

/-- Every node of plain markup is worth its normal form, and there is no problem with it. -/
theorem recompute_plain (hd : d.root.Keyed) (hplain : m.Plain d.registry) (hn : m.size ≤ n)
    (ht : d.root.at? p = some (Tree.ofHost d.registry d.options m)) :
    d.valueWithin n p (Tree.ofHost d.registry d.options m) = .ofNode (m.normal d.options) ∧
      d.problemsWithin n p (Tree.ofHost d.registry d.options m) = [] := by
  induction n generalizing p m with
  | zero => exact absurd hn (Nat.not_le.mpr m.size_pos)
  | succ n ih =>
    have hbelow : ∀ e ∈ (Tree.ofHost d.registry d.options m).subtrees,
        e.2.kind ≠ .transformer ∧
          d.valueWithin n (p ++ [e.1]) e.2 = .ofNode (e.2.host.normal d.options) ∧
          d.problemsWithin n (p ++ [e.1]) e.2 = [] := by
      intro e he
      obtain ⟨k, c⟩ := e
      obtain ⟨b, hb, hbc⟩ := Tree.exists_ofHost_of_mem_subtrees he
      have hb' : b.Plain d.registry := hplain.children b hb
      have hsize : b.size ≤ n := Nat.le_of_lt_succ ((Node.size_lt_of_mem_children hb).trans_le hn)
      have hc : d.root.at? (p ++ [k]) = some c := Tree.at?_child hd ht he
      dsimp only at hbc ⊢
      subst hbc
      rw [Tree.host_ofHost]
      exact ⟨Tree.kind_ne_of_plain hb', ih hb' hsize hc⟩
    obtain ⟨hvalue, hproblems⟩ := run_recompute_of_children (n := n) hd ht fun e he => (hbelow e he).1
    have hvalues : (Tree.ofHost d.registry d.options m).subtrees.map
          (fun e => (e.1, d.valueWithin n (p ++ [e.1]) e.2)) =
        ((Tree.ofHost d.registry d.options m).subtrees.map
          fun e => (e.1, e.2.host.normal d.options)).map fun e => (e.1, Value.ofNode e.2) := by
      rw [List.map_map]
      exact List.map_congr_left fun e he => Prod.ext rfl (hbelow e he).2.1
    refine ⟨?_, ?_⟩
    · cases m with
      | text s =>
        rw [hvalue, Node.normal_text]
        rfl
      | element tag attrs children =>
        rw [hvalue, hvalues, finish_element rfl hplain, Node.normal_element, ← Tree.hosts_subtrees
          d.registry d.options, List.map_map, List.map_map]
        rfl
    · rw [hproblems]
      exact List.flatMap_eq_nil_iff.mpr fun e he => (hbelow e he).2.2

/-! ## What a call on plain markup records -/

/-- Reading children keeps a property of states if asking for each of them does. -/
theorem readChildren_keeps {I : Store → Prop} {f : Path → Tree → StateM Store Value}
    {children : List (Key × Tree)}
    (h : ∀ k c, (k, c) ∈ children → MarkupEval.Keeps I (f (p ++ [k]) c)) :
    MarkupEval.Keeps I (readChildren f p children) := by
  induction children with
  | nil => exact .pure _
  | cons e rest ih =>
    obtain ⟨k, c⟩ := e
    refine .bind (h k c List.mem_cons_self) fun v => ?_
    exact .bind (ih fun k c hc => h k c (List.mem_cons_of_mem _ hc)) fun vs => .pure _

/-- Without transformers nothing is recorded but cycles. -/
theorem onlyCycles_valueOf (hd : d.root.Keyed)
    (hkinds : ∀ q u, d.root.at? q = some u → u.kind ≠ .transformer) (fuel : Nat)
    (ht : d.root.at? p = some t) :
    MarkupEval.Keeps (fun s => ∀ e ∈ s.errors, ∃ q, e = .cycle q) (d.valueOf fuel p t) := by
  induction fuel using Nat.strong_induction_on generalizing p t with | _ fuel ih
  intro s hs
  refine run_valueOf_cases (motive := fun r => ∀ e ∈ r.2.errors, ∃ q, e = .cycle q) ?_ ?_ ?_ ?_
  · exact fun _ _ => hs
  · intro _ _ e he
    rcases List.mem_append.mp he with he | he
    · exact hs e he
    · exact ⟨p, List.mem_singleton.mp he⟩
  · exact fun _ _ => hs
  · rintro n rfl - -
    have hchild : ∀ k c, (k, c) ∈ t.subtrees → d.root.at? (p ++ [k]) = some c :=
      fun k c hc => Tree.at?_child hd ht hc
    have hcompute : d.compute (d.valueOf n) p t = _ := compute_eq_readChildren fun k c hc =>
      kind_valueOf_ne n (hkinds _ c (hchild k c hc))
    rw [errors_keepResult, hcompute, StateM.run_bind]
    exact readChildren_keeps (fun k c hc => ih n n.lt_succ_self (hchild k c hc)) (s.enter p) hs

theorem answer_of_errors_eq_nil {r : Value × Store} (h : r.2.errors = []) :
    d.answer r = .ok r.1 := by
  unfold answer
  rw [h]
  cases d.options.strict <;> rfl

/-- Plain markup evaluates to its own normal form without a problem, in lax and in strict mode,
whatever calls came before. -/
theorem evaluate_plain (r : Registry) (o : Options) (host : Node) (hplain : host.Plain r)
    (calls : List Call) :
    let d := ofHost r o host
    let result := d.evaluate.run (d.afterCalls calls)
    result.1 = .ok (.ofNode (host.normal o)) ∧ result.2.errors = [] := by
  intro d result
  have hd : d.root.Keyed := Tree.ofHost_keyed r o host
  have hroot : d.root.at? [] = some (Tree.ofHost r o host) := rfl
  have hkinds : ∀ q u, d.root.at? q = some u → u.kind ≠ .transformer := by
    intro q u hu
    obtain ⟨m, hm, rfl⟩ := Tree.exists_ofHost_of_at? Node.Plain.children hplain hu
    exact Tree.kind_ne_of_plain hm
  obtain ⟨hvalue, hproblems⟩ := recompute_plain hd hplain (Nat.le_refl _) hroot
  have hsettles : d.Settles host.size [] d.root := by
    intro q hq
    exact absurd (hproblems ▸ hq : _ ∈ []) List.not_mem_nil
  have hworth : d.value [] d.root = .ofNode (host.normal o) :=
    (hsettles.eq_bound hd hroot).1.symm.trans hvalue
  let s : Store := { d.afterCalls calls with errors := [] }
  let out := (d.valueOf d.root.nodes.length [] d.root).run s
  have hfaithful : d.Faithful (d.Settles d.bound) [] d.root s out :=
    faithful_afterCalls hd calls hroot (hsettles.within_bound hd hroot)
  -- Only cycles could have been recorded, and there was none.
  have herrors : out.2.errors = [] := by
    obtain ⟨es, hes, hno, -⟩ := hfaithful.errors
    have honly := onlyCycles_valueOf hd hkinds d.root.nodes.length hroot s nofun
    refine List.eq_nil_iff_forall_not_mem.mpr fun e he => ?_
    obtain ⟨q, rfl⟩ := honly e he
    exact hno q (hes ▸ he : _ ∈ s.errors ++ es)
  have hrun : result = (d.answer out, out.2) :=
    run_evaluateNode [] d.root (d.afterCalls calls)
  rw [hrun]
  refine ⟨?_, herrors⟩
  exact (answer_of_errors_eq_nil herrors).trans (congrArg Except.ok (hfaithful.value.trans hworth))

/-- Layout between elements, and two items with one name, of which the last one counts. -/
def listHost : Node :=
  .element "UL" (.ofPairs [("_name", "list"), ("class", "c")])
    [.text " ",
     .element "li" (.ofPairs [("_name", "x")]) [.text "1"],
     .element "Li" ∅ [.text " "],
     .element "li" (.ofPairs [("_name", "x"), ("id", "i")]) [.text "2", .element "br" ∅ []],
     .text "end"]

theorem normal_listHost : listHost.normal {} = .element "UL" (.ofPairs [("class", "c")])
    [.element "Li" ∅ [.text " "], .text "end",
     .element "li" (.ofPairs [("id", "i")]) [.text "2", .element "br" ∅ []]] := by
  have hlist : listHost.ordered {} = [.element "Li" ∅ [.text " "], .text "end",
      .element "li" (.ofPairs [("_name", "x"), ("id", "i")])
        [.text "2", .element "br" ∅ []]] := rfl
  have hblank : (Node.element "Li" ∅ [.text " "]).ordered {} = [.text " "] := rfl
  have hitem : (Node.element "li" (.ofPairs [("_name", "x"), ("id", "i")])
      [.text "2", .element "br" ∅ []]).ordered {} = [.text "2", .element "br" ∅ []] := rfl
  have hbreak : (Node.element "br" ∅ []).ordered {} = [] := rfl
  have hnormal : listHost.normal {} = _ := Node.normal_element ..
  rw [hnormal]
  change Node.element _ _ ((listHost.ordered {}).map _) = _
  simp only [hlist, List.map_cons, List.map_nil, Node.normal_element, Node.normal_text, hblank,
    hitem, hbreak]
  rfl

theorem evaluate_plain_list :
    let d := ofHost Registry.builtins {} listHost
    let result := d.evaluate.run (d.afterCalls [.evaluate, .evaluateNode [.name "x"]])
    listHost.Plain Registry.builtins ∧
      result.1 = .ok (.element ⟨"UL", .ofPairs [("class", "c")],
        [.element "Li" ∅ [.text " "], .text "end",
         .element "li" (.ofPairs [("id", "i")]) [.text "2", .element "br" ∅ []]]⟩) ∧
      result.2.errors = [] := by
  have hplain : listHost.Plain Registry.builtins := by
    simp only [listHost, Node.Plain, Node.AllPlain]
    decide +kernel
  obtain ⟨hresult, herrors⟩ := evaluate_plain Registry.builtins {} listHost hplain
    [.evaluate, .evaluateNode [.name "x"]]
  rw [normal_listHost] at hresult
  exact ⟨hplain, hresult, herrors⟩

end Document
end MarkupEval
