import MarkupEval.Proofs.Evaluation.Dependency

/-!
# Evaluating a node on its own

In a host without references nothing around a node reaches its value: the same host wrapped alone
evaluates to the same (`evaluateNode_standalone`). Every node settles there, as it depends on what
is below it only (`settles_of_referenceFree`). The documents, the paths and the stores of two
recomputations of a node can then differ, as long as the last keys of the paths do not
(`recompute_agrees`): no operation asks for a value by path, and a key goes no further than into the
name of a transformer.
-/

namespace MarkupEval

/-! ## Hosts without references -/

namespace Node

mutual

/-- No element has the tag of references. -/
def ReferenceFree : Node → Prop
  | .text _ => True
  | .element tag _ children => Text.lower tag ≠ Operation.referenceTag ∧ AllReferenceFree children

def AllReferenceFree : List Node → Prop
  | [] => True
  | n :: ns => n.ReferenceFree ∧ AllReferenceFree ns

end

theorem allReferenceFree_iff {ns : List Node} :
    AllReferenceFree ns ↔ ∀ n ∈ ns, n.ReferenceFree := by
  induction ns with
  | nil => simp [AllReferenceFree]
  | cons n ns ih => simp [AllReferenceFree, ih]

theorem ReferenceFree.children {n : Node} (h : n.ReferenceFree) :
    ∀ m ∈ n.children, m.ReferenceFree := by
  cases n with
  | text s => exact fun _ hm => nomatch hm
  | element tag attrs children => exact allReferenceFree_iff.mp h.2

theorem ReferenceFree.tag_ne {n : Node} (h : n.ReferenceFree) :
    Text.lower (n.tag?.getD "") ≠ Operation.referenceTag := by
  cases n with
  | text s =>
    change Text.lower "" ≠ _
    decide +kernel
  | element tag attrs children => exact h.1

theorem size_le_sizeList {n : Node} {ns : List Node} (h : n ∈ ns) : n.size ≤ sizeList ns := by
  induction ns with
  | nil => cases h
  | cons m ns ih =>
    rw [sizeList]
    rcases List.mem_cons.mp h with rfl | h
    · exact Nat.le_add_right ..
    · exact (ih h).trans (Nat.le_add_left ..)

theorem size_lt_of_mem_children {n m : Node} (h : m ∈ n.children) : m.size < n.size := by
  cases n with
  | text s => cases h
  | element tag attrs children =>
    rw [size]
    exact Nat.lt_succ_of_le (size_le_sizeList h)

end Node

/-! ## Operations that ask for nothing -/

/-- Casts and smart tags: an operation on the accumulator and the arguments alone. -/
def Operation.isLocal : Operation → Bool
  | .convert _ | .smart _ => true
  | _ => false

/-- If a value is a transformer, its operation is local. -/
def Value.Local : Value → Prop
  | .transformer _ _ op => op.isLocal = true
  | _ => True

theorem Value.local_of_kind_ne {v : Value} (h : v.kind ≠ .transformer) : v.Local := by
  cases v with
  | transformer name args op => exact absurd rfl h
  | _ => trivial

/-- Of the transformers of documents only references look values up. -/
theorem Registry.isLocal_of_get?_builtins {tag : String} {op : Operation}
    (h : builtins.get? tag = some op) (htag : tag ≠ Operation.referenceTag) :
    op.isLocal = true := by
  have hall : ∀ e ∈ builtins.entries, e.1 = Operation.referenceTag ∨ e.2.isLocal = true := by
    decide +kernel
  exact (hall _ (Assoc.mem_of_get? h)).resolve_left htag

/-! ## Computations that agree -/

/-- Two computations give the same value whatever states they start in, and it satisfies a
predicate. -/
def Agrees {σ τ α : Type} (P : α → Prop) (m : StateM σ α) (m' : StateM τ α) : Prop :=
  ∀ s s', (m.run s).1 = (m'.run s').1 ∧ P (m.run s).1

namespace Agrees

variable {σ τ α β : Type} {P : α → Prop} {Q : β → Prop}

theorem pure {a : α} (h : P a) : Agrees (σ := σ) (τ := τ) P (pure a) (pure a) :=
  fun _ _ => ⟨rfl, h⟩

theorem bind {m : StateM σ α} {m' : StateM τ α} {k : α → StateM σ β} {k' : α → StateM τ β}
    (hm : Agrees P m m') (hk : ∀ a, P a → Agrees Q (k a) (k' a)) :
    Agrees Q (m >>= k) (m' >>= k') := by
  intro s s'
  obtain ⟨hv, hP⟩ := hm s s'
  rw [StateM.run_bind, StateM.run_bind, ← hv]
  exact hk _ hP _ _

end Agrees

section
variable {σ τ : Type} {hooks : Hooks σ} {hooks' : Hooks τ}

theorem Value.settle_agrees (current : Value) (key : Key) (o : Outcome) :
    Agrees (fun _ => True) (settle hooks current key o) (settle hooks' current key o) := by
  cases o with
  | fail e => exact fun _ _ => ⟨rfl, trivial⟩
  | _ => exact .pure trivial

/-- Merging a value that asks for nothing does not depend on the services around it. -/
theorem Value.merge_agrees {incoming : Value} (h : incoming.Local) (current : Value) (key : Key) :
    Agrees (fun _ => True) (merge hooks current incoming key)
      (merge hooks' current incoming key) := by
  cases incoming with
  | transformer name args op =>
    cases op with
    | convert _ | smart _ =>
      refine .bind (P := fun _ => True) (.pure trivial) fun o _ => ?_
      exact settle_agrees current key o
    | _ => cases h
  | _ => exact .pure trivial

theorem Document.takeIn_agrees {incoming : Value} (h : incoming.Local) (yields : Bool) (acc : Value)
    (key : Key) :
    Agrees (fun _ => True) (takeIn hooks yields acc incoming key)
      (takeIn hooks' yields acc incoming key) := by
  unfold takeIn
  split
  · exact .pure trivial
  · exact Value.merge_agrees h acc key

end

namespace Document

variable {d d' : Document} {f f' : Path → Tree → StateM Store Value}

/-- Folds over the same children agree where the values of the children do. -/
theorem foldChildren_agrees {hooks hooks' : Hooks Store} {p q : Path}
    {children : List (Key × Tree)}
    (hcall : ∀ k c, (k, c) ∈ children → Agrees Value.Local (f (p ++ [k]) c) (f' (q ++ [k]) c))
    (yields : Bool) (acc : Value) :
    Agrees (fun _ => True) (foldChildren f hooks p yields children acc)
      (foldChildren f' hooks' q yields children acc) := by
  induction children generalizing yields acc with
  | nil => exact .pure trivial
  | cons e rest ih =>
    obtain ⟨k, c⟩ := e
    rw [foldChildren_cons, foldChildren_cons]
    refine .bind (hcall k c (List.mem_cons_self ..)) fun incoming hincoming => ?_
    refine .bind (takeIn_agrees hincoming yields acc k) fun acc _ => ?_
    exact ih (fun k c h => hcall k c (List.mem_cons_of_mem _ h)) false acc

theorem local_finish (hr : d.registry = Registry.builtins) {t : Tree} (ht : t.host.ReferenceFree)
    (p : Path) (content : Value) : (d.finish p t content).Local := by
  by_cases hkind : t.kind = .transformer
  · simp only [finish, hkind, generate]
    split
    · next op hop => exact Registry.isLocal_of_get?_builtins (hr ▸ hop) ht.tag_ne
    · trivial
  · exact Value.local_of_kind_ne (kind_finish content hkind ▸ hkind)

/-- Only transformers can tell where their node lies. -/
theorem finish_eq_of_kind_ne (hoptions : d.options = d'.options) (p q : Path) {t : Tree}
    (h : t.kind ≠ .transformer) (content : Value) :
    d.finish p t content = d'.finish q t content := by
  unfold finish
  cases hkind : t.kind with
  | transformer => exact absurd hkind h
  | element => rw [hoptions]
  | _ => rfl

theorem finish_congr (hregistry : d.registry = d'.registry) (hoptions : d.options = d'.options)
    {p q : Path} (hlast : p.getLast? = q.getLast?) (t : Tree) (content : Value) :
    d.finish p t content = d'.finish q t content := by
  simp only [finish, generate, invocationName, hregistry, hoptions, hlast]

/-- What the fold of a node comes to, when nothing is kept and nothing is looked up. -/
theorem content_agrees (hr : d.registry = Registry.builtins) (hregistry : d.registry = d'.registry)
    (hoptions : d.options = d'.options) {o : Options} (n : Nat) (p q : Path) {m : Node}
    (hm : m.ReferenceFree) :
    let t := Tree.ofHost Registry.builtins o m
    Agrees (fun _ => True)
      (foldChildren (d.recompute n) (d.hooks (d.recompute n) p) p (hasScalarSeed t.kind) t.subtrees
        (seed t))
      (foldChildren (d'.recompute n) (d'.hooks (d'.recompute n) q) q (hasScalarSeed t.kind)
        t.subtrees (seed t)) := by
  -- The induction is on the depth; what a child is under the same key at both places agrees.
  induction n generalizing p q m with
  | zero =>
    refine foldChildren_agrees (fun k c _ => ?_) _ _
    intro s s'
    exact ⟨rfl, trivial⟩
  | succ n ih =>
    refine foldChildren_agrees (fun k c hc => ?_) _ _
    obtain ⟨b, hb, rfl⟩ := Tree.exists_ofHost_of_mem_subtrees hc
    have hfree : b.ReferenceFree := hm.children b hb
    have hlast : (p ++ [k]).getLast? = (q ++ [k]).getLast? := by simp
    refine .bind (ih _ _ hfree) fun content _ => ?_
    rw [finish_congr hregistry hoptions hlast]
    exact .pure (local_finish (hregistry ▸ hr) (by rwa [Tree.host_ofHost]) _ content)

/-- Recomputed at two places within one depth, a node casts the same content. -/
theorem exists_content (d d' : Document) (hr : d.registry = Registry.builtins)
    (hregistry : d.registry = d'.registry) (hoptions : d.options = d'.options) {o : Options}
    (n : Nat) (p q : Path) {m : Node} (hm : m.ReferenceFree) :
    let t := Tree.ofHost Registry.builtins o m
    ∃ content, d.valueWithin (n + 1) p t = d.finish p t content ∧
      d'.valueWithin (n + 1) q t = d'.finish q t content := by
  intro t
  obtain ⟨hcontent, -⟩ := content_agrees hr hregistry hoptions n p q hm (o := o) {} {}
  exact ⟨_, rfl, congrArg (d'.finish q t) hcontent.symm⟩

/-! ## Every node settles -/

/-- A node without references below it settles within the size of its host: each child is
smaller. -/
theorem settles_of_referenceFree (hd : d.root.Keyed) (hr : d.registry = Registry.builtins)
    {o : Options} {n : Nat} {m : Node} (hm : m.ReferenceFree) {p : Path}
    (ht : d.root.at? p = some (.ofHost Registry.builtins o m)) (hn : m.size ≤ n) :
    d.Settles n p (.ofHost Registry.builtins o m) := by
  induction n generalizing m p with
  | zero => exact absurd hn (Nat.not_le.mpr m.size_pos)
  | succ n ih =>
    have hall : d.registry.Allows False := hr ▸ Registry.builtins_allows False
    refine (settles_succ_iff_children hd hall ht).mpr fun k c hc => ?_
    have hat := Tree.at?_child hd ht hc
    obtain ⟨b, hb, rfl⟩ := Tree.exists_ofHost_of_mem_subtrees hc
    have hfree : b.ReferenceFree := hm.children b hb
    refine ⟨ih hfree hat (Nat.le_of_lt_succ ((Node.size_lt_of_mem_children hb).trans_le hn)), ?_⟩
    cases n with
    | zero => trivial
    | succ n =>
      refine takesIn_of_referenceTarget?_eq_none (referenceTarget?_finish hr ?_ _)
      rw [Tree.host_ofHost]
      exact hfree.tag_ne

/-- In lax mode a call after any others gives what recomputing the node gives. -/
theorem evaluateNode_eq_valueWithin (o : Options) (hlax : o.strict = false) {host : Node}
    (hfree : host.ReferenceFree) (calls : List Call) {p : Path} {t : Tree}
    (ht : (ofHost Registry.builtins o host).root.at? p = some t) :
    let d := ofHost Registry.builtins o host
    d.Settles d.bound p t ∧
      ((d.evaluateNode p t).run (d.afterCalls calls)).1 = .ok (d.valueWithin d.bound p t) := by
  intro d
  have hd : d.root.Keyed := Tree.ofHost_keyed Registry.builtins o host
  have hsettles {p t} (ht : d.root.at? p = some t) : d.Settles d.bound p t := by
    obtain ⟨m, hm, rfl⟩ := Tree.exists_ofHost_of_at? Node.ReferenceFree.children hfree ht
    exact (settles_of_referenceFree hd rfl hm ht le_rfl).within_bound hd ht
  have hquiet : d.Quiet (d.afterCalls calls) := by
    refine quiet_afterCalls hd (fun p t s ht hs => ?_) calls
    rw [run_evaluateNode]
    exact (hs.faithful hd ht (hsettles ht)).sound
  obtain ⟨hvalue, -, -⟩ := hquiet.faithful hd ht (hsettles ht)
  refine ⟨hsettles ht, ?_⟩
  rw [run_evaluateNode]
  change d.answer _ = _
  rw [answer_lax hlax, hvalue]
  rfl

/-- A transformer node ends with the transformer of its tag. -/
theorem finish_eq_transformer {r : Registry} {o : Options} {m : Node}
    (hkind : (Tree.ofHost r o m).kind = .transformer) :
    ∃ op, ∀ d : Document, d.registry = r → ∀ p content, d.finish p (.ofHost r o m) content =
      .transformer (invocationName p (Text.lower (m.tag?.getD ""))) (argumentsOf content) op := by
  have hcontains : (r.get? (Text.lower (m.tag?.getD ""))).isSome = true := by
    cases m with
    | text s => cases hkind
    | element tag attrs children =>
      change Tree.classify r (Text.lower tag) = .transformer at hkind
      unfold Tree.classify at hkind
      split at hkind
      · next k hk =>
        subst hkind
        exact absurd (List.mem_of_find?_eq_some hk) (by decide)
      · by_contra hnone
        have hno : ¬r.contains (Text.lower tag) = true := hnone
        rw [if_neg hno] at hkind
        cases hkind
  obtain ⟨op, hop⟩ := Option.isSome_iff_exists.mp hcontains
  refine ⟨op, fun d hr p content => ?_⟩
  simp only [finish, hkind, generate, Tree.host_ofHost, hr, hop]

/-- In a host without references, with the transformers of documents and in lax mode, a node gives
after any calls what its host gives when it is wrapped alone and evaluated. For a transformer node
these are two transformers with the same arguments, of which the names may differ. -/
theorem evaluateNode_standalone (o : Options) (hlax : o.strict = false) (host : Node)
    (hfree : host.ReferenceFree) (calls : List Call) {p : Path} {t : Tree}
    (ht : (ofHost Registry.builtins o host).root.at? p = some t) :
    let d := ofHost Registry.builtins o host
    let alone := ofHost Registry.builtins o t.host
    ∃ v w, ((d.evaluateNode p t).run (d.afterCalls calls)).1 = .ok v ∧
      (alone.evaluate.run {}).1 = .ok w ∧
      (t.kind ≠ .transformer → v = w) ∧
      (t.kind = .transformer → ∃ name name' args op,
        v = .transformer name args op ∧ w = .transformer name' args op) := by
  intro d
  obtain ⟨m, hm, rfl⟩ := Tree.exists_ofHost_of_at? Node.ReferenceFree.children hfree ht
  rw [Tree.host_ofHost]
  intro alone
  let t : Tree := .ofHost Registry.builtins o m
  have hd : d.root.Keyed := Tree.ofHost_keyed Registry.builtins o host
  have halone : alone.root.Keyed := Tree.ofHost_keyed Registry.builtins o m
  have hroot : alone.root.at? [] = some t := rfl
  obtain ⟨hsettles, hvalue⟩ := evaluateNode_eq_valueWithin o hlax hfree calls ht
  obtain ⟨hsettles', hvalue'⟩ := evaluateNode_eq_valueWithin o hlax hm [] hroot
  -- Both values are recomputed within one depth, so that they are casts of the same content.
  let n := max d.bound alone.bound
  have hn : d.bound ≤ n + 1 := (Nat.le_max_left ..).trans n.le_succ
  have hn' : alone.bound ≤ n + 1 := (Nat.le_max_right ..).trans n.le_succ
  obtain ⟨content, hv, hw⟩ : ∃ content, d.valueWithin (n + 1) p t = d.finish p t content ∧
      alone.valueWithin (n + 1) [] t = alone.finish [] t content :=
    exists_content d alone rfl rfl rfl n p [] hm
  rw [(hsettles.eq_of_le hd ht hn).1] at hv
  rw [(hsettles'.eq_of_le halone hroot hn').1] at hw
  refine ⟨_, _, hvalue, hvalue', fun hkind => ?_, fun hkind => ?_⟩
  · rw [hv, hw]
    exact finish_eq_of_kind_ne rfl p [] hkind content
  · obtain ⟨op, hop⟩ := finish_eq_transformer hkind
    exact ⟨_, _, _, op, hv.trans (hop d rfl p content), hw.trans (hop alone rfl [] content)⟩

/-- A record in which a string is edited twice, by a cast and by a smart tag under a name. -/
def editingHost : Node :=
  .element "record" ∅
    [.element "string" (.ofPairs [("_name", "a")])
      [.text "aXb", .element "Replace" (.ofPairs [("_name", "edit")]) [.text "X", .text "-"],
       .element "toText" ∅ []],
     .element "p" (.ofPairs [("_name", "b")]) [.text "4"]]

/-- The smart tag after calls that fill the store, and wrapped alone. -/
theorem evaluateNode_standalone_editing :
    let d := ofHost Registry.builtins {} editingHost
    let calls := [.evaluate, .evaluateNode [.name "b"], .invalidate, .evaluateNode [.name "a"]]
    editingHost.ReferenceFree ∧
      ∃ t, d.root.at? [.name "a", .name "edit"] = some t ∧ t.kind = .transformer ∧
        ∃ name name' args op,
          ((d.evaluateNode [.name "a", .name "edit"] t).run (d.afterCalls calls)).1 =
            .ok (.transformer name args op) ∧
          ((ofHost Registry.builtins {} t.host).evaluate.run {}).1 =
            .ok (.transformer name' args op) := by
  intro d calls
  have htags : ∀ tag ∈ ["record", "string", "Replace", "toText", "p"],
      Text.lower tag ≠ Operation.referenceTag := by decide +kernel
  have hfree : editingHost.ReferenceFree := by
    simp only [List.forall_mem_cons] at htags
    simp [editingHost, Node.ReferenceFree, Node.AllReferenceFree, htags]
  have hnode : (d.root.at? [.name "a", .name "edit"]).any (·.kind = .transformer) = true := by
    decide +kernel
  obtain ⟨t, ht, hkind⟩ := (Option.any_eq_true _ _).mp hnode
  have hkind : t.kind = .transformer := of_decide_eq_true hkind
  obtain ⟨v, w, hv, hw, -, htransformer⟩ :=
    evaluateNode_standalone {} rfl editingHost hfree calls ht
  obtain ⟨name, name', args, op, rfl, rfl⟩ := htransformer hkind
  exact ⟨hfree, t, ht, hkind, name, name', args, op, hv, hw⟩

end Document
end MarkupEval
