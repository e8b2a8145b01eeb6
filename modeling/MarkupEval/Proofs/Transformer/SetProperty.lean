import Mathlib.Data.List.Basic
import MarkupEval.Proofs.Value.Hereditary

/-!
# Setting along a path

Where a property is set, every value on the way is rebuilt around one changed item
(`run_setProperty_rebuilds`): tags, attributes, keys and all other items stay. If the way leads
through arrays and records alone, the new value is read back from its path, every path that leaves
this one reads what it read before, and a second new value takes the place of the first.

The paths that can be set are described by `Sets`, one rule for each kind of value that is gone
through; the laws are inductions over it.
-/

namespace MarkupEval
namespace Value

/-! ## Reading along a path -/

/-- The value that a segment leads to: the item at its index, or what is under it as a key. -/
def child? (segment : String) : Value → Option Value
  | .array items => (Text.readIndex? segment.toList).bind fun i => items[i]?
  | .record entries => Assoc.get? segment entries
  | .element e => (Text.readIndex? segment.toList).bind fun i => e.children[i]?.map ofNode
  | .nodes ns => (Text.readIndex? segment.toList).bind fun i => ns[i]?.map ofNode
  | _ => none

/-- The value that segments lead to, one after the other. -/
def along? : List String → Value → Option Value
  | [], v => some v
  | s :: rest, v => (v.child? s).bind (along? rest)

/-- Two segments that stand for one item or key of a value. -/
def SameChild (s s' : String) : Value → Prop
  | .record _ => s = s'
  | _ => Text.readIndex? s.toList = Text.readIndex? s'.toList

/-- The second path goes with the first one for a while, and then to a different item or key. -/
inductive Leaves : Value → List String → List String → Prop
  | here {v : Value} {s s' : String} {p q : List String} (h : ¬SameChild s s' v) :
    Leaves v (s :: p) (s' :: q)
  | later {v x : Value} {s s' : String} {p q : List String} (h : SameChild s s' v)
    (hx : v.child? s = some x) (hleaves : Leaves x p q) : Leaves v (s :: p) (s' :: q)

/-- Arrays and records. -/
def isData : Value → Bool
  | .array _ | .record _ => true
  | _ => false

/-- Every value that a path goes through is an array or a record. -/
def ThroughData : List String → Value → Prop
  | [], _ => True
  | s :: rest, v => v.isData = true ∧ ∀ x, v.child? s = some x → ThroughData rest x

/-! ## What setting does to a value on the way -/

section
variable (w : Value) (segment : String) (after : List String)

/-- Inside of a path exactly one node takes the place of one; at its end it is the nodes of the new
value, and they may come after all others. -/
def NodesRebuilt (ns ns' : List Node) : Prop :=
  ∃ i, Text.readIndex? segment.toList = some i ∧
    if after = [] then i ≤ ns.length ∧ ns' = ns.take i ++ w.nodesOf ++ ns.drop (i + 1)
    else i < ns.length ∧ ∃ n, ns' = ns.set i n

/-- At the end of a path the text of the new value takes the place of one character, or comes after
all others. -/
def TextRebuilt (s s' : String) : Prop :=
  after = [] ∧ ∃ i, Text.readIndex? segment.toList = some i ∧ i ≤ s.length ∧
    s'.toList = s.toList.take i ++ w.stringOf.toList ++ s.toList.drop (i + 1)

/-- A value before and after `w` was set below it, along a segment and those after it. -/
def Rebuilt : Value → Value → Prop
  | .array items, .array items' =>
    ∃ i, Text.readIndex? segment.toList = some i ∧
      ((i < items.length ∧ ∃ x, items' = items.set i x ∧ (after = [] → x = w)) ∨
        (i = items.length ∧ items' = items ++ [w] ∧ after = []))
  | .record es, .record es' =>
    Assoc.keys es' =
        (if segment ∈ Assoc.keys es then Assoc.keys es else Assoc.keys es ++ [segment]) ∧
      (∀ k, k ≠ segment → Assoc.get? k es' = Assoc.get? k es) ∧
      (if after = [] then Assoc.get? segment es' = some w else segment ∈ Assoc.keys es)
  | .element e, .element e' =>
    e'.tag = e.tag ∧ e'.attrs = e.attrs ∧ NodesRebuilt w segment after e.children e'.children
  | .nodes ns, .nodes ns' => NodesRebuilt w segment after ns ns'
  | .string s, .string s' => TextRebuilt w segment after s s'
  | .text s, .text s' => TextRebuilt w segment after s s'
  | _, _ => False

end

/-! ## Which paths can be set -/

/-- Setting `w` at a path takes a value to another one. -/
inductive Sets (w : Value) : List String → Value → Value → Prop
  | nil (v : Value) : Sets w [] v w
  | arrayEnd {s : String} {i : Nat} {items : List Value}
    (hi : Text.readIndex? s.toList = some i) (hle : i ≤ items.length) :
    Sets w [s] (.array items) (.array (splice items i [w]))
  | recordEnd (s : String) (es : List (String × Value)) :
    Sets w [s] (.record es) (.record (Assoc.insert s w es))
  | elementEnd {s : String} {i : Nat} {e : Element}
    (hi : Text.readIndex? s.toList = some i) (hle : i ≤ e.children.length) :
    Sets w [s] (.element e) (.element { e with children := splice e.children i w.nodesOf })
  | nodesEnd {s : String} {i : Nat} {ns : List Node}
    (hi : Text.readIndex? s.toList = some i) (hle : i ≤ ns.length) :
    Sets w [s] (.nodes ns) (.nodes (splice ns i w.nodesOf))
  | stringEnd {s t : String} {i : Nat}
    (hi : Text.readIndex? s.toList = some i) (hle : i ≤ t.length) :
    Sets w [s] (.string t) (.string (spliceText t i w.stringOf))
  | textEnd {s t : String} {i : Nat}
    (hi : Text.readIndex? s.toList = some i) (hle : i ≤ t.length) :
    Sets w [s] (.text t) (.text (spliceText t i w.stringOf))
  | array {s s' : String} {rest : List String} {i : Nat} {items : List Value} {x x' : Value}
    (hi : Text.readIndex? s.toList = some i) (hx : items[i]? = some x)
    (h : Sets w (s' :: rest) x x') :
    Sets w (s :: s' :: rest) (.array items) (.array (splice items i [x']))
  | record {s s' : String} {rest : List String} {es : List (String × Value)} {x x' : Value}
    (hx : Assoc.get? s es = some x) (h : Sets w (s' :: rest) x x') :
    Sets w (s :: s' :: rest) (.record es) (.record (Assoc.insert s x' es))
  | element {s s' : String} {rest : List String} {i : Nat} {e : Element} {n : Node} {x' : Value}
    (hi : Text.readIndex? s.toList = some i) (hn : e.children[i]? = some n)
    (h : Sets w (s' :: rest) (ofNode n) x') :
    Sets w (s :: s' :: rest) (.element e)
      (.element { e with children := splice e.children i x'.nodesOf })
  | nodes {s s' : String} {rest : List String} {i : Nat} {ns : List Node} {n : Node} {x' : Value}
    (hi : Text.readIndex? s.toList = some i) (hn : ns[i]? = some n)
    (h : Sets w (s' :: rest) (ofNode n) x') :
    Sets w (s :: s' :: rest) (.nodes ns) (.nodes (splice ns i x'.nodesOf))

variable {w v r : Value}

theorem indexAt_eq_ok_iff {walked : List String} {s : String} {length i : Nat} :
    indexAt walked s length = .ok i ↔ Text.readIndex? s.toList = some i ∧ i ≤ length := by
  unfold indexAt
  cases hread : Text.readIndex? s.toList with
  | none => simp
  | some j =>
    simp only [Option.some.injEq]
    split
    · next hlt => exact ⟨nofun, fun ⟨h, hle⟩ => by omega⟩
    · next hle =>
      rw [Except.ok.injEq]
      exact ⟨fun h => ⟨h, by omega⟩, And.left⟩

theorem itemAt_eq_ok_iff {α : Type} {walked : List String} {s : String} {items : List α} {i : Nat}
    {x : α} : itemAt walked s items = .ok (i, x) ↔
      Text.readIndex? s.toList = some i ∧ items[i]? = some x := by
  constructor
  · intro h
    obtain ⟨j, hj, h⟩ := exists_ok_of_bind h
    split at h
    · next hx =>
      cases h
      exact ⟨(indexAt_eq_ok_iff.mp hj).1, hx⟩
    · cases h
  · rintro ⟨hi, hx⟩
    have hle : i ≤ items.length := (List.getElem?_eq_some_iff.mp hx).1.le
    simp only [itemAt, indexAt_eq_ok_iff.mpr ⟨hi, hle⟩, hx, bind, Except.bind, pure, Except.pure]

theorem sets_of_setLast {walked : List String} {s : String} (h : setLast w walked s v = .ok r) :
    Sets w [s] v r := by
  cases v with
  | record es =>
    cases h
    exact .recordEnd s es
  | array items | element e | nodes ns | string t | text t =>
    obtain ⟨i, hi, h⟩ := exists_ok_of_bind h
    obtain ⟨hread, hle⟩ := indexAt_eq_ok_iff.mp hi
    cases h
    constructor <;> assumption
  | _ => cases h

theorem sets_of_setAlong : ∀ {path walked : List String} {v r : Value},
    setAlong w walked path v = .ok r → Sets w path v r
  | [], _, v, _, h => by
    cases h
    exact .nil v
  | [s], _, _, _, h => sets_of_setLast h
  | s :: s' :: rest, walked, v, r, h => by
    unfold setAlong at h
    cases v with
    | array items =>
      obtain ⟨⟨i, x⟩, hx, h⟩ := exists_ok_of_bind h
      obtain ⟨x', hx', h⟩ := exists_ok_of_bind h
      obtain ⟨hi, hx⟩ := itemAt_eq_ok_iff.mp hx
      cases h
      exact .array hi hx (sets_of_setAlong hx')
    | record es =>
      cases hx : Assoc.get? s es with
      | none => simp [hx] at h
      | some x =>
        simp only [hx] at h
        obtain ⟨x', hx', h⟩ := exists_ok_of_bind h
        cases h
        exact .record hx (sets_of_setAlong hx')
    | element e =>
      obtain ⟨⟨i, n⟩, hn, h⟩ := exists_ok_of_bind h
      obtain ⟨x', hx', h⟩ := exists_ok_of_bind h
      obtain ⟨hi, hn⟩ := itemAt_eq_ok_iff.mp hn
      cases h
      exact .element hi hn (sets_of_setAlong hx')
    | nodes ns =>
      obtain ⟨⟨i, n⟩, hn, h⟩ := exists_ok_of_bind h
      obtain ⟨x', hx', h⟩ := exists_ok_of_bind h
      obtain ⟨hi, hn⟩ := itemAt_eq_ok_iff.mp hn
      cases h
      exact .nodes hi hn (sets_of_setAlong hx')
    | _ => cases h

theorem setAlong_of_sets {path : List String} (h : Sets w path v r) (walked : List String) :
    setAlong w walked path v = .ok r := by
  induction h generalizing walked with
  | nil v => rfl
  | recordEnd s es => rfl
  | arrayEnd hi hle | elementEnd hi hle | nodesEnd hi hle | stringEnd hi hle | textEnd hi hle =>
    simp only [setAlong, setLast, indexAt_eq_ok_iff.mpr ⟨hi, hle⟩, bind, Except.bind, pure,
      Except.pure]
  | array hi hx _ ih | element hi hx _ ih | nodes hi hx _ ih =>
    simp only [setAlong, itemAt_eq_ok_iff.mpr ⟨hi, hx⟩, ih, bind, Except.bind, pure, Except.pure]
  | record hx _ ih => simp only [setAlong, hx, ih, bind, Except.bind, pure, Except.pure]

theorem setProperty_eq_ok_iff {path : List String} :
    v.setProperty path w = .ok r ↔ Sets w path v r :=
  ⟨sets_of_setAlong, fun h => setAlong_of_sets h []⟩

/-! ## One step of the way -/

section
variable {α : Type} {items : List α} {i : Nat}

theorem splice_of_lt (h : i < items.length) (x : α) : splice items i [x] = items.set i x := by
  rw [List.set_eq_take_append_cons_drop, if_pos h, splice, List.append_assoc]
  rfl

theorem splice_length (items new : List α) : splice items items.length new = items ++ new := by
  rw [splice, List.take_length, List.drop_eq_nil_of_le (Nat.le_succ _), List.append_nil]

theorem getElem?_splice_self (h : i ≤ items.length) (x : α) :
    (splice items i [x])[i]? = some x := by
  rcases Nat.lt_or_eq_of_le h with h | rfl
  · rw [splice_of_lt h, List.getElem?_set_self h]
  · rw [splice_length, List.getElem?_concat_length]

theorem getElem?_splice_ne (h : i ≤ items.length) (x : α) {j : Nat} (hj : j ≠ i) :
    (splice items i [x])[j]? = items[j]? := by
  rcases Nat.lt_or_eq_of_le h with h | rfl
  · rw [splice_of_lt h, List.getElem?_set_ne hj.symm]
  · rw [splice_length]
    rcases Nat.lt_or_gt_of_ne hj with hj | hj
    · rw [List.getElem?_append_left hj]
    · rw [List.getElem?_eq_none hj.le, List.getElem?_eq_none (by simpa [Nat.succ_le_iff] using hj)]

theorem splice_splice (h : i ≤ items.length) (x y : α) :
    splice (splice items i [x]) i [y] = splice items i [y] := by
  rcases Nat.lt_or_eq_of_le h with h | rfl
  · rw [splice_of_lt h, splice_of_lt (by simpa using h), splice_of_lt h, List.set_set]
  · rw [splice_length, splice_length, splice_of_lt (by simp)]
    simp

theorem le_length_splice (h : i ≤ items.length) (x : α) : i ≤ (splice items i [x]).length := by
  rcases Nat.lt_or_eq_of_le h with h | rfl
  · rw [splice_of_lt h, List.length_set]
    exact h.le
  · rw [splice_length, List.length_append]
    exact Nat.le_add_right ..

end

/-- Below a node setting gives a node again. -/
theorem exists_node_of_sets {s : String} {rest : List String} {n : Node}
    (h : Sets w (s :: rest) (ofNode n) r) : ∃ n', r = ofNode n' := by
  cases n with
  | text t =>
    cases h with
    | textEnd hi hle => exact ⟨.text _, rfl⟩
  | element tag attrs children =>
    cases h with
    | elementEnd hi hle => exact ⟨.element tag attrs _, rfl⟩
    | element hi hn h => exact ⟨.element tag attrs _, rfl⟩

theorem nodesRebuilt_of_splice {ns : List Node} {n : Node} {s s' : String} {rest : List String}
    {i : Nat} {x' : Value} (hi : Text.readIndex? s.toList = some i) (hn : ns[i]? = some n)
    (h : Sets w (s' :: rest) (ofNode n) x') :
    NodesRebuilt w s (s' :: rest) ns (splice ns i x'.nodesOf) := by
  obtain ⟨n', rfl⟩ := exists_node_of_sets h
  have hlt := (List.getElem?_eq_some_iff.mp hn).1
  refine ⟨i, hi, ?_⟩
  rw [if_neg (List.cons_ne_nil _ _)]
  exact ⟨hlt, n', by rw [nodesOf_ofNode, splice_of_lt hlt]⟩

theorem textRebuilt_spliceText {s t : String} {i : Nat}
    (hi : Text.readIndex? s.toList = some i) (hle : i ≤ t.length) :
    TextRebuilt w s [] t (spliceText t i w.stringOf) :=
  ⟨rfl, i, hi, hle, by rw [spliceText, String.toList_ofList]; rfl⟩

/-- The value that a path starts from is rebuilt. -/
theorem rebuilt_of_sets {s : String} {after : List String} (h : Sets w (s :: after) v r) :
    Rebuilt w s after v r := by
  cases h with
  | @arrayEnd _ i items hi hle =>
    refine ⟨i, hi, ?_⟩
    rcases Nat.lt_or_eq_of_le hle with hlt | rfl
    · exact .inl ⟨hlt, w, splice_of_lt hlt w, fun _ => rfl⟩
    · exact .inr ⟨rfl, splice_length .., rfl⟩
  | recordEnd s es =>
    refine ⟨?_, fun k hk => by rw [Assoc.get?_insert, if_neg hk], ?_⟩
    · split
      · next h => exact Assoc.keys_insert_of_mem h
      · next h =>
        rw [Assoc.insert_eq_append h]
        exact List.map_append
    · rw [if_pos rfl, Assoc.get?_insert, if_pos rfl]
  | @elementEnd _ i e hi hle =>
    exact ⟨rfl, rfl, i, hi, by rw [if_pos rfl]; exact ⟨hle, rfl⟩⟩
  | @nodesEnd _ i ns hi hle => exact ⟨i, hi, by rw [if_pos rfl]; exact ⟨hle, rfl⟩⟩
  | stringEnd hi hle | textEnd hi hle => exact textRebuilt_spliceText hi hle
  | @array _ s' rest i items x x' hi hx h =>
    have hlt := (List.getElem?_eq_some_iff.mp hx).1
    exact ⟨i, hi, .inl ⟨hlt, x', splice_of_lt hlt x', nofun⟩⟩
  | @record _ s' rest es x x' hx h =>
    have hmem : s ∈ Assoc.keys es := List.mem_map_of_mem (Assoc.mem_of_get? hx)
    refine ⟨?_, fun k hk => by rw [Assoc.get?_insert, if_neg hk], ?_⟩
    · rw [if_pos hmem, Assoc.keys_insert_of_mem hmem]
    · rwa [if_neg (List.cons_ne_nil _ _)]
  | element hi hn h => exact ⟨rfl, rfl, nodesRebuilt_of_splice hi hn h⟩
  | nodes hi hn h => exact nodesRebuilt_of_splice hi hn h

/-- A path that goes on leads, before and after, to values between which the rest of it is set. -/
theorem exists_child_of_sets {s s' : String} {rest : List String}
    (h : Sets w (s :: s' :: rest) v r) :
    ∃ x x', v.child? s = some x ∧ r.child? s = some x' ∧ Sets w (s' :: rest) x x' := by
  cases h with
  | @array _ _ _ i items x x' hi hx h =>
    have hle := (List.getElem?_eq_some_iff.mp hx).1.le
    refine ⟨x, x', ?_, ?_, h⟩
    · rwa [child?, hi]
    · rw [child?, hi]
      exact getElem?_splice_self hle x'
  | @record _ _ _ es x x' hx h =>
    exact ⟨x, x', hx, by rw [child?, Assoc.get?_insert, if_pos rfl], h⟩
  | @element _ _ _ i e n x' hi hn h | @nodes _ _ _ i e n x' hi hn h =>
    obtain ⟨n', rfl⟩ := exists_node_of_sets h
    have hle := (List.getElem?_eq_some_iff.mp hn).1.le
    refine ⟨ofNode n, ofNode n', ?_, ?_, h⟩
    · rw [child?, hi, Option.bind_some, hn]
      rfl
    · rw [child?, hi, Option.bind_some, nodesOf_ofNode, getElem?_splice_self hle]
      rfl

/-- Every value on the way is rebuilt, and stands where it stood. -/
theorem rebuilt_along_of_sets {before after : List String} {s : String}
    (h : Sets w (before ++ s :: after) v r) :
    ∃ c c', v.along? before = some c ∧ r.along? before = some c' ∧ Rebuilt w s after c c' := by
  induction before generalizing v r with
  | nil => exact ⟨v, r, rfl, rfl, rebuilt_of_sets h⟩
  | cons t before ih =>
    obtain ⟨t', rest, hrest⟩ : ∃ t' rest, before ++ s :: after = t' :: rest := by
      cases before with
      | nil => exact ⟨_, _, rfl⟩
      | cons t' before => exact ⟨_, _, rfl⟩
    rw [List.cons_append, hrest] at h
    obtain ⟨x, x', hx, hx', h⟩ := exists_child_of_sets h
    rw [← hrest] at h
    obtain ⟨c, c', hc, hc', hrebuilt⟩ := ih h
    exact ⟨c, c', by rw [along?, hx]; exact hc, by rw [along?, hx']; exact hc', hrebuilt⟩

/-! ## Through arrays and records -/

theorem child?_congr {s s' : String} (h : SameChild s s' v) : v.child? s' = v.child? s := by
  cases v with
  | record es => rw [show s = s' from h]
  | array items | element e | nodes ns =>
    have hread : Text.readIndex? s.toList = Text.readIndex? s'.toList := h
    simp only [child?, hread]
  | _ => rfl

theorem SameChild.of_sets {s s' : String} {rest : List String} (hsame : SameChild s s' v)
    (h : Sets w (s :: rest) v r) : SameChild s s' r := by
  cases h <;> exact hsame

/-- At its end a path leads to the new value. -/
theorem child?_of_sets {s : String} (hdata : v.isData = true) (h : Sets w [s] v r) :
    r.child? s = some w := by
  cases h with
  | arrayEnd hi hle =>
    rw [child?, hi]
    exact getElem?_splice_self hle w
  | recordEnd s es => rw [child?, Assoc.get?_insert, if_pos rfl]
  | _ => cases hdata

theorem getElem?_splice_of_read {items : List Value} {s s' : String} {i : Nat}
    (hi : Text.readIndex? s.toList = some i) (hle : i ≤ items.length)
    (hne : ¬SameChild s s' (.array items)) (x : Value) :
    child? s' (.array (splice items i [x])) = child? s' (.array items) := by
  unfold child?
  cases hj : Text.readIndex? s'.toList with
  | none => rfl
  | some j =>
    refine getElem?_splice_ne hle x fun hij => hne ?_
    change Text.readIndex? s.toList = Text.readIndex? s'.toList
    rw [hi, hj, hij]

/-- No other child changes. -/
theorem child?_of_sets_of_not_same {s s' : String} {rest : List String} (hdata : v.isData = true)
    (h : Sets w (s :: rest) v r) (hne : ¬SameChild s s' v) : r.child? s' = v.child? s' := by
  cases h with
  | arrayEnd hi hle => exact getElem?_splice_of_read hi hle hne w
  | array hi hx h =>
    exact getElem?_splice_of_read hi (List.getElem?_eq_some_iff.mp hx).1.le hne _
  | recordEnd s es | record hx h => rw [child?, Assoc.get?_insert, if_neg (Ne.symm hne)]; rfl
  | _ => cases hdata

/-- The new value is read back. -/
theorem along?_of_sets {path : List String} (hdata : ThroughData path v) (h : Sets w path v r) :
    r.along? path = some w := by
  induction path generalizing v r with
  | nil =>
    cases h
    rfl
  | cons s rest ih =>
    cases rest with
    | nil => rw [along?, child?_of_sets hdata.1 h, Option.bind_some, along?]
    | cons s' rest =>
      obtain ⟨x, x', hx, hx', h⟩ := exists_child_of_sets h
      rw [along?, hx']
      exact ih (hdata.2 x hx) h

/-- What a path that leaves the other one leads to stays as it was. -/
theorem along?_of_leaves {path q : List String} (hleaves : Leaves v path q)
    (hdata : ThroughData path v) (h : Sets w path v r) : r.along? q = v.along? q := by
  induction hleaves generalizing r with
  | here hne => rw [along?, along?, child?_of_sets_of_not_same hdata.1 h hne]
  | @later v x s s' path q hsame hx hleaves ih =>
    obtain ⟨t, rest, rfl⟩ : ∃ t rest, path = t :: rest := by
      cases hleaves with
      | here => exact ⟨_, _, rfl⟩
      | later => exact ⟨_, _, rfl⟩
    obtain ⟨y, x', hy, hx', hsets⟩ := exists_child_of_sets h
    cases hy.symm.trans hx
    rw [along?, along?, child?_congr hsame, child?_congr (hsame.of_sets h), hx, hx']
    exact ih (hdata.2 x hx) hsets

/-- A second new value can be set wherever a first one was, with one outcome before and after. -/
theorem exists_sets_again {path : List String} (hdata : ThroughData path v)
    (h : Sets w path v r) (w' : Value) : ∃ r', Sets w' path v r' ∧ Sets w' path r r' := by
  induction h with
  | nil v => exact ⟨w', .nil v, .nil w⟩
  | arrayEnd hi hle =>
    refine ⟨_, .arrayEnd hi hle, ?_⟩
    have hagain := Sets.arrayEnd (w := w') hi (le_length_splice hle w)
    rwa [splice_splice hle] at hagain
  | recordEnd s es =>
    refine ⟨_, .recordEnd s es, ?_⟩
    have hagain := Sets.recordEnd (w := w') s (Assoc.insert s w es)
    rwa [Assoc.insert_insert] at hagain
  | @array s s' rest i items x x' hi hx h ih =>
    have hle := (List.getElem?_eq_some_iff.mp hx).1.le
    obtain ⟨r', hr, hr'⟩ := ih (hdata.2 x (by rwa [child?, hi]))
    refine ⟨_, .array hi hx hr, ?_⟩
    have hagain := Sets.array hi (getElem?_splice_self hle x') hr'
    rwa [splice_splice hle] at hagain
  | @record s s' rest es x x' hx h ih =>
    obtain ⟨r', hr, hr'⟩ := ih (hdata.2 x hx)
    refine ⟨_, .record hx hr, ?_⟩
    have hfound : Assoc.get? s (Assoc.insert s x' es) = some x' := by
      rw [Assoc.get?_insert, if_pos rfl]
    have hagain := Sets.record hfound hr'
    rwa [Assoc.insert_insert] at hagain
  | _ => cases hdata.1

theorem setProperty_again {path : List String} (hdata : ThroughData path v)
    (h : Sets w path v r) (w' : Value) : r.setProperty path w' = v.setProperty path w' := by
  obtain ⟨r', hr, hr'⟩ := exists_sets_again hdata h w'
  rw [setProperty_eq_ok_iff.mpr hr, setProperty_eq_ok_iff.mpr hr']

end Value

/-! ## The tag -/

namespace SmartTag

open Value

variable {main w r arg : Value} {path : String}

theorem run_setProperty_of_ne (harg : arg = .string path ∨ arg = .text path) (hpath : path ≠ "")
    (main w : Value) : SmartTag.setProperty.run main [arg, w] =
      main.setProperty (Text.segmentStrings '.' path) w := by
  have hempty : path.isEmpty = false := by simpa using hpath
  rcases harg with rfl | rfl <;>
    simp [SmartTag.run, mode, SmartTag.apply, runSetProperty, checkArity, stringArgument, hempty,
      bind, Except.bind]

theorem ne_empty_of_run_setProperty (harg : arg = .string path ∨ arg = .text path)
    (h : SmartTag.setProperty.run main [arg, w] = .ok r) : path ≠ "" := by
  rintro rfl
  rcases harg with rfl | rfl <;> cases h

/-- Setting at a path rebuilds the values on the way around one changed item, and through arrays and
records it is an update: the new value is read back, nothing else changes, and the last one wins. -/
theorem run_setProperty_rebuilds (harg : arg = .string path ∨ arg = .text path)
    (h : SmartTag.setProperty.run main [arg, w] = .ok r) :
    (∀ before s after, Text.segmentStrings '.' path = before ++ s :: after →
      ∃ c c', main.along? before = some c ∧ r.along? before = some c' ∧ Rebuilt w s after c c') ∧
    (ThroughData (Text.segmentStrings '.' path) main →
      r.along? (Text.segmentStrings '.' path) = some w ∧
      (∀ q, Leaves main (Text.segmentStrings '.' path) q → r.along? q = main.along? q) ∧
      ∀ w', SmartTag.setProperty.run r [arg, w'] = SmartTag.setProperty.run main [arg, w']) := by
  have hpath := ne_empty_of_run_setProperty harg h
  have hrun := run_setProperty_of_ne harg hpath
  rw [hrun, setProperty_eq_ok_iff] at h
  constructor
  · intro before s after hsplit
    rw [hsplit] at h
    exact rebuilt_along_of_sets h
  · intro hdata
    refine ⟨along?_of_sets hdata h, fun q hq => along?_of_leaves hq hdata h, fun w' => ?_⟩
    rw [hrun, hrun, setProperty_again hdata h]

/-- A record with a list, whose items have indexes of several spellings. -/
def listed (item : Value) : Value :=
  .record [("n", .null), ("list", .array [.text "a", item])]

theorem run_setProperty_rebuilds_listed :
    SmartTag.setProperty.run (listed .null) [.string "list.01", .boolean true] =
        .ok (listed (.boolean true)) ∧
      ThroughData ["list", "01"] (listed .null) ∧
      (listed (.boolean true)).along? ["list", "01"] = some (.boolean true) ∧
      (listed (.boolean true)).along? ["list", "0"] = (listed .null).along? ["list", "0"] := by
  have hsegments : Text.segmentStrings '.' "list.01" = ["list", "01"] := by decide
  have hrun : SmartTag.setProperty.run (listed .null) [.string "list.01", .boolean true] =
      .ok (listed (.boolean true)) := by rfl
  have hdata : ThroughData ["list", "01"] (listed .null) := by
    refine ⟨rfl, fun x hx => ?_⟩
    cases hx
    exact ⟨rfl, fun _ _ => trivial⟩
  have hleaves : Leaves (listed .null) ["list", "01"] ["list", "0"] :=
    .later rfl rfl (.here (show ¬Text.readIndex? _ = Text.readIndex? _ by decide))
  obtain ⟨-, h⟩ := run_setProperty_rebuilds (.inl rfl) hrun
  rw [hsegments] at h
  obtain ⟨hread, hother, -⟩ := h hdata
  exact ⟨hrun, hdata, hread, hother _ hleaves⟩

end SmartTag
end MarkupEval
