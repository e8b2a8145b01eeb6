import MarkupEval.Proofs.Value.MarkedText
import MarkupEval.Transformer.Invoke

/-!
# What equality does not tell apart

Equal values that hold no elements have equal casts and the same texts, and are merged to equal
values (`same_congruence`). The order of record keys does not show, since objects are written by
ascending key, and the sign of zero does not, since integers of safe size are written as such. Only
the HTML of an element shows the order of its attributes.
-/

namespace MarkupEval

namespace Binary64

variable {x y : Binary64}

theorem toJson_zero (negative : Bool) : (zero negative).toJson = .integer 0 := by
  cases negative <;> rfl

theorem text_zero (negative : Bool) : (zero negative).text = "0" := by
  cases negative <;> decide +kernel

theorem toJson_of_not_isFinite (h : x.isFinite = false) : x.toJson = .null := by
  simp [toJson, safeInteger?, toInt?, h]

/-- A function of numbers that does not show the sign of zero nor the bits of a not-a-number. -/
theorem congr_of_same {α : Type} {f : Binary64 → α} {zeroes nans : α}
    (hzero : ∀ negative, f (zero negative) = zeroes) (hnan : ∀ {x}, x.isNaN = true → f x = nans)
    (h : x.same y = true) : f x = f y := by
  rcases same_iff.mp h with rfl | ⟨hx, hy⟩ | ⟨hx, hy⟩
  · rfl
  · rw [eq_zero_of_isZero hx, eq_zero_of_isZero hy, hzero, hzero]
  · rw [hnan hx, hnan hy]

theorem toJson_congr (h : x.same y = true) : x.toJson = y.toJson :=
  congr_of_same toJson_zero (fun hx => toJson_of_not_isFinite (not_isFinite_of_isNaN hx)) h

theorem text_congr (h : x.same y = true) : x.text = y.text :=
  congr_of_same text_zero (fun hx => if_pos hx) h

theorem isTruthy_congr (h : x.same y = true) : x.isTruthy = y.isTruthy :=
  @congr_of_same x y Bool isTruthy false false (fun _ => rfl) (fun hx => by simp [isTruthy, hx]) h

end Binary64

namespace Value

/-! ## Values without elements -/

mutual

/-- There is no element, at any depth of arrays, records and markup. -/
def ElementFree : Value → Prop
  | .element _ => False
  | .nodes ns => ns.all Node.isText = true
  | .array items => AllElementFree items
  | .record entries => EntriesElementFree entries
  | _ => True

def AllElementFree : List Value → Prop
  | [] => True
  | v :: vs => v.ElementFree ∧ AllElementFree vs

def EntriesElementFree : List (String × Value) → Prop
  | [] => True
  | (_, v) :: es => v.ElementFree ∧ EntriesElementFree es

end

theorem allElementFree_iff {vs : List Value} : AllElementFree vs ↔ ∀ v ∈ vs, v.ElementFree := by
  induction vs with
  | nil => simp [AllElementFree]
  | cons v vs ih => simp [AllElementFree, ih]

theorem entriesElementFree_iff {es : List (String × Value)} :
    EntriesElementFree es ↔ ∀ e ∈ es, e.2.ElementFree := by
  induction es with
  | nil => simp [EntriesElementFree]
  | cons e es ih => simp [EntriesElementFree, ih]

theorem SameAt.map_eq {α : Type} {f : Value → α} {v w : Option Value} (h : SameAt v w)
    (hf : ∀ x, v = some x → ∀ y, w = some y → x.same y = true → f x = f y) :
    v.map f = w.map f := by
  cases h with
  | none => rfl
  | some h => exact congrArg some (hf _ rfl _ rfl h)

/-- Equal arrays and records are not told apart by functions that agree on their values. -/
theorem map_eq_of_same_array {α : Type} {f : Value → α} {xs ys : List Value}
    (h : (array xs).same (array ys) = true)
    (hf : ∀ x ∈ xs, ∀ y ∈ ys, x.same y = true → f x = f y) : xs.map f = ys.map f := by
  refine List.ext_getElem? fun i => ?_
  rw [List.getElem?_map, List.getElem?_map]
  exact (same_array_iff.mp h i).map_eq fun x hx y hy =>
    hf x (List.mem_of_getElem? hx) y (List.mem_of_getElem? hy)

theorem map_perm_of_same_record {α : Type} {f : Value → α} {es fs : List (String × Value)}
    (hes : (Assoc.keys es).Nodup) (hfs : (Assoc.keys fs).Nodup)
    (h : (record es).same (record fs) = true)
    (hf : ∀ e ∈ es, ∀ e' ∈ fs, e.2.same e'.2 = true → f e.2 = f e'.2) :
    (es.map fun e => (e.1, f e.2)).Perm (fs.map fun e => (e.1, f e.2)) := by
  refine Assoc.perm_of_get?_eq ?_ ?_ fun k => ?_
  · simpa [Assoc.keys, Function.comp_def] using hes
  · simpa [Assoc.keys, Function.comp_def] using hfs
  · rw [Assoc.get?_map, Assoc.get?_map]
    exact ((same_record_iff hes hfs).mp h k).map_eq fun x hx y hy =>
      hf _ (Assoc.mem_of_get? hx) _ (Assoc.mem_of_get? hy)

/-! ## Views as JSON -/

/-- A view of values as JSON that shows arrays as lists of views and records as objects of views. -/
structure IsView (f : Value → Json) : Prop where
  array : ∀ items, f (.array items) = .list (items.map f)
  record : ∀ es, f (.record es) = .object (Sorted.ofPairs (es.map fun e => (e.1, f e.2)))
  number : ∀ x, f (.number x) = x.toJson

theorem plainItems_eq_map (vs : List Value) : plainItems vs = vs.map plainJson := by
  induction vs with
  | nil => rfl
  | cons v vs ih => rw [plainItems, ih, List.map_cons]

theorem plainEntries_eq_map (es : List (String × Value)) :
    plainEntries es = es.map fun e => (e.1, plainJson e.2) := by
  induction es with
  | nil => rfl
  | cons e es ih => rw [plainEntries, ih, List.map_cons]

theorem isView_plainJson : IsView plainJson where
  array items := by rw [plainJson, plainItems_eq_map]
  record es := by rw [plainJson, plainEntries_eq_map]
  number _ := rfl

theorem isView_encode : IsView MarkedText.encode where
  array items := by rw [MarkedText.encode, MarkedText.encodeItems_eq_map]
  record es := by rw [MarkedText.encode, MarkedText.encodeEntries_eq_map]
  number _ := rfl

variable {a b c d : Value}

/-- A view does not tell equal values apart. -/
theorem IsView.congr {f : Value → Json} (hf : IsView f) (ha : a.WellFormed) (hb : b.WellFormed)
    (hfree : a.ElementFree) (h : a.same b = true) : f a = f b := by
  induction a using Value.induction generalizing b with
  | leaf a hleaf =>
    cases alike_of_same h with
    | array _ | record _ _ => cases hleaf
    | null | boolean _ | string _ | text _ => rfl
    | number hxy => rw [hf.number, hf.number, Binary64.toJson_congr hxy]
    | element _ => exact absurd hfree id
    | nodes hns => rw [Node.eq_of_sameList hfree hns]
  | array items ih =>
    cases alike_of_same h with
    | @array _ ys _ =>
      rw [wellFormed_array] at ha hb
      have hfree := allElementFree_iff.mp hfree
      rw [hf.array, hf.array]
      exact congrArg Json.list (map_eq_of_same_array h fun x hx y hy =>
        ih x hx (ha x hx) (hb y hy) (hfree x hx))
  | record es ih =>
    cases alike_of_same h with
    | @record _ fs _ _ =>
      obtain ⟨hes, hvs⟩ := wellFormed_record.mp ha
      obtain ⟨hfs, hws⟩ := wellFormed_record.mp hb
      have hfree := entriesElementFree_iff.mp hfree
      have hperm := map_perm_of_same_record hes hfs h fun e he e' he' =>
        ih e he (hvs e he) (hws e' he') (hfree e he)
      rw [hf.record, hf.record, Sorted.ofPairs_congr ?_ hperm]
      simpa [Assoc.keys, Function.comp_def] using hes
  | transformer name args op => cases alike_of_same h

/-! ## Texts -/

theorem stringify_congr (ha : a.WellFormed) (hb : b.WellFormed) (hfree : a.ElementFree)
    (h : a.same b = true) : MarkedText.stringify a = MarkedText.stringify b :=
  congrArg Json.text (isView_encode.congr ha hb hfree h)

theorem stringOf_congr (ha : a.WellFormed) (hb : b.WellFormed) (hfree : a.ElementFree)
    (h : a.same b = true) : a.stringOf = b.stringOf := by
  have hview := isView_plainJson.congr ha hb hfree h
  cases alike_of_same h with
  | null | boolean _ | string _ | text _ => rfl
  | number hxy => exact Binary64.text_congr hxy
  | element _ => exact absurd hfree id
  | nodes hns => rw [Node.eq_of_sameList hfree hns]
  | array _ | record _ _ => exact congrArg Json.text hview

/-! ## Casts -/

theorem nodesOfItems_eq_flatten (vs : List Value) : nodesOfItems vs = (vs.map nodesOf).flatten := by
  induction vs with
  | nil => rfl
  | cons v vs ih => rw [nodesOfItems, ih, List.map_cons, List.flatten_cons]

theorem nodesOf_congr (ha : a.WellFormed) (hb : b.WellFormed) (hfree : a.ElementFree)
    (h : a.same b = true) : a.nodesOf = b.nodesOf := by
  induction a using Value.induction generalizing b with
  | leaf a hleaf =>
    cases alike_of_same h with
    | array _ | record _ _ => cases hleaf
    | null | boolean _ | string _ | text _ => rfl
    | number hxy => rw [nodesOf, nodesOf, Binary64.text_congr hxy]
    | element _ => exact absurd hfree id
    | nodes hns => rw [Node.eq_of_sameList hfree hns]
  | array items ih =>
    cases alike_of_same h with
    | @array _ ys _ =>
      rw [wellFormed_array] at ha hb
      have hfree := allElementFree_iff.mp hfree
      rw [nodesOf, nodesOf, nodesOfItems_eq_flatten, nodesOfItems_eq_flatten]
      exact congrArg List.flatten (map_eq_of_same_array h fun x hx y hy =>
        ih x hx (ha x hx) (hb y hy) (hfree x hx))
  | record es _ =>
    cases alike_of_same h with
    | record _ _ => rw [nodesOf, nodesOf, stringOf_congr ha hb hfree h]
  | transformer name args op => cases alike_of_same h

theorem isTruthy_congr (h : a.same b = true) : a.isTruthy = b.isTruthy := by
  cases alike_of_same h with
  | null | boolean _ | string _ | text _ | element _ => rfl
  | number hxy => exact Binary64.isTruthy_congr hxy
  | @nodes ns ms hns => cases ns <;> cases ms <;> first | rfl | cases hns
  | array hxs => cases hxs <;> rfl
  | @record es fs hlength _ => cases es <;> cases fs <;> first | rfl | cases hlength

theorem toNumber_congr (h : a.same b = true) : a.toNumber.same b.toNumber = true := by
  cases alike_of_same h with
  | number hxy => exact hxy
  | _ => exact Binary64.same_refl _

theorem same_items_ofNode (ns : List Node) :
    (array (ns.map ofNode)).same (array (ns.map ofNode)) = true := by
  refine (plain_array.mpr fun v hv => ?_).same_refl
  obtain ⟨n, -, rfl⟩ := List.mem_map.mp hv
  exact plain_hereditary.ofNode n

theorem toItems_congr (hfree : a.ElementFree) (h : a.same b = true) :
    (array a.toItems).same (array b.toItems) = true := by
  cases alike_of_same h with
  | array _ => exact h
  | nodes hns =>
    rw [Node.eq_of_sameList hfree hns]
    exact same_items_ofNode _
  | _ => exact (Alike.array (.cons h .nil)).same

theorem toEntries_congr (h : a.same b = true) :
    (record a.toEntries).same (record b.toEntries) = true := by
  cases alike_of_same h with
  | record _ _ => exact h
  | _ => rfl

/-- Casts of equal values are equal. -/
theorem castTo?_congr (ha : a.Plain) (hb : b.Plain) (hfree : a.ElementFree)
    (h : a.same b = true) (k : Kind) : (a.castTo? k == b.castTo? k) = true := by
  cases k with
  | null | element | transformer => rfl
  | boolean =>
    rw [castTo?, castTo?, isTruthy_congr h]
    exact (Alike.boolean _).same
  | number => exact toNumber_congr h
  | string =>
    rw [castTo?, castTo?, stringOf_congr ha.wellFormed hb.wellFormed hfree h]
    exact (Alike.string _).same
  | text =>
    rw [castTo?, castTo?, stringOf_congr ha.wellFormed hb.wellFormed hfree h]
    exact (Alike.text _).same
  | nodes =>
    rw [castTo?, castTo?, nodesOf_congr ha.wellFormed hb.wellFormed hfree h]
    exact Node.sameList_refl _
  | array => exact toItems_congr hfree h
  | record => exact toEntries_congr h

/-! ## Merging -/

theorem insert_congr {es fs : List (String × Value)} (hes : (record es).Plain)
    (hfs : (record fs).Plain) (k : String) (h : (record es).same (record fs) = true)
    (hcd : c.same d = true) :
    (record (Assoc.insert k c es)).same (record (Assoc.insert k d fs)) = true := by
  have hes := (plain_record.mp hes).1
  have hfs := (plain_record.mp hfs).1
  rw [same_record_iff (Assoc.nodup_keys_insert hes) (Assoc.nodup_keys_insert hfs)]
  intro l
  rw [Assoc.get?_insert, Assoc.get?_insert]
  split
  · exact .some hcd
  · exact (same_record_iff hes hfs).mp h l

theorem isMarkup_congr (h : a.same b = true) : a.isMarkup = b.isMarkup := by
  cases alike_of_same h <;> rfl

theorem absorbIntoNodes_congr (hfree : c.ElementFree) (h : c.same d = true)
    (ns : List Node) : (absorbIntoNodes ns c).same (absorbIntoNodes ns d) = true := by
  cases alike_of_same h with
  | null | boolean _ | string _ | text _ => exact Node.sameList_refl _
  | number hxy =>
    rw [absorbIntoNodes, absorbIntoNodes, Binary64.text_congr hxy]
    exact Node.sameList_refl _
  | element _ => exact absurd hfree id
  | nodes hns =>
    rw [Node.eq_of_sameList hfree hns]
    exact Node.sameList_refl _
  | array hxs =>
    exact (Alike.array (List.rel_append (sameItems_iff.mp (same_items_ofNode ns)) hxs)).same
  | record _ _ => exact h

/-- Equal accumulators take in equal values alike. -/
theorem absorb_congr (ha : a.Plain) (hb : b.Plain) (hc : c.Plain) (hd : d.Plain)
    (hafree : a.ElementFree) (hcfree : c.ElementFree) (hab : a.same b = true)
    (hcd : c.same d = true) (key : Key) : (a.absorb c key).same (b.absorb d key) = true := by
  have hscalar : (if c.isMarkup then concatenate a c else c).same
      (if d.isMarkup then concatenate b d else d) = true := by
    rw [isMarkup_congr hcd]
    split
    · rw [concatenate, concatenate, nodesOf_congr ha.wellFormed hb.wellFormed hafree hab,
        nodesOf_congr hc.wellFormed hd.wellFormed hcfree hcd]
      exact Node.sameList_refl _
    · exact hcd
  cases alike_of_same hab with
  | null | boolean _ | number _ | string _ | text _ | element _ => exact hscalar
  | nodes hns =>
    rw [Node.eq_of_sameList hafree hns]
    exact absorbIntoNodes_congr hcfree hcd _
  | array hxs =>
    cases key with
    | name s => exact hab
    | position i => exact (Alike.array (List.rel_append hxs (.cons hcd .nil))).same
  | record _ _ =>
    cases key with
    | name s => exact insert_congr ha hb s hab hcd
    | position i => exact hab

/-- Equality is an equivalence on values without transformers. Where there are no elements either,
casts, merging and both texts respect it. -/
theorem same_congruence :
    Equivalence (fun v w : {v : Value // v.Plain} => (v.1 == w.1) = true) ∧
    ∀ {a b c d : Value}, a.Plain → b.Plain → c.Plain → d.Plain → a.ElementFree → c.ElementFree →
      (a == b) = true → (c == d) = true →
      (∀ k, (a.castTo? k == b.castTo? k) = true) ∧
      (∀ {σ : Type} (hooks : Hooks σ) (key : Key), ∃ v w,
        merge hooks a c key = pure v ∧ merge hooks b d key = pure w ∧ (v == w) = true) ∧
      a.stringOf = b.stringOf ∧
      MarkedText.stringify a = MarkedText.stringify b := by
  refine ⟨⟨fun v => v.2.same_refl, fun {v w} => same_symm v.2.wellFormed w.2.wellFormed,
    fun {u v w} => same_trans u.2.wellFormed v.2.wellFormed w.2.wellFormed⟩, ?_⟩
  intro a b c d ha hb hc hd hafree hcfree hab hcd
  refine ⟨castTo?_congr ha hb hafree hab, fun hooks key => ?_,
    stringOf_congr ha.wellFormed hb.wellFormed hafree hab,
    stringify_congr ha.wellFormed hb.wellFormed hafree hab⟩
  exact ⟨a.absorb c key, b.absorb d key, merge_of_kind_ne hc.kind_ne hooks a key,
    merge_of_kind_ne hd.kind_ne hooks b key, absorb_congr ha hb hc hd hafree hcfree hab hcd key⟩

/-- A record with a zero and, further down, a not-a-number and markup. -/
def listed : Value :=
  .record [("x", .number (.zero false)), ("y", .array [.number .nan, .nodes [.text "t"]])]

/-- The same with its keys the other way round, the other zero and another not-a-number. -/
def relisted : Value :=
  .record [("y", .array [.number Binary64.nan.neg, .nodes [.text "t"]]),
    ("x", .number (.zero true))]

theorem relisted_congruence :
    (listed == relisted) = true ∧
      (∀ k, (listed.castTo? k == relisted.castTo? k) = true) ∧
      (∀ {σ : Type} (hooks : Hooks σ) (key : Key), ∃ v w,
        merge hooks listed relisted key = pure v ∧ merge hooks relisted listed key = pure w ∧
          (v == w) = true) ∧
      listed.stringOf = relisted.stringOf ∧
      MarkedText.stringify listed = MarkedText.stringify relisted := by
  have hplain : listed.Plain ∧ relisted.Plain := by
    constructor <;> refine ⟨⟨by decide, ?_⟩, ?_⟩ <;> repeat' constructor
  have hfree : listed.ElementFree ∧ relisted.ElementFree := by
    constructor <;> repeat' constructor
  have hsame : (listed == relisted) = true ∧ (relisted == listed) = true := by decide +kernel
  exact ⟨hsame.1, same_congruence.2 hplain.1 hplain.2 hplain.2 hplain.1 hfree.1 hfree.2
    hsame.1 hsame.2⟩

end Value
end MarkupEval
