import MarkupEval.Proofs.Transformer.Bounds

/-!
# Which paths can be set

A property can be set where every segment of its path addresses something in the value that it
meets; otherwise the first segment that does not is the one that is reported, whatever the new
value is (`run_setProperty_addressable`).
-/

namespace MarkupEval
namespace Value

/-! ## Segments that address something -/

/-- The number of things in a value that have an index. Characters have one only for the last
segment of a path. -/
def extent? (after : List String) : Value → Option Nat
  | .array items => some items.length
  | .element e => some e.children.length
  | .nodes ns => some ns.length
  | .string s | .text s => if after = [] then some s.length else none
  | _ => none

/-- Inside of a path a segment addresses a key or an index that is there; at its end it addresses
any key, and the index after the last one too. -/
def Addresses (s : String) (after : List String) : Value → Prop
  | .record es => after = [] ∨ s ∈ Assoc.keys es
  | v => ∃ i n, Text.readIndex? s.toList = some i ∧ v.extent? after = some n ∧
    if after = [] then i ≤ n else i < n

/-- The error of a segment that addresses nothing in a value, after those before it. -/
inductive Fault (before : List String) (s : String) (after : List String) :
    Value → TagError → Prop
  | notTraversable {v : Value} (hkind : v.kind ≠ .record) (hextent : v.extent? after = none) :
    Fault before s after v
      (.notTraversable "setproperty" (String.intercalate "." (before ++ [s])) v.kind)
  | notNumeric {v : Value} {n : Nat} (hextent : v.extent? after = some n)
    (hread : Text.readIndex? s.toList = none) :
    Fault before s after v (.notNumeric "setproperty" (String.intercalate "." (before ++ [s])) s)
  | outOfRange {v : Value} {n i : Nat} (hextent : v.extent? after = some n)
    (hread : Text.readIndex? s.toList = some i) (hi : if after = [] then n < i else n ≤ i) :
    Fault before s after v
      (.outOfRange "setproperty" (String.intercalate "." (before ++ [s])) i n)
  | missingKey {es : List (String × Value)} (hafter : after ≠ []) (hkey : s ∉ Assoc.keys es) :
    Fault before s after (.record es)
      (.missingKey "setproperty" (String.intercalate "." (before ++ [s])) s)

/-- Every segment of a path addresses something in the value that those before it lead to. -/
def Addressable (path : List String) (v : Value) : Prop :=
  ∀ before s after, path = before ++ s :: after →
    ∃ c, v.along? before = some c ∧ c.Addresses s after

/-- The error of the first segment of a path that addresses nothing: those before it lead to a
value. -/
def FirstFault (path : List String) (v : Value) (e : TagError) : Prop :=
  ∃ before s after c, path = before ++ s :: after ∧ v.along? before = some c ∧
    c.Fault before s after e

variable {v w x : Value} {before walked after rest : List String} {s s' : String} {e : TagError}

theorem kind_ne_of_extent? {n : Nat} (h : v.extent? after = some n) : v.kind ≠ .record := by
  intro hkind
  cases v <;> cases hkind
  cases h

theorem addresses_iff (hkind : v.kind ≠ .record) : v.Addresses s after ↔
    ∃ i n, Text.readIndex? s.toList = some i ∧ v.extent? after = some n ∧
      if after = [] then i ≤ n else i < n := by
  cases v with
  | record es => exact absurd rfl hkind
  | _ => exact Iff.rfl

theorem Addresses.extent?_ne (h : v.Addresses s after) (hkind : v.kind ≠ .record) :
    v.extent? after ≠ none := by
  obtain ⟨i, n, -, hn, -⟩ := (addresses_iff hkind).mp h
  exact Option.ne_none_iff_exists'.mpr ⟨n, hn⟩

theorem Addresses.index {n : Nat} (h : v.Addresses s after) (hn : v.extent? after = some n) :
    ∃ i, Text.readIndex? s.toList = some i ∧ if after = [] then i ≤ n else i < n := by
  obtain ⟨i, n', hread, hn', hi⟩ := (addresses_iff (kind_ne_of_extent? hn)).mp h
  cases hn.symm.trans hn'
  exact ⟨i, hread, hi⟩

theorem Fault.not_addresses (h : v.Fault before s after e) : ¬v.Addresses s after := by
  intro haddresses
  cases h with
  | missingKey hafter hkey => exact haddresses.elim hafter hkey
  | notTraversable hkind hextent => exact haddresses.extent?_ne hkind hextent
  | notNumeric hextent hread =>
    obtain ⟨i, hi, -⟩ := haddresses.index hextent
    rw [hread] at hi
    cases hi
  | outOfRange hextent hread hlt =>
    obtain ⟨i, hi, hle⟩ := haddresses.index hextent
    cases hread.symm.trans hi
    split at hle
    · next hafter =>
      rw [if_pos hafter] at hlt
      omega
    · next hafter =>
      rw [if_neg hafter] at hlt
      omega

theorem exists_fault (before : List String) (h : ¬v.Addresses s after) :
    ∃ e, v.Fault before s after e := by
  by_cases hkind : v.kind = .record
  · cases v <;> cases hkind
    obtain ⟨hafter, hkey⟩ := not_or.mp h
    exact ⟨_, .missingKey hafter hkey⟩
  rw [addresses_iff hkind] at h
  cases hextent : v.extent? after with
  | none => exact ⟨_, .notTraversable hkind hextent⟩
  | some n =>
    cases hread : Text.readIndex? s.toList with
    | none => exact ⟨_, .notNumeric hextent hread⟩
    | some i =>
      refine ⟨_, .outOfRange hextent hread ?_⟩
      have hnot : ¬if after = [] then i ≤ n else i < n := fun hi => h ⟨i, n, hread, hextent, hi⟩
      split <;> simp_all

/-! ## Values that segments lead to -/

/-- Inside of a path, to address something is to lead to a value. -/
theorem exists_child_iff (hafter : after ≠ []) :
    (∃ x, v.child? s = some x) ↔ v.Addresses s after := by
  cases v with
  | record es =>
    rw [Addresses, or_iff_right hafter]
    exact Option.ne_none_iff_exists'.symm.trans (Assoc.get?_eq_none_iff.not.trans not_not)
  | array items | element e | nodes ns =>
    cases hread : Text.readIndex? s.toList with
    | none => simp [child?, Addresses, extent?, hread]
    | some i => simp [child?, Addresses, extent?, hread, hafter, ← Option.isSome_iff_exists]
  | _ => simp [child?, Addresses, extent?, hafter]

theorem FirstFault.not_addressable {path : List String} (h : v.FirstFault path e) :
    ¬v.Addressable path := by
  obtain ⟨before, s, after, c, hpath, hc, hfault⟩ := h
  intro haddressable
  obtain ⟨c', hc', haddresses⟩ := haddressable before s after hpath
  cases hc.symm.trans hc'
  exact hfault.not_addresses haddresses

theorem Addressable.cons (h : v.Addresses s after)
    (hx : ∀ x, v.child? s = some x → x.Addressable after) : v.Addressable (s :: after) := by
  intro before t rest hsplit
  cases before with
  | nil =>
    cases hsplit
    exact ⟨v, rfl, h⟩
  | cons t' before =>
    cases hsplit
    obtain ⟨x, hchild⟩ := (exists_child_iff (by simp)).mpr h
    obtain ⟨c, hc, haddresses⟩ := hx x hchild before t rest rfl
    refine ⟨c, ?_, haddresses⟩
    rw [along?, hchild]
    exact hc

theorem addressable_or_firstFault (path : List String) (v : Value) :
    v.Addressable path ∨ ∃ e, v.FirstFault path e := by
  induction path generalizing v with
  | nil => exact .inl fun before s after hsplit => by simp at hsplit
  | cons s after ih =>
    by_cases h : v.Addresses s after
    · cases hx : v.child? s with
      | none => exact .inl (.cons h fun x hchild => by rw [hx] at hchild; cases hchild)
      | some x =>
        rcases ih x with haddressable | ⟨e, before, t, rest, c, rfl, hc, hfault⟩
        · refine .inl (.cons h fun x' hchild => ?_)
          cases hx.symm.trans hchild
          exact haddressable
        · obtain ⟨e', hfault'⟩ := exists_fault (s :: before) hfault.not_addresses
          refine .inr ⟨e', s :: before, t, rest, c, rfl, ?_, hfault'⟩
          rw [along?, hx]
          exact hc
    · obtain ⟨e, hfault⟩ := exists_fault [] h
      exact .inr ⟨e, [], s, after, v, rfl, rfl, hfault⟩

/-! ## One segment -/

theorem indexAt_of_none {n : Nat} (hread : Text.readIndex? s.toList = none) :
    indexAt walked s n = .error (.notNumeric propertyTag (walkedPath walked s) s) := by
  rw [indexAt, hread]

theorem indexAt_of_lt {n i : Nat} (hread : Text.readIndex? s.toList = some i) (hi : n < i) :
    indexAt walked s n = .error (.outOfRange propertyTag (walkedPath walked s) i n) := by
  simp only [indexAt, hread, if_pos hi]

theorem itemAt_of_none {α : Type} {items : List α} (hread : Text.readIndex? s.toList = none) :
    itemAt walked s items = .error (.notNumeric propertyTag (walkedPath walked s) s) := by
  rw [itemAt, indexAt_of_none hread]
  rfl

theorem itemAt_of_le {α : Type} {items : List α} {i : Nat}
    (hread : Text.readIndex? s.toList = some i) (hi : items.length ≤ i) :
    itemAt walked s items =
      .error (.outOfRange propertyTag (walkedPath walked s) i items.length) := by
  rcases Nat.lt_or_eq_of_le hi with hlt | rfl
  · rw [itemAt, indexAt_of_lt hread hlt]
    rfl
  · rw [itemAt, indexAt_eq_ok_iff.mpr ⟨hread, le_refl _⟩]
    simp only [bind, Except.bind, List.getElem?_eq_none (le_refl _)]
    rfl

theorem setLast_of_fault (w : Value) (h : v.Fault walked s [] e) :
    setLast w walked s v = .error e := by
  cases h with
  | missingKey hafter hkey => exact absurd rfl hafter
  | notTraversable hkind hextent =>
    cases v with
    | record es => exact absurd rfl hkind
    | array items | element e | nodes ns | string t | text t => cases hextent
    | _ => rfl
  | notNumeric hextent hread =>
    cases v with
    | array items | element e | nodes ns | string t | text t =>
      rw [setLast, indexAt_of_none hread]
      rfl
    | _ => cases hextent
  | outOfRange hextent hread hi =>
    rw [if_pos rfl] at hi
    cases v with
    | array items | element e | nodes ns | string t | text t =>
      cases hextent
      rw [setLast, indexAt_of_lt hread hi]
      rfl
    | _ => cases hextent

theorem setAlong_of_fault (w : Value) (h : v.Fault walked s (s' :: rest) e) :
    setAlong w walked (s :: s' :: rest) v = .error e := by
  cases h with
  | missingKey hafter hkey =>
    simp only [setAlong, Assoc.get?_eq_none_iff.mpr hkey]
    rfl
  | notTraversable hkind hextent =>
    cases v with
    | record es => exact absurd rfl hkind
    | array items | element e | nodes ns => cases hextent
    | _ => rfl
  | notNumeric hextent hread =>
    cases v with
    | array items | element e | nodes ns =>
      simp only [setAlong, itemAt_of_none hread]
      rfl
    | _ => cases hextent
  | outOfRange hextent hread hi =>
    rw [if_neg (List.cons_ne_nil _ _)] at hi
    cases v with
    | array items | element e | nodes ns =>
      cases hextent
      simp only [setAlong, itemAt_of_le hread hi]
      rfl
    | _ => cases hextent

theorem setLast_of_addresses (w : Value) (walked : List String) (h : v.Addresses s []) :
    ∃ r, setLast w walked s v = .ok r := by
  cases v with
  | record es => exact ⟨_, rfl⟩
  | array items | element e | nodes ns | string t | text t =>
    obtain ⟨i, hread, hi⟩ := h.index rfl
    rw [setLast, indexAt_eq_ok_iff.mpr ⟨hread, hi⟩]
    exact ⟨_, rfl⟩
  | _ => exact absurd rfl (h.extent?_ne (by simp [kind]))

/-- Where a segment leads to a value, setting goes on there and puts the outcome in its place. -/
theorem exists_setAlong_eq_map (w : Value) (walked : List String) (s' : String)
    (rest : List String) (hx : v.child? s = some x) :
    ∃ f, setAlong w walked (s :: s' :: rest) v =
      (setAlong w (walked ++ [s]) (s' :: rest) x).map f := by
  cases v with
  | record es =>
    refine ⟨fun x' => .record (Assoc.insert s x' es), ?_⟩
    simp only [setAlong, show Assoc.get? s es = some x from hx]
    cases setAlong w (walked ++ [s]) (s' :: rest) x <;> rfl
  | array items =>
    obtain ⟨i, hi, hx⟩ := Option.bind_eq_some_iff.mp hx
    refine ⟨fun x' => .array (splice items i [x']), ?_⟩
    simp only [setAlong, itemAt_eq_ok_iff.mpr ⟨hi, hx⟩, bind, Except.bind]
    cases setAlong w (walked ++ [s]) (s' :: rest) x <;> rfl
  | element e =>
    obtain ⟨i, hi, hx⟩ := Option.bind_eq_some_iff.mp hx
    obtain ⟨n, hn, rfl⟩ := Option.map_eq_some_iff.mp hx
    refine ⟨fun x' => .element { e with children := splice e.children i x'.nodesOf }, ?_⟩
    simp only [setAlong, itemAt_eq_ok_iff.mpr ⟨hi, hn⟩, bind, Except.bind]
    cases setAlong w (walked ++ [s]) (s' :: rest) (ofNode n) <;> rfl
  | nodes ns =>
    obtain ⟨i, hi, hx⟩ := Option.bind_eq_some_iff.mp hx
    obtain ⟨n, hn, rfl⟩ := Option.map_eq_some_iff.mp hx
    refine ⟨fun x' => .nodes (splice ns i x'.nodesOf), ?_⟩
    simp only [setAlong, itemAt_eq_ok_iff.mpr ⟨hi, hn⟩, bind, Except.bind]
    cases setAlong w (walked ++ [s]) (s' :: rest) (ofNode n) <;> rfl
  | _ => cases hx

/-! ## All segments -/

theorem Addressable.child {path : List String} (h : v.Addressable (s :: path))
    (hx : v.child? s = some x) : x.Addressable path := by
  rintro before t after rfl
  obtain ⟨c, hc, haddresses⟩ := h (s :: before) t after rfl
  rw [along?, hx] at hc
  exact ⟨c, hc, haddresses⟩

theorem exists_setAlong_of_addressable (w : Value) (walked : List String) {path : List String}
    (h : v.Addressable path) : ∃ r, setAlong w walked path v = .ok r := by
  induction path generalizing v walked with
  | nil => exact ⟨w, rfl⟩
  | cons s rest ih =>
    obtain ⟨c, hc, haddresses⟩ := h [] s rest rfl
    cases hc
    cases rest with
    | nil => exact setLast_of_addresses w walked haddresses
    | cons s' rest =>
      obtain ⟨x, hx⟩ := (exists_child_iff (List.cons_ne_nil _ _)).mpr haddresses
      obtain ⟨x', hx'⟩ := ih (walked ++ [s]) (h.child hx)
      obtain ⟨f, hf⟩ := exists_setAlong_eq_map w walked s' rest hx
      exact ⟨f x', by rw [hf, hx']; rfl⟩

theorem setAlong_of_along? (w : Value) {c : Value} (hc : v.along? before = some c)
    (h : c.Fault (walked ++ before) s after e) :
    setAlong w walked (before ++ s :: after) v = .error e := by
  induction before generalizing v walked with
  | nil =>
    cases hc
    rw [List.append_nil] at h
    cases after with
    | nil => exact setLast_of_fault w h
    | cons s' rest => exact setAlong_of_fault w h
  | cons t before ih =>
    obtain ⟨x, hx, hc⟩ := Option.bind_eq_some_iff.mp hc
    have hrest : setAlong w (walked ++ [t]) (before ++ s :: after) x = .error e :=
      ih hc (by rwa [List.append_assoc, List.singleton_append])
    obtain ⟨s', rest, hsplit⟩ := List.exists_cons_of_ne_nil
      (List.append_ne_nil_of_right_ne_nil before (List.cons_ne_nil s after))
    rw [hsplit] at hrest
    rw [List.cons_append, hsplit]
    obtain ⟨f, hf⟩ := exists_setAlong_eq_map w walked s' rest hx
    rw [hf, hrest]
    rfl

theorem setProperty_of_firstFault {path : List String} (w : Value) (h : v.FirstFault path e) :
    v.setProperty path w = .error e := by
  obtain ⟨before, s, after, c, rfl, hc, hfault⟩ := h
  exact setAlong_of_along? w hc hfault

theorem exists_setProperty_iff {path : List String} :
    (∃ r, v.setProperty path w = .ok r) ↔ v.Addressable path := by
  constructor
  · rintro ⟨r, hr⟩
    refine (addressable_or_firstFault path v).resolve_right fun ⟨e, he⟩ => ?_
    rw [setProperty_of_firstFault w he] at hr
    cases hr
  · intro h
    exact exists_setAlong_of_addressable w [] h

theorem setProperty_eq_error_iff {path : List String} :
    v.setProperty path w = .error e ↔ v.FirstFault path e := by
  refine ⟨fun h => ?_, setProperty_of_firstFault w⟩
  rcases addressable_or_firstFault path v with haddressable | ⟨e', he'⟩
  · obtain ⟨r, hr⟩ := exists_setProperty_iff.mpr haddressable
    rw [h] at hr
    cases hr
  · rw [setProperty_of_firstFault w he'] at h
    cases h
    exact he'

end Value

/-! ## The tag -/

namespace SmartTag

open Value

variable {arg : Value} {path : String}

/-- A path can be set if and only if each of its segments addresses something. Otherwise its first
segment that does not is reported, the same for every new value; and no access is out of bounds. -/
theorem run_setProperty_addressable (harg : arg = .string path ∨ arg = .text path)
    (hpath : path ≠ "") (main w : Value) :
    ((∃ r, SmartTag.setProperty.run main [arg, w] = .ok r) ↔
      main.Addressable (Text.segmentStrings '.' path)) ∧
    (∀ e, SmartTag.setProperty.run main [arg, w] = .error e ↔
      main.FirstFault (Text.segmentStrings '.' path) e) ∧
    (∀ w' e, SmartTag.setProperty.run main [arg, w] = .error e ↔
      SmartTag.setProperty.run main [arg, w'] = .error e) ∧
    setChecked (Text.segmentStrings '.' path) w (Text.segmentStrings '.' path).length main =
      inside (SmartTag.setProperty.run main [arg, w]) := by
  have hsegments : Text.segmentStrings '.' path ≠ [] := by
    simpa [Text.segmentStrings] using Text.segments_ne_nil '.' path.toList
  have hrun := run_setProperty_of_ne harg hpath main
  refine ⟨?_, fun e => ?_, fun w' e => ?_, ?_⟩
  · rw [hrun, exists_setProperty_iff]
  · rw [hrun, setProperty_eq_error_iff]
  · rw [hrun, hrun, setProperty_eq_error_iff, setProperty_eq_error_iff]
  · rw [hrun]
    exact setChecked_eq w [] _ hsegments main

/-- A record with an element around a text of three characters. -/
def worded : Value := .record [("p", .element { tag := "p", children := [.text "cat"] })]

theorem run_setProperty_addressable_worded :
    "p.0.+4" ≠ "" ∧
      worded.FirstFault ["p", "0", "+4"] (.outOfRange "setproperty" "p.0.+4" 4 3) ∧
      (∀ w', SmartTag.setProperty.run worded [.text "p.0.+4", w'] =
        .error (.outOfRange "setproperty" "p.0.+4" 4 3)) ∧
      ¬worded.Addressable ["p", "0", "+4"] := by
  have hpath : "p.0.+4" ≠ "" := by decide
  have hsegments : Text.segmentStrings '.' "p.0.+4" = ["p", "0", "+4"] := by decide
  have hrun : SmartTag.setProperty.run worded [.text "p.0.+4", .null] =
      .error (.outOfRange "setproperty" "p.0.+4" 4 3) := by rfl
  obtain ⟨-, herror, hsame, -⟩ := run_setProperty_addressable (.inr rfl) hpath worded .null
  rw [hsegments] at herror
  have hfault := (herror _).mp hrun
  exact ⟨hpath, hfault, fun w' => (hsame w' _).mp hrun, hfault.not_addressable⟩

end SmartTag
end MarkupEval
