import MarkupEval.Proofs.Tree.Paths

/-!
# Path texts

A path text is cut at its slashes into the texts of its keys (`Path.segments_text`), provided that
no key has a slash in it. A segment leads to the position that it spells, if that is there, and to
the name otherwise (`follow_eq_some_iff`). So the text of a path leads back to its node exactly if no
name on the way has a slash or spells the position of another child
(`resolve_text_iff_readable`).
-/

namespace MarkupEval

namespace Path

variable {p : Path}

theorem toList_text (h : p ≠ []) :
    (text p).toList = (p.map fun k => k.text.toList).flatMap ('/' :: ·) := by
  cases p with
  | nil => exact absurd rfl h
  | cons k p => simp [text, String.toList_join, List.flatMap_map, String.toList_append]

theorem notMem_of_mem_segments {s text : String} (h : s ∈ segments text) : '/' ∉ s.toList := by
  obtain ⟨cs, hcs, rfl⟩ := List.mem_map.mp (List.mem_filter.mp h).1
  rw [String.toList_ofList]
  exact Text.notMem_of_mem_segments hcs

/-- The text of a path is cut into the texts of its keys. -/
theorem segments_text (h : ∀ k ∈ p, '/' ∉ k.text.toList ∧ k.text ≠ "") :
    segments (text p) = p.map Key.text := by
  by_cases hp : p = []
  · subst hp
    decide +kernel
  have hkeys : ∀ s ∈ p.map fun k => k.text.toList, '/' ∉ s := by
    simpa using fun k hk => (h k hk).1
  have hnonempty : ∀ s ∈ p.map Key.text, (!s.isEmpty) = true := by
    simpa using fun k hk => (h k hk).2
  rw [segments, Text.segmentStrings, toList_text hp, Text.segments_flatMap hkeys, List.map_cons,
    List.map_map, List.filter_cons_of_neg (by simp)]
  simpa [Function.comp_def] using hnonempty

end Path

namespace Tree

/-! ## Following segments -/

variable {t c : Tree} {p : Path} {k : Key} {s : String}

/-- The name is not the spelling of a position that is there. -/
def SpellsNoPosition (t : Tree) (s : String) : Prop :=
  ∀ i, Text.readIndex? s.toList = some i → t.child? (.position i) = none

/-- A segment leads to the position that it spells, or else to the name. -/
theorem follow_eq_some_iff : t.follow s = some (k, c) ↔ t.child? k = some c ∧
    ((∃ i, k = .position i ∧ Text.readIndex? s.toList = some i) ∨
      k = .name s ∧ t.SpellsNoPosition s) := by
  unfold follow Path.candidates SpellsNoPosition
  cases hi : Text.readIndex? s.toList with
  | none =>
    simp only [List.findSome?_singleton, Option.map_eq_some_iff, Prod.mk.injEq]
    grind
  | some i =>
    simp only [List.findSome?_cons, List.findSome?_nil]
    cases hc : t.child? (.position i) with
    | none => cases hn : t.child? (.name s) <;> grind
    | some b => grind

theorem resolveFrom_append (t : Tree) (p : Path) (segments : List String) :
    resolveFrom p t segments = (resolveFrom [] t segments).map fun x => (p ++ x.1, x.2) := by
  induction segments generalizing t p with
  | nil => simp [resolveFrom]
  | cons s ss ih =>
    simp only [resolveFrom, List.nil_append]
    cases t.follow s with
    | none => rfl
    | some x => simp [ih x.2 (p ++ [x.1]), ih x.2 [x.1], Function.comp_def]

theorem resolveFrom_cons_eq_some_iff {ss : List String} :
    resolveFrom [] t (s :: ss) = some (p, c) ↔
      ∃ k b q, t.follow s = some (k, b) ∧ resolveFrom [] b ss = some (q, c) ∧ p = k :: q := by
  rw [resolveFrom]
  cases t.follow s with
  | none => simp
  | some x =>
    obtain ⟨k, b⟩ := x
    dsimp only
    rw [resolveFrom_append, Option.map_eq_some_iff]
    constructor
    · rintro ⟨⟨q, c'⟩, hrest, heq⟩
      cases heq
      exact ⟨k, b, q, rfl, hrest, rfl⟩
    · rintro ⟨k', b', q, hx, hrest, rfl⟩
      cases hx
      exact ⟨(q, c), hrest, rfl⟩

/-! ## Readable paths -/

/-- Every name on a path can be read from a text: it has no slash and does not spell a position that
is there beside it. -/
def Readable (t : Tree) (p : Path) : Prop :=
  ∀ q s u, q ++ [.name s] <+: p → t.at? q = some u → '/' ∉ s.toList ∧ u.SpellsNoPosition s

theorem readable_cons (hc : t.child? k = some c) : t.Readable (k :: p) ↔
    (∀ s, k = .name s → '/' ∉ s.toList ∧ t.SpellsNoPosition s) ∧ c.Readable p := by
  constructor
  · intro h
    refine ⟨fun s hk => h [] s t (by simp [hk]) rfl, fun q s u hq hu => ?_⟩
    refine h (k :: q) s u (by simpa using hq) ?_
    simpa [at?, hc] using hu
  · rintro ⟨hhead, htail⟩ q s u hq hu
    cases q with
    | nil =>
      cases hu
      exact hhead s (List.cons_prefix_cons.mp hq).1.symm
    | cons k' q =>
      obtain ⟨rfl, hrest⟩ := List.cons_prefix_cons.mp hq
      exact htail q s u hrest (by simpa [at?, hc] using hu)

theorem Readable.notMem (h : t.Readable p) (hc : t.at? p = some c) (hs : .name s ∈ p) :
    '/' ∉ s.toList := by
  induction p generalizing t with
  | nil => cases hs
  | cons k p ih =>
    obtain ⟨b, hb, hc⟩ := Option.bind_eq_some_iff.mp hc
    obtain ⟨hname, htail⟩ := (readable_cons hb).mp h
    rcases List.mem_cons.mp hs with rfl | hs
    · exact (hname s rfl).1
    · exact ih htail hc hs

/-- The texts of the keys of a readable path lead along the path. -/
theorem resolveFrom_text (hindex : ∀ i, .position i ∈ p → i < Text.indexBound)
    (hread : t.Readable p) (h : t.at? p = some c) :
    resolveFrom [] t (p.map Key.text) = some (p, c) := by
  induction p generalizing t with
  | nil => simpa [resolveFrom, at?] using h
  | cons k p ih =>
    obtain ⟨b, hb, hc⟩ := Option.bind_eq_some_iff.mp h
    obtain ⟨hname, htail⟩ := (readable_cons hb).mp hread
    have hrest := ih (fun i hi => hindex i (List.mem_cons_of_mem _ hi)) htail hc
    refine resolveFrom_cons_eq_some_iff.mpr ⟨k, b, p, ?_, hrest, rfl⟩
    rw [follow_eq_some_iff]
    refine ⟨hb, ?_⟩
    cases k with
    | position i =>
      have hi : i < Text.indexBound := hindex i (List.mem_cons_self ..)
      refine .inl ⟨i, rfl, ?_⟩
      simpa [Key.text] using Text.readIndex?_toDigits hi
    | name s => exact .inr ⟨rfl, (hname s rfl).2⟩

/-- Where segments lead is readable. -/
theorem readable_of_resolveFrom {ss : List String} (hss : ∀ s ∈ ss, '/' ∉ s.toList)
    (h : resolveFrom [] t ss = some (p, c)) : t.Readable p := by
  induction ss generalizing t p with
  | nil =>
    cases h
    intro q s u hq
    simp at hq
  | cons s ss ih =>
    rw [List.forall_mem_cons] at hss
    obtain ⟨k, b, q, hk, hrest, rfl⟩ := resolveFrom_cons_eq_some_iff.mp h
    obtain ⟨hb, hk⟩ := follow_eq_some_iff.mp hk
    refine (readable_cons hb).mpr ⟨?_, ih hss.2 hrest⟩
    rintro s' rfl
    rcases hk with ⟨i, hi, -⟩ | ⟨hs, hspells⟩
    · cases hi
    · cases hs
      exact ⟨hss.1, hspells⟩

/-! ## Names of a wrapped host -/

/-- The names that children are known by are the names that they declare. -/
theorem name_of_mem_arrange {ts : List Tree} (h : (.name s, c) ∈ arrange ts) :
    c.name = some s := by
  rcases List.mem_append.mp h with h | h
  · obtain ⟨i, hi, heq⟩ := List.mem_mapIdx.mp h
    cases heq
  · obtain ⟨t, ht, hs⟩ := List.mem_filterMap.mp (Assoc.mem_of_mem_ofPairs h)
    obtain ⟨s', hs', heq⟩ := Option.map_eq_some_iff.mp hs
    cases heq
    exact hs'

theorem ne_empty_of_name_mem {r : Registry} {o : Options} {n : Node}
    (h : (ofHost r o n).at? p = some t) (hs : .name s ∈ p) : s ≠ "" := by
  induction p generalizing n with
  | nil => cases hs
  | cons k p ih =>
    obtain ⟨c, hc, ht⟩ := Option.bind_eq_some_iff.mp h
    have hmem := Assoc.mem_of_get? hc
    obtain ⟨m, -, rfl⟩ := exists_ofHost_of_mem_subtrees hmem
    rcases List.mem_cons.mp hs with rfl | hs
    · cases n with
      | text => cases hmem
      | element tag attrs children =>
        exact ne_empty_of_declaredName ((name_ofHost ..).symm.trans (name_of_mem_arrange hmem))
    · exact ih ht hs

/-! ## Resolving the text of a path -/

theorem text_position_readable (i : Nat) :
    '/' ∉ (Key.position i).text.toList ∧ (Key.position i).text ≠ "" := by
  have hdigits : (Key.position i).text.toList = Nat.toDigits 10 i := by simp [Key.text]
  constructor
  · rw [hdigits]
    exact fun hc => absurd (Text.isDigit_of_mem_toDigits hc) (by decide)
  · intro hempty
    rw [hempty] at hdigits
    exact Nat.toDigits_ne_nil hdigits.symm

theorem resolve_text_of_readable {r : Registry} {o : Options} {n : Node}
    (h : (ofHost r o n).at? p = some t) (hindex : ∀ i, .position i ∈ p → i < Text.indexBound)
    (hread : (ofHost r o n).Readable p) : (ofHost r o n).resolve (Path.text p) = some (p, t) := by
  have hkeys : ∀ k ∈ p, '/' ∉ k.text.toList ∧ k.text ≠ "" := by
    intro k hk
    cases k with
    | position i => exact text_position_readable i
    | name s => exact ⟨hread.notMem h hk, ne_empty_of_name_mem h hk⟩
  rw [resolve, Path.segments_text hkeys]
  exact resolveFrom_text hindex hread h

/-- The text of the path of a node leads back to the node exactly if the path is readable, and two
nodes whose paths are readable have different path texts. The positions on a path are indexes into
lists of children, so they are below the bound of indexes. -/
theorem resolve_text_iff_readable (r : Registry) (o : Options) (host : Node) {p : Path} {t : Tree}
    (ht : (ofHost r o host).at? p = some t)
    (hindex : ∀ i, .position i ∈ p → i < Text.indexBound) :
    let root := ofHost r o host
    (root.resolve (Path.text p) = some (p, t) ↔ root.Readable p) ∧
      ∀ q u, root.at? q = some u → (∀ i, .position i ∈ q → i < Text.indexBound) →
        root.Readable p → root.Readable q → Path.text p = Path.text q → p = q := by
  intro root
  refine ⟨⟨fun h => ?_, resolve_text_of_readable ht hindex⟩, fun q u hu hindex' hp hq heq => ?_⟩
  · exact readable_of_resolveFrom (fun s => Path.notMem_of_mem_segments) h
  · have hresolve := resolve_text_of_readable ht hindex hp
    rw [heq, resolve_text_of_readable hu hindex' hq] at hresolve
    exact (congrArg Prod.fst (Option.some.inj hresolve)).symm

/-- Children under names of digits, one of which spells a position. -/
def digitsHost : Node :=
  .element "record" ∅
    [.element "array" (.ofPairs [("_name", "07")])
      [.element "string" ∅ [.text "a"], .element "string" ∅ [.text "b"]],
     .element "number" (.ofPairs [("_name", "+0")]) [.text "4"],
     .element "number" ∅ [.text "5"]]

theorem resolve_text_iff_readable_digits :
    let root := ofHost Registry.builtins {} digitsHost
    let p : Path := [.name "07", .position 1]
    ∃ t, root.at? p = some t ∧ (∀ i, .position i ∈ p → i < Text.indexBound) ∧
      (root.resolve (Path.text p) = some (p, t) ↔ root.Readable p) ∧
      ∀ q u, root.at? q = some u → (∀ i, .position i ∈ q → i < Text.indexBound) →
        root.Readable p → root.Readable q → Path.text p = Path.text q → p = q := by
  intro root p
  have hsome : (root.at? p).isSome := by decide +kernel
  have hindex : ∀ i, .position i ∈ p → i < Text.indexBound := by
    simp [p, Text.indexBound]
  have ht := (Option.some_get hsome).symm
  exact ⟨_, ht, hindex, resolve_text_iff_readable Registry.builtins {} digitsHost ht hindex⟩

/-- The name `+0` spells the position 0, so its path text leads there. -/
example : ((ofHost Registry.builtins {} digitsHost).resolve (Path.text [.name "+0"])).map Prod.fst =
    some [.position 0] := by
  decide +kernel

end Tree
end MarkupEval
