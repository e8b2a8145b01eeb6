import MarkupEval.Proofs.Markup.Payload
import MarkupEval.Proofs.Number.Integers
import MarkupEval.Proofs.Value.Equality
import MarkupEval.Proofs.Value.Restored
import MarkupEval.Value.MarkedText

/-!
# Marked text reads back

What is read from the marked text of a value is the value with its transformers and its numbers that
are not finite replaced by null (`parse_stringify`), up to the order of record keys and the sign of
zero. A string that starts like a marker is told apart from markup by its own marker. The JSON of
the whole and the JSON of each piece of markup must not nest deeper than a reader goes.
-/

namespace MarkupEval

namespace Value

mutual

/-- The numbers of a value, at any depth of arrays and records. -/
def numbers : Value → List Binary64
  | .number x => [x]
  | .array items => itemNumbers items
  | .record entries => entryNumbers entries
  | _ => []

def itemNumbers : List Value → List Binary64
  | [] => []
  | v :: vs => numbers v ++ itemNumbers vs

def entryNumbers : List (String × Value) → List Binary64
  | [] => []
  | (_, v) :: es => numbers v ++ entryNumbers es

end

mutual

/-- A value with every transformer and every number that is not finite replaced by null. -/
def withNulls : Value → Value
  | .number x => if x.isFinite then .number x else .null
  | .array items => .array (itemsWithNulls items)
  | .record entries => .record (entriesWithNulls entries)
  | .transformer .. => .null
  | v => v

def itemsWithNulls : List Value → List Value
  | [] => []
  | v :: vs => withNulls v :: itemsWithNulls vs

def entriesWithNulls : List (String × Value) → List (String × Value)
  | [] => []
  | (k, v) :: es => (k, withNulls v) :: entriesWithNulls es

end

theorem entriesWithNulls_eq_map (es : List (String × Value)) :
    entriesWithNulls es = es.map fun e => (e.1, e.2.withNulls) := by
  induction es with
  | nil => rfl
  | cons e es ih => rw [entriesWithNulls, ih, List.map_cons]

end Value

namespace MarkedText

open Value

mutual

/-- The JSON of each element and each list of nodes in a value. -/
def payloads : Value → List Json
  | .element e => [(ElementOutline.ofElement e).toJson]
  | .nodes ns => [.list (Outline.toJsonList (Outline.ofNodes ns))]
  | .array items => itemPayloads items
  | .record entries => entryPayloads entries
  | _ => []

def itemPayloads : List Value → List Json
  | [] => []
  | v :: vs => payloads v ++ itemPayloads vs

def entryPayloads : List (String × Value) → List Json
  | [] => []
  | (_, v) :: es => payloads v ++ entryPayloads es

end

mutual

/-- What is read back: records by ascending key, integers as the number nearest to them. -/
def readBack : Value → Value
  | .number x =>
    match x.safeInteger? with
    | some n => .number (.ofInt n)
    | none => if x.isFinite then .number x else .null
  | .array items => .array (readBackItems items)
  | .record entries => .record (Sorted.ofPairs (readBackEntries entries))
  | .transformer .. => .null
  | v => v

def readBackItems : List Value → List Value
  | [] => []
  | v :: vs => readBack v :: readBackItems vs

def readBackEntries : List (String × Value) → List (String × Value)
  | [] => []
  | (k, v) :: es => (k, readBack v) :: readBackEntries es

end

theorem encodeItems_eq_map (vs : List Value) : encodeItems vs = vs.map encode := by
  induction vs with
  | nil => rfl
  | cons v vs ih => rw [encodeItems, ih, List.map_cons]

theorem encodeEntries_eq_map (es : List (String × Value)) :
    encodeEntries es = es.map fun e => (e.1, encode e.2) := by
  induction es with
  | nil => rfl
  | cons e es ih => rw [encodeEntries, ih, List.map_cons]

theorem readBackEntries_eq_map (es : List (String × Value)) :
    readBackEntries es = es.map fun e => (e.1, readBack e.2) := by
  induction es with
  | nil => rfl
  | cons e es ih => rw [readBackEntries, ih, List.map_cons]

/-! ## Markers -/

theorem afterPrefix?_append (p cs : List Char) : afterPrefix? p (p ++ cs) = some cs := by
  induction p with
  | nil => rfl
  | cons c p ih => rw [List.cons_append, afterPrefix?, if_pos rfl, ih]

theorem eq_append_of_afterPrefix? {p cs r : List Char} (h : afterPrefix? p cs = some r) :
    cs = p ++ r := by
  induction p generalizing cs with
  | nil => exact Option.some.inj h
  | cons c p ih =>
    cases cs with
    | nil => cases h
    | cons d cs =>
      rw [afterPrefix?] at h
      split at h
      · next hc => rw [ih h, hc, List.cons_append]
      · cases h

/-- Prefixes that differ in a place that both have exclude each other. -/
theorem afterPrefix?_of_differ {p q : List Char} (h : (p.zip q).any (fun x => x.1 != x.2) = true)
    (cs : List Char) : afterPrefix? p (q ++ cs) = none := by
  induction p generalizing q with
  | nil => cases h
  | cons c p ih =>
    cases q with
    | nil => cases h
    | cons d q =>
      rw [List.cons_append, afterPrefix?]
      split
      · next hc =>
        subst hc
        rw [List.zip_cons_cons, List.any_cons, bne_self_eq_false, Bool.false_or] at h
        exact ih h
      · rfl

theorem afterPrefix?_eq_none {p cs : List Char} (h : markerStart.isPrefixOf cs = false)
    (hp : markerStart <+: p) : afterPrefix? p cs = none := by
  cases hr : afterPrefix? p cs with
  | none => rfl
  | some r =>
    have hprefix : markerStart <+: cs :=
      eq_append_of_afterPrefix? hr ▸ hp.trans (List.prefix_append p r)
    rw [List.isPrefixOf_iff_prefix.mpr hprefix] at h
    cases h

theorem decodeString_marked_text (s : String) :
    decodeString (String.ofList (textMarker ++ s.toList)) = .ok (.text s) := by
  rw [decodeString, String.toList_ofList, afterPrefix?_append]
  simp

theorem decodeString_marked_element (cs : List Char) :
    decodeString (String.ofList (elementMarker ++ cs)) = decodeElement cs := by
  rw [decodeString, String.toList_ofList, afterPrefix?_of_differ (by decide), afterPrefix?_append]

theorem decodeString_marked_nodes (cs : List Char) :
    decodeString (String.ofList (nodesMarker ++ cs)) = decodeNodes cs := by
  rw [decodeString, String.toList_ofList, afterPrefix?_of_differ (by decide),
    afterPrefix?_of_differ (by decide), afterPrefix?_append]

theorem decodeString_marked_string (s : String) :
    decodeString (String.ofList (stringMarker ++ s.toList)) = .ok (.string s) := by
  rw [decodeString, String.toList_ofList, afterPrefix?_of_differ (by decide),
    afterPrefix?_of_differ (by decide), afterPrefix?_of_differ (by decide), afterPrefix?_append]
  simp

theorem decodeString_plain {s : String} (h : markerStart.isPrefixOf s.toList = false) :
    decodeString s = .ok (.string s) := by
  rw [decodeString, afterPrefix?_eq_none h (by decide), afterPrefix?_eq_none h (by decide),
    afterPrefix?_eq_none h (by decide), afterPrefix?_eq_none h (by decide)]

/-- A string is read as itself, whatever it starts with. -/
theorem decode_encodeString (s : String) : decode (encodeString s) = .ok (.string s) := by
  unfold encodeString
  split
  · exact decodeString_marked_string s
  · next h => exact decodeString_plain (Bool.eq_false_of_not_eq_true h)

/-! ## Markup -/

theorem decode_encodeElement {e : Element}
    (h : (ElementOutline.ofElement e).toJson.depth ≤ Json.maxDepth) :
    decode (encodeElement e) = .ok (.element e) := by
  have hread := Json.readAll_eq_ok (Outline.takes_element h)
  rw [encodeElement, marked, decode, decodeString_marked_element, decodeElement, hread]
  simp only [ElementOutline.toElement_ofElement]

theorem decode_encodeNodes {ns : List Node}
    (h : Json.depth (.list (Outline.toJsonList (Outline.ofNodes ns))) ≤ Json.maxDepth) :
    decode (encodeNodes ns) = .ok (.nodes ns) := by
  have hread := Json.readAll_eq_ok (Outline.takes_children h)
  rw [encodeNodes, marked, decode, decodeString_marked_nodes, decodeNodes, hread]
  simp only [Outline.toNodes_ofNodes]

/-! ## Values -/

/-- The encoding has its objects in the order in which they are read. -/
theorem sorted_object {es : List (String × Value)}
    (h : ∀ e ∈ es, (encode e.2).sorted = encode e.2) :
    (encode (.record es)).sorted = encode (.record es) := by
  have hmembers : Json.sortedMembers (Sorted.ofPairs (encodeEntries es)) =
      Sorted.ofPairs (encodeEntries es) := by
    have hmem : ∀ m ∈ Sorted.ofPairs (encodeEntries es), m.2.sorted = m.2 := by
      intro m hm
      have hm := Sorted.mem_of_mem_ofPairs hm
      rw [encodeEntries_eq_map] at hm
      obtain ⟨e, he, rfl⟩ := List.mem_map.mp hm
      exact h e he
    generalize Sorted.ofPairs (encodeEntries es) = ms at hmem
    induction ms with
    | nil => rfl
    | cons m ms ih =>
      rw [List.forall_mem_cons] at hmem
      rw [Json.sortedMembers, hmem.1, ih hmem.2]
  rw [encode, Json.sorted, hmembers, Sorted.ofPairs_eq_self (Sorted.ascending_ofPairs _)]

mutual

theorem sorted_encode : ∀ v : Value, (encode v).sorted = encode v
  | .array items => congrArg Json.list (sortedItems_encodeItems items)
  | .record es => sorted_object (sorted_encode_entries es)
  | .number x => by
    rw [encode, Binary64.toJson]
    split
    · rfl
    · split <;> rfl
  | .string s => by
    rw [encode, encodeString]
    split <;> rfl
  | .null | .boolean _ | .text _ | .element _ | .nodes _ | .transformer .. => rfl

theorem sortedItems_encodeItems : ∀ vs : List Value,
    Json.sortedItems (encodeItems vs) = encodeItems vs
  | [] => rfl
  | v :: vs => by rw [encodeItems, Json.sortedItems, sorted_encode v, sortedItems_encodeItems vs]

theorem sorted_encode_entries : ∀ es : List (String × Value), ∀ e ∈ es,
    (encode e.2).sorted = encode e.2
  | [], _, he => nomatch he
  | (_, v) :: es, e, he => by
    rcases List.mem_cons.mp he with rfl | he
    · exact sorted_encode v
    · exact sorted_encode_entries es e he

end

theorem decodeMembers_map {es : List (String × Value)}
    (h : ∀ e ∈ es, decode (encode e.2) = .ok (readBack e.2)) :
    decodeMembers (es.map fun e => (e.1, encode e.2)) =
      .ok (es.map fun e => (e.1, readBack e.2)) := by
  induction es with
  | nil => rfl
  | cons e es ih =>
    rw [List.forall_mem_cons] at h
    rw [List.map_cons, decodeMembers, h.1, ih h.2]
    rfl

theorem decode_record {es : List (String × Value)}
    (h : ∀ e ∈ es, decode (encode e.2) = .ok (readBack e.2)) :
    decode (encode (.record es)) = .ok (readBack (.record es)) := by
  have hmembers := decodeMembers_map fun e he => h e (Sorted.mem_of_mem_ofPairs he)
  rw [encode, encodeEntries_eq_map, Sorted.ofPairs_map, decode, hmembers, readBack,
    readBackEntries_eq_map, Sorted.ofPairs_map]
  rfl

mutual

/-- Decoding an encoding gives what is read back, if the markup in it can be read. -/
theorem decode_encode : ∀ {v : Value}, (∀ j ∈ payloads v, j.depth ≤ Json.maxDepth) →
    decode (encode v) = .ok (readBack v)
  | .array items, h => by
    rw [encode, decode, decodeItems_encodeItems h]
    rfl
  | .record es, h => decode_record (decode_encode_entries h)
  | .number x, _ => by
    rw [encode, readBack, Binary64.toJson]
    cases x.safeInteger? with
    | some n => rfl
    | none =>
      dsimp only
      split <;> rfl
  | .string s, _ => decode_encodeString s
  | .text s, _ => decodeString_marked_text s
  | .element _, h => decode_encodeElement (h _ (List.mem_singleton_self _))
  | .nodes _, h => decode_encodeNodes (h _ (List.mem_singleton_self _))
  | .null, _ | .boolean _, _ | .transformer .., _ => rfl

theorem decodeItems_encodeItems : ∀ {vs : List Value},
    (∀ j ∈ itemPayloads vs, j.depth ≤ Json.maxDepth) →
    decodeItems (encodeItems vs) = .ok (readBackItems vs)
  | [], _ => rfl
  | v :: vs, h => by
    rw [itemPayloads, List.forall_mem_append] at h
    rw [encodeItems, decodeItems, decode_encode h.1, decodeItems_encodeItems h.2]
    rfl

theorem decode_encode_entries : ∀ {es : List (String × Value)},
    (∀ j ∈ entryPayloads es, j.depth ≤ Json.maxDepth) →
    ∀ e ∈ es, decode (encode e.2) = .ok (readBack e.2)
  | [], _, _, he => nomatch he
  | (_, v) :: es, h, e, he => by
    rw [entryPayloads, List.forall_mem_append] at h
    rcases List.mem_cons.mp he with rfl | he
    · exact decode_encode h.1
    · exact decode_encode_entries h.2 e he

end

/-! ## The value that is read -/

/-- A number that is written as an integer or as null. -/
def Writable (x : Binary64) : Prop :=
  x.isFinite = true → ∃ n, x.toInt? = some n ∧ n.natAbs ≤ Binary64.maxSafeInteger

theorem exact_number {x : Binary64} (h : Writable x) : x.toJson.Exact := by
  unfold Binary64.toJson
  split
  · next n hn =>
    have hsize := (Binary64.safeInteger?_iff.mp hn).2
    have hsafe : (Binary64.maxSafeInteger : Int) ≤ Json.maxNegative := by decide
    have hmax : (Binary64.maxSafeInteger : Int) ≤ Json.maxSignificand := by decide
    constructor <;> omega
  · next hn =>
    split
    · next hfinite =>
      obtain ⟨n, hint, hsize⟩ := h hfinite
      rw [Binary64.safeInteger?_iff.mpr ⟨hint, hsize⟩] at hn
      cases hn
    · trivial

mutual

theorem exact_encode : ∀ {v : Value}, (∀ x ∈ v.numbers, Writable x) → (encode v).Exact
  | .array items, h => allExact_encodeItems h
  | .record es, h => by
    rw [encode, Json.Exact, Json.membersExact_iff]
    intro m hm
    have hm := Sorted.mem_of_mem_ofPairs hm
    rw [encodeEntries_eq_map] at hm
    obtain ⟨e, he, rfl⟩ := List.mem_map.mp hm
    exact exact_encode_entries h e he
  | .number _, h => exact_number (h _ (List.mem_singleton_self _))
  | .string s, _ => by
    rw [encode, encodeString]
    split <;> trivial
  | .null, _ | .boolean _, _ | .text _, _ | .element _, _ | .nodes _, _ | .transformer .., _ =>
    trivial

theorem allExact_encodeItems : ∀ {vs : List Value}, (∀ x ∈ itemNumbers vs, Writable x) →
    Json.AllExact (encodeItems vs)
  | [], _ => trivial
  | v :: vs, h => by
    rw [itemNumbers, List.forall_mem_append] at h
    exact ⟨exact_encode h.1, allExact_encodeItems h.2⟩

theorem exact_encode_entries : ∀ {es : List (String × Value)},
    (∀ x ∈ entryNumbers es, Writable x) → ∀ e ∈ es, (encode e.2).Exact
  | [], _, _, he => nomatch he
  | (_, v) :: es, h, e, he => by
    rw [entryNumbers, List.forall_mem_append] at h
    rcases List.mem_cons.mp he with rfl | he
    · exact exact_encode h.1
    · exact exact_encode_entries h.2 e he

end

theorem same_number (x : Binary64) :
    (readBack (.number x)).same (withNulls (.number x)) = true := by
  rw [readBack, withNulls]
  split
  · next n hn =>
    have hint := (Binary64.safeInteger?_iff.mp hn).1
    have hfinite : x.isFinite = true := decide_eq_true (Binary64.exists_of_toInt? hint).1
    rw [if_pos hfinite]
    exact Binary64.ofInt_same hint
  · split
    · exact Binary64.same_refl x
    · rfl

/-- Records of which each value is read back as an equal one. -/
theorem same_record {es : List (String × Value)} (hkeys : (Assoc.keys es).Nodup)
    (h : ∀ e ∈ es, (readBack e.2).same e.2.withNulls = true) :
    (readBack (.record es)).same (withNulls (.record es)) = true := by
  have hperm := Sorted.ofPairs_perm hkeys
  rw [readBack, withNulls, same, readBackEntries_eq_map, entriesWithNulls_eq_map,
    Sorted.ofPairs_map, Bool.and_eq_true, List.length_map, List.length_map, hperm.length_eq,
    sameEntries_iff]
  refine ⟨beq_self_eq_true _, fun f hf => ?_⟩
  obtain ⟨e, he, rfl⟩ := List.mem_map.mp hf
  have he := Sorted.mem_of_mem_ofPairs he
  refine ⟨e.2.withNulls, Assoc.get?_of_mem ?_ (List.mem_map.mpr ⟨e, he, rfl⟩), h e he⟩
  rw [Assoc.keys, List.map_map]
  exact hkeys

mutual

theorem same_readBack : ∀ {v : Value}, v.WellFormed → (readBack v).same v.withNulls = true
  | .array _, h => sameItems_readBackItems h
  | .record _, h => same_record h.1 (same_readBack_entries h.2)
  | .number x, _ => same_number x
  | .string s, _ | .text s, _ => beq_self_eq_true s
  | .boolean b, _ => beq_self_eq_true b
  | .element e, _ => Node.same_refl e.toNode
  | .nodes ns, _ => Node.sameList_refl ns
  | .null, _ | .transformer .., _ => rfl

theorem sameItems_readBackItems : ∀ {vs : List Value}, AllWellFormed vs →
    sameItems (readBackItems vs) (itemsWithNulls vs) = true
  | [], _ => rfl
  | v :: vs, h => by
    rw [readBackItems, itemsWithNulls, sameItems, same_readBack h.1, sameItems_readBackItems h.2]
    rfl

theorem same_readBack_entries : ∀ {es : List (String × Value)}, EntriesWellFormed es →
    ∀ e ∈ es, (readBack e.2).same e.2.withNulls = true
  | [], _, _, he => nomatch he
  | (_, v) :: es, h, e, he => by
    rcases List.mem_cons.mp he with rfl | he
    · exact same_readBack h.1
    · exact same_readBack_entries h.2 e he

end

/-- The marked text of a value reads as the value, with null for transformers and for numbers that
are not finite. Its finite numbers are integers of safe size, and neither its JSON nor that of the
markup in it nests deeper than a reader goes. -/
theorem parse_stringify {v : Value} (hv : v.WellFormed)
    (hnumbers : ∀ x ∈ v.numbers, x.isFinite = true →
      ∃ n, x.toInt? = some n ∧ n.natAbs ≤ Binary64.maxSafeInteger)
    (hdepth : (encode v).depth ≤ Json.maxDepth)
    (hpayloads : ∀ j ∈ payloads v, j.depth ≤ Json.maxDepth) :
    ∃ w, parse (stringify v) = .ok w ∧ w.same v.withNulls = true := by
  have hread : Json.read (stringify v).toList = .ok (encode v) := by
    rw [stringify, Json.text, String.toList_ofList]
    exact Json.read_chars (exact_encode hnumbers) hdepth
  refine ⟨readBack v, ?_, same_readBack hv⟩
  rw [parse, hread]
  change decode (encode v).sorted = _
  rw [sorted_encode, decode_encode hpayloads]

/-- A record with strings that look like markup, markup, numbers of all sorts and a transformer. -/
def lookalikes : Value :=
  .record [
    ("s", .string "%%-text-%%no markup"),
    ("e", .element
      ⟨"em", .ofPairs [("class", "x\ny")], [.text "\"", .element "b" ∅ [.text "%%-"]]⟩),
    ("a", .array [.number (.ofInt (-7)), .number (.zero true), .number .nan, .nodes [.text ""],
      .transformer "ref" [] .reference])]

theorem parse_stringify_lookalikes :
    ∃ w, parse (stringify lookalikes) = .ok w ∧ w.same lookalikes.withNulls = true := by
  have hwellFormed : lookalikes.WellFormed := by
    refine ⟨by decide, ?_⟩
    repeat' constructor
  have hnumbers : ∀ x ∈ lookalikes.numbers, x.isFinite = true →
      ∃ n, x.toInt? = some n ∧ n.natAbs ≤ Binary64.maxSafeInteger := by
    simp only [lookalikes, numbers, entryNumbers, itemNumbers, List.append_nil, List.nil_append,
      List.cons_append, List.forall_mem_cons]
    refine ⟨fun _ => ⟨-7, ?_⟩, fun _ => ⟨0, ?_⟩, fun h => absurd h ?_, by simp⟩ <;> decide +kernel
  exact parse_stringify hwellFormed hnumbers (by decide +kernel) (by decide +kernel)

end MarkedText
end MarkupEval
