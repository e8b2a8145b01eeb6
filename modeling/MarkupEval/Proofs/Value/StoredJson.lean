import MarkupEval.Proofs.Json.WholeFloats
import MarkupEval.Proofs.Markup.Payload
import MarkupEval.Value.StoredJson

/-!
# Stored values read back from their JSON

A stored value is an object with its type and its content, so what is read after the brace is the
content of the type that came first (`readTagged_tagged`), and each type reads its own content back
(`takes_content`). Contents nest stored values again; the induction is on the depth that the reader
may still go (`takes_toJson`). Numbers are floating point numbers there, so that only those are
meant that come back exactly: whole numbers of small size (`takes_floatChars`).
-/

namespace MarkupEval

/-- A reader whose result is put into a form takes the same text as that form. -/
theorem Json.Takes.map {α β : Type} {reader : Reader α} {cs : List Char} {x : α}
    (h : Takes reader cs x) (f : α → β) :
    Takes (fun cs => reader cs >>= fun p => .ok (f p.1, p.2)) cs (f x) := by
  intro rest hrest
  change (reader (cs ++ rest) >>= fun p => .ok (f p.1, p.2)) = _
  rw [h rest hrest]
  rfl

namespace Stored

open Json Outline NumberLayout Binary64

/-! ## Whole numbers -/

mutual

/-- Every number is whole and a tenth of the integers that are exact, or smaller. -/
def SmallWhole : Stored → Prop
  | .number x => ∃ n, x.toInt? = some n ∧ n.natAbs ≤ maxTenth
  | .array items => AllSmallWhole items
  | .record entries => EntriesSmallWhole entries
  | _ => True

def AllSmallWhole : List Stored → Prop
  | [] => True
  | s :: ss => s.SmallWhole ∧ AllSmallWhole ss

def EntriesSmallWhole : List (String × Stored) → Prop
  | [] => True
  | (_, s) :: es => s.SmallWhole ∧ EntriesSmallWhole es

end

theorem allSmallWhole_iff {ss : List Stored} : AllSmallWhole ss ↔ ∀ s ∈ ss, s.SmallWhole := by
  induction ss with
  | nil => simp [AllSmallWhole]
  | cons s ss ih => simp [AllSmallWhole, ih]

theorem entriesSmallWhole_iff {es : List (String × Stored)} :
    EntriesSmallWhole es ↔ ∀ e ∈ es, e.2.SmallWhole := by
  induction es with
  | nil => simp [EntriesSmallWhole]
  | cons e es ih => simp [EntriesSmallWhole, ih]

variable {j : Json} {r rest : List Char}

theorem readBinary64_minus (h : readNumber true r = .ok (j, rest)) :
    readBinary64 ('-' :: r) = .ok (j.toBinary64?.getD .nan, rest) := by
  rw [readBinary64, skipBlanks_cons rfl]
  dsimp only
  split
  · next heq => cases heq
  · next heq =>
    cases heq
    rw [h]
  · next hne heq =>
    cases heq
    exact (hne rfl).elim

theorem readBinary64_digit {c : Char} (hc : Text.isDigit c = true)
    (h : readNumber false (c :: r) = .ok (j, rest)) :
    readBinary64 (c :: r) = .ok (j.toBinary64?.getD .nan, rest) := by
  rw [readBinary64, skipBlanks_cons (isBlankByte_of_isDigit hc)]
  dsimp only
  split
  · next heq => cases heq
  · next heq =>
    cases heq
    exact absurd hc (by decide)
  · next heq =>
    cases heq
    rw [if_pos hc, h]

/-- A whole number of small size is read as it was written, negative zero included. -/
theorem takes_floatChars {x : Binary64} {n : Int} (hx : x.toInt? = some n)
    (hn : n.natAbs ≤ maxTenth) : Takes readBinary64 (floatChars x) x := by
  obtain ⟨hfinite, k, hk, hvalue⟩ := exists_of_toInt? hx
  have hmax : k ≤ maxTenth := by
    rw [hvalue] at hn
    split at hn
    · rwa [Int.natAbs_neg] at hn
    · exact hn
  have hlt : k < 2 * binade := hmax.trans_lt (by decide)
  have hof : { Binary64.ofNat k with negative := x.negative } = x := by
    rw [ofNat_eq_of_units hfinite hk]
  intro rest hrest
  have hread := readNumber_whole x.negative hmax hrest
  rw [hof] at hread
  rw [floatChars_whole hfinite hk hlt]
  cases hsign : x.negative with
  | true =>
    rw [hsign] at hread
    exact readBinary64_minus hread
  | false =>
    rw [hsign] at hread
    rw [if_neg Bool.false_ne_true]
    cases hds : digitChars k with
    | nil => exact absurd hds Nat.toDigits_ne_nil
    | cons c ds =>
      have hc : Text.isDigit c = true := isDigit_of_mem_digitChars (hds ▸ List.mem_cons_self ..)
      rw [hds] at hread
      exact readBinary64_digit hc hread

/-! ## The text of a stored value -/

theorem toJsonItems_eq_map (ss : List Stored) : toJsonItems ss = ss.map toJson := by
  induction ss with
  | nil => rfl
  | cons s ss ih => rw [toJsonItems, ih, List.map_cons]

theorem opens_chars_list (items : List Json) : Opens (chars (.list items)) := by
  rw [chars_list]
  exact ⟨rfl, by decide⟩

theorem opens_chars_object (members : List (String × Json)) : Opens (chars (.object members)) := by
  rw [chars_object]
  exact ⟨rfl, by decide⟩

/-- An entry of a record is a list of two. -/
def entryJson (e : String × Stored) : Json := .list [.string e.1, e.2.toJson]

theorem opens_entryJson (e : String × Stored) : Opens (entryJson e).chars :=
  opens_chars_list _

theorem toJsonEntries_eq_map (es : List (String × Stored)) :
    toJsonEntries es = es.map entryJson := by
  induction es with
  | nil => rfl
  | cons e es ih =>
    rw [toJsonEntries, ih, List.map_cons]
    rfl

/-- The type under which a value is written. -/
def typeName : Stored → String
  | .null => "null"
  | .boolean _ => "boolean"
  | .number _ => "number"
  | .string _ => "string"
  | .text _ => "text"
  | .element _ => "element"
  | .nodes _ => "nodelist"
  | .array _ => "array"
  | .record _ => "record"
  | .transformer _ => "transformer"

theorem typeName_mem (s : Stored) : s.typeName ∈ typeNames := by
  cases s <;> simp [typeName, typeNames]

/-- The text of a tagged content after the opening brace. -/
def taggedChars (type : String) (content : List Char) (rest : List Char) : List Char :=
  quote "type" ++ ':' :: (quote type ++ ',' :: (quote "value" ++ ':' :: (content ++ '}' :: rest)))

theorem chars_tagged_append (type : String) (content : Json) (rest : List Char) :
    (tagged type content).chars ++ rest = '{' :: taggedChars type content.chars rest := by
  simp [tagged, chars, memberTailChars, taggedChars]

theorem opens_toJson (s : Stored) : Opens s.toJson.chars := by
  cases s <;> exact opens_chars_object _

theorem depth_tagged (type : String) (content : Json) :
    (tagged type content).depth = content.depth + 1 := by
  simp [tagged, depth, depthMembers]

theorem depth_content {type : String} {content : Json} {n : Nat}
    (h : (tagged type content).depth ≤ n + 1) : content.depth ≤ n := by
  rw [depth_tagged] at h
  exact Nat.le_of_succ_le_succ h

/-! ## Reading what is tagged -/

theorem nextTagOrContent_first {k : String} (hk : k = "type" ∨ k = "value") (fuel : Nat)
    (r : List Char) : nextTagOrContent (fuel + 1) true (quote k ++ r) = .ok (some k, r) := by
  rw [nextTagOrContent, nextKey_first]
  simp only [bind, Except.bind, if_pos hk]
  rfl

theorem nextTagOrContent_comma {k : String} (hk : k = "type" ∨ k = "value") (fuel : Nat)
    (r : List Char) :
    nextTagOrContent (fuel + 1) false (',' :: (quote k ++ r)) = .ok (some k, r) := by
  rw [nextTagOrContent, nextKey_comma]
  simp only [bind, Except.bind, if_pos hk]
  rfl

theorem nextTagOrContent_brace (fuel : Nat) (first : Bool) (r : List Char) :
    nextTagOrContent (fuel + 1) first ('}' :: r) = .ok (none, '}' :: r) := rfl

theorem readType_quote (depth : Nat) {type : String} (h : type ∈ typeNames) (r : List Char) :
    readType depth (quote type ++ r) = .ok (type, r) := by
  rw [quote_append, readType, skipBlanks_cons rfl]
  change (readString _ >>= fun x => knownType x.1 x.2) = _
  rw [readString_escaped]
  exact if_pos h

theorem readColon_cons (r : List Char) : readColon (':' :: r) = .ok r := rfl

variable {value : Nat → Reader Stored} {depth : Nat}

/-- A content that its type takes is taken after its type. -/
theorem readTagged_tagged {content : List Char} {s : Stored}
    (h : Takes (readContent value depth s.typeName) content s) (rest : List Char) :
    readTagged value depth (taggedChars s.typeName content rest) = .ok (s, '}' :: rest) := by
  have hcontent := h ('}' :: rest) (delimited_brace rest)
  rw [readTagged, taggedChars, nextTagOrContent_first (.inl rfl)]
  simp only [bind, Except.bind, readColon_cons, readType_quote depth (typeName_mem s),
    nextTagOrContent_comma (.inr rfl)]
  change (readContent value depth s.typeName _ >>= fun x =>
    readNoMore x.2 >>= fun r => .ok (x.1, r)) = _
  rw [hcontent]
  rfl

theorem readTagged_null (rest : List Char) :
    readTagged value depth (quote "type" ++ ':' :: (quote "null" ++ '}' :: rest)) =
      .ok (.null, '}' :: rest) := by
  have htype : "null" ∈ typeNames := typeName_mem .null
  rw [readTagged, nextTagOrContent_first (.inl rfl)]
  simp only [bind, Except.bind, readColon_cons, readType_quote depth htype,
    nextTagOrContent_brace]
  rfl

/-! ## Contents -/

theorem takes_quote (s : String) : Takes readStringValue (quote s) s :=
  fun r _ => readStringValue_quote s r

theorem takes_boolean (b : Bool) : Takes readBoolean (chars (.bool b)) b := by
  intro rest _
  cases b <;> rfl

/-- The name of a transformer, in an object of its own. -/
theorem takes_transformer (name : String) :
    Takes (readTransformer (depth + 1)) (chars (.object [("name", .string name)])) name := by
  intro rest _
  have htext : chars (.object [("name", .string name)]) ++ rest =
      '{' :: (quote "name" ++ ':' :: (quote name ++ '}' :: rest)) := by
    simp [chars, memberTailChars]
  have hmembers (fuel : Nat) : readNameMember (fuel + 2) true none
      (quote "name" ++ ':' :: (quote name ++ '}' :: rest)) = .ok (name, '}' :: rest) := by
    rw [readNameMember, nextKey_first]
    simp only [bind, Except.bind, readMember_colon, readStringValue_quote]
    rfl
  obtain ⟨fuel, hfuel⟩ : ∃ fuel,
      (quote "name" ++ ':' :: (quote name ++ '}' :: rest)).length + 1 = fuel + 2 := by
    refine Nat.exists_eq_add_of_le' ?_
    simp only [List.length_append, List.length_cons]
    omega
  rw [htext, readTransformer, skipBlanks_cons rfl]
  simp only [inObject, enclose, hfuel, hmembers]
  rfl

/-- An entry of a record reads back where its value does. -/
theorem takes_entry {e : String × Stored} (h : Takes (value depth) e.2.toJson.chars e.2) :
    Takes (readSequence "a tuple of size 2" (depth + 1) fun d => readEntry (value d))
      (entryJson e).chars e := by
  intro rest _
  have htext : (entryJson e).chars ++ rest =
      '[' :: (quote e.1 ++ (',' :: (e.2.toJson.chars ++ (']' :: rest)))) := by
    simp [entryJson, chars, tailChars]
  have hvalue := h (']' :: rest) (delimited_bracket rest)
  have hopens := (opens_toJson e.2).append (']' :: rest)
  rw [htext]
  simp only [readSequence, skipBlanks_cons (c := '[') rfl, inList, enclose, readEntry, bind,
    Except.bind, readPart_first (opens_quote _ _), readStringValue_quote, readPart_next hopens,
    hvalue]
  rfl

/-! ## Stored values -/

variable {fuel : Nat}

/-- What is tagged is taken where its type takes the content. -/
theorem takes_tagged {content : Json} {s : Stored}
    (h : Takes (readContent (readStored fuel) depth s.typeName) content.chars s) :
    Takes (readStored (fuel + 1) (depth + 1)) (tagged s.typeName content).chars s := by
  intro rest _
  rw [chars_tagged_append, readStored, skipBlanks_cons rfl]
  simp only [inObject, enclose, readTagged_tagged h]
  rfl

theorem takes_null : Takes (readStored (fuel + 1) (depth + 1)) (toJson .null).chars .null := by
  intro rest _
  have htext : (toJson .null).chars ++ rest =
      '{' :: (quote "type" ++ ':' :: (quote "null" ++ '}' :: rest)) := by
    simp [toJson, chars, memberTailChars]
  rw [htext, readStored, skipBlanks_cons rfl]
  simp only [inObject, enclose, readTagged_null]
  rfl

/-- Nested values lie one level below the list of an array. -/
theorem depth_toJsonItems {items : List Stored} {n : Nat}
    (h : Json.depth (.list (toJsonItems items)) ≤ n + 1) {s : Stored} (hs : s ∈ items) :
    s.toJson.depth ≤ n := by
  rw [toJsonItems_eq_map] at h
  exact depthItems_le_iff.mp (Nat.le_of_succ_le_succ h) _ (List.mem_map_of_mem hs)

/-- In a record they lie one level further down, in a list with their key. -/
theorem depth_toJsonEntries {entries : List (String × Stored)} {n : Nat}
    (h : Json.depth (.list (toJsonEntries entries)) ≤ n + 1) {e : String × Stored}
    (he : e ∈ entries) : ∃ m, n = m + 1 ∧ e.2.toJson.depth ≤ m := by
  rw [toJsonEntries_eq_map] at h
  have hentry : (entryJson e).depth ≤ n :=
    depthItems_le_iff.mp (Nat.le_of_succ_le_succ h) _ (List.mem_map_of_mem he)
  obtain ⟨m, rfl⟩ := Nat.exists_eq_succ_of_ne_zero (Nat.ne_zero_of_lt hentry)
  refine ⟨m, rfl, ?_⟩
  exact depthItems_le_iff.mp (Nat.le_of_succ_le_succ hentry) _ (by simp)

/-- A stored value reads back where it nests no deeper than the reader goes. -/
theorem takes_toJson {s : Stored} (hs : s.SmallWhole) (hdepth : s.toJson.depth ≤ depth)
    (hfuel : depth < fuel) : Takes (readStored fuel depth) s.toJson.chars s := by
  induction fuel generalizing depth s with
  | zero => exact absurd hfuel (Nat.not_lt_zero _)
  | succ fuel ih =>
    have hpos : 0 < s.toJson.depth := by
      cases s with
      | null => exact Nat.succ_pos _
      | _ => exact (depth_tagged ..).symm ▸ Nat.succ_pos _
    obtain ⟨n, rfl⟩ := Nat.exists_eq_succ_of_ne_zero (Nat.ne_zero_of_lt (hpos.trans_le hdepth))
    have hn : n < fuel := Nat.lt_of_succ_lt_succ hfuel
    cases s with
    | null => exact takes_null
    | boolean b => exact takes_tagged (s := .boolean b) ((takes_boolean b).map Stored.boolean)
    | number x =>
      obtain ⟨m, hm, hmax⟩ := hs
      exact takes_tagged (s := .number x) ((takes_floatChars hm hmax).map Stored.number)
    | string s => exact takes_tagged (s := .string s) ((takes_quote s).map Stored.string)
    | text s => exact takes_tagged (s := .text s) ((takes_quote s).map Stored.text)
    | element e =>
      have hcontent : e.toJson.depth ≤ n := depth_content hdepth
      exact takes_tagged (s := .element e) ((takes_element hcontent).map Stored.element)
    | nodes os =>
      have hcontent : Json.depth (.list (toJsonList os)) ≤ n := depth_content hdepth
      exact takes_tagged (s := .nodes os) ((takes_children hcontent).map Stored.nodes)
    | array items =>
      have hcontent : Json.depth (.list (toJsonItems items)) ≤ n := depth_content hdepth
      obtain ⟨m, rfl⟩ := Nat.exists_eq_succ_of_ne_zero (Nat.ne_zero_of_lt hcontent)
      have hitems : ∀ s ∈ items, Takes (readStored fuel m) s.toJson.chars s := fun s hmem =>
        ih (allSmallWhole_iff.mp hs s hmem) (depth_toJsonItems hcontent hmem) (by omega)
      refine takes_tagged (s := .array items) ?_
      rw [chars_list, toJsonItems_eq_map, itemChars_map]
      exact (takes_sequence "a sequence" hitems fun s _ => opens_toJson s).map Stored.array
    | record entries =>
      have hcontent : Json.depth (.list (toJsonEntries entries)) ≤ n := depth_content hdepth
      obtain ⟨m, rfl⟩ := Nat.exists_eq_succ_of_ne_zero (Nat.ne_zero_of_lt hcontent)
      have hentries : ∀ e ∈ entries, Takes
          (readSequence "a tuple of size 2" m fun d => readEntry (readStored fuel d))
          (entryJson e).chars e := by
        intro e hmem
        obtain ⟨l, rfl, he⟩ := depth_toJsonEntries hcontent hmem
        exact takes_entry (ih (entriesSmallWhole_iff.mp hs e hmem) he (by omega))
      refine takes_tagged (s := .record entries) ?_
      rw [chars_list, toJsonEntries_eq_map, itemChars_map]
      exact (takes_sequence "a sequence" hentries fun e _ => opens_entryJson e).map Stored.record
    | transformer name =>
      have hcontent : Json.depth (.object [("name", .string name)]) ≤ n := depth_content hdepth
      obtain ⟨m, rfl⟩ := Nat.exists_eq_succ_of_ne_zero (Nat.ne_zero_of_lt hcontent)
      exact takes_tagged (s := .transformer name) ((takes_transformer name).map Stored.transformer)

/-- A stored value of which the numbers are whole and small is read back from its JSON text, where
that nests no deeper than readers go. -/
theorem read_toJson_text {s : Stored} (hs : s.SmallWhole) (hdepth : s.toJson.depth ≤ maxDepth) :
    read s.toJson.text = .ok s := by
  rw [read, Json.text, String.toList_ofList]
  exact readAll_eq_ok (takes_toJson hs hdepth maxDepth.lt_succ_self)

/-- A transformer, a repeated key and a repeated attribute, and the largest number with its sign. -/
theorem read_toJson_text_repeated :
    let number (negative : Bool) : Binary64 := .ofRatio negative 900719925474099 1
    let stored : Stored := .record
      [("a", .array [.transformer "suffix", .null, .number (number true), .number (.zero true)]),
       ("a", .nodes [.text "\n", .element "p" [("id", "1"), ("id", "2")] [.text "\x22"]])]
    stored.SmallWhole ∧ stored.toJson.depth ≤ maxDepth ∧ read stored.toJson.text = .ok stored := by
  intro number stored
  have hlargest : (number true).toInt? = some (-900719925474099) := by decide +kernel
  have hzero : (Binary64.zero true).toInt? = some 0 := by decide +kernel
  have hsmall : stored.SmallWhole := by
    refine ⟨⟨trivial, trivial, ⟨_, hlargest, ?_⟩, ⟨_, hzero, ?_⟩, trivial⟩, trivial, trivial⟩
    · decide
    · decide
  have hdepth : stored.toJson.depth ≤ maxDepth := by decide
  exact ⟨hsmall, hdepth, read_toJson_text hsmall hdepth⟩

end Stored
end MarkupEval
