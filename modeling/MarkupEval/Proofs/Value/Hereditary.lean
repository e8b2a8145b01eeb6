import MarkupEval.Proofs.Sorted
import MarkupEval.Transformer.SmartTag
import MarkupEval.Value.Merge

/-!
# Properties that can be told from the values inside

An array has a hereditary property if its items do, and a record if besides no key occurs twice
(`Hereditary`). Every operation on values keeps such a property: casting and absorbing, the smart
tags (`Hereditary.run`), and the records that failures become (`Hereditary.toValue`).
-/

namespace MarkupEval

/-- A chain of steps that may fail succeeds only if its first step does. -/
theorem exists_ok_of_bind {ε α β : Type} {x : Except ε α} {f : α → Except ε β} {b : β}
    (h : x >>= f = .ok b) : ∃ a, x = .ok a ∧ f a = .ok b := by
  cases x with
  | error e => cases h
  | ok a => exact ⟨a, rfl, h⟩

namespace Value

/-- Whether there are no values inside a value, and it is no transformer. -/
def isLeaf : Value → Bool
  | .array _ | .record _ | .transformer .. => false
  | _ => true

/-- A property of values that can be told from the values inside. Transformers may have it only if
`T` holds. -/
structure Hereditary (T : Prop) (P : Value → Prop) : Prop where
  leaf : ∀ {v}, v.isLeaf = true → P v
  array : ∀ {items}, P (.array items) ↔ ∀ v ∈ items, P v
  record : ∀ {es}, P (.record es) ↔ (Assoc.keys es).Nodup ∧ ∀ e ∈ es, P e.2
  transformer : ∀ {name args op}, P (.transformer name args op) ↔ T ∧ ∀ v ∈ args, P v

namespace Hereditary

variable {T : Prop} {P : Value → Prop}

theorem null (hP : Hereditary T P) : P .null := hP.leaf rfl

theorem number (hP : Hereditary T P) (x : Binary64) : P (.number x) := hP.leaf rfl

theorem string (hP : Hereditary T P) (s : String) : P (.string s) := hP.leaf rfl

theorem ofNode (hP : Hereditary T P) (n : Node) : P (ofNode n) := by
  cases n <;> exact hP.leaf rfl

/-! ## Casts and absorbing -/

theorem castTo? (hP : Hereditary T P) {v w : Value} {k : Kind} (hv : P v)
    (h : v.castTo? k = some w) : P w := by
  cases k with
  | array =>
    cases h
    cases v with
    | array items => exact hv
    | nodes ns =>
      rw [toItems, hP.array]
      intro w hw
      obtain ⟨n, -, rfl⟩ := List.mem_map.mp hw
      exact hP.ofNode n
    | _ => exact hP.array.mpr (List.forall_mem_singleton.mpr hv)
  | record =>
    cases h
    cases v with
    | record es => exact hv
    | _ => exact hP.record.mpr ⟨.nil, fun e he => nomatch he⟩
  | element | transformer => cases h
  | _ =>
    cases h
    exact hP.leaf rfl

theorem convert (hP : Hereditary T P) {v : Value} (k : Kind) (hv : P v) : P (v.convert k) := by
  have hcast : P ((v.castTo? k).getD v) := by
    cases h : v.castTo? k with
    | none => exact hv
    | some w => exact hP.castTo? hv h
  cases k with
  | element => exact hP.leaf rfl
  | _ => exact hcast

theorem insert (hP : Hereditary T P) {s : String} {w : Value} {es : List (String × Value)}
    (hw : P w) (h : P (.record es)) : P (.record (Assoc.insert s w es)) := by
  obtain ⟨hkeys, hes⟩ := hP.record.mp h
  refine hP.record.mpr ⟨Assoc.nodup_keys_insert hkeys, fun e he => ?_⟩
  rcases Assoc.mem_of_mem_insert he with rfl | he
  · exact hw
  · exact hes e he

theorem absorbIntoNodes (hP : Hereditary T P) (ns : List Node) {w : Value} (hw : P w) :
    P (absorbIntoNodes ns w) := by
  cases w with
  | array items =>
    rw [Value.absorbIntoNodes, hP.array]
    intro v hv
    rcases List.mem_append.mp hv with hv | hv
    · obtain ⟨n, -, rfl⟩ := List.mem_map.mp hv
      exact hP.ofNode n
    · exact hP.array.mp hw v hv
  | record es => exact hw
  | _ => exact hP.leaf rfl

theorem absorb (hP : Hereditary T P) {v w : Value} (key : Key) (hv : P v) (hw : P w) :
    P (v.absorb w key) := by
  cases v with
  | array items =>
    cases key with
    | name s => exact hv
    | position i =>
      rw [Value.absorb, hP.array]
      intro x hx
      rcases List.mem_append.mp hx with hx | hx
      · exact hP.array.mp hv x hx
      · cases List.mem_singleton.mp hx
        exact hw
  | record es =>
    cases key with
    | name s => exact hP.insert hw hv
    | position i => exact hv
  | nodes ns => exact hP.absorbIntoNodes ns hw
  | _ =>
    simp only [Value.absorb]
    split
    · exact hP.leaf rfl
    · exact hw

end Hereditary

/-! ## Replacing and setting -/

theorem keys_replaceEntries (pattern replacement : String) (es : List (String × Value)) :
    Assoc.keys (replaceEntries pattern replacement es) = Assoc.keys es := by
  induction es with
  | nil => rfl
  | cons e es ih => simp [replaceEntries, ih]

theorem mem_splice {α : Type} {items new : List α} {i : Nat} {x : α}
    (h : x ∈ splice items i new) : x ∈ new ∨ x ∈ items := by
  simp only [splice, List.mem_append] at h
  rcases h with (h | h) | h
  · exact .inr (List.mem_of_mem_take h)
  · exact .inl h
  · exact .inr (List.mem_of_mem_drop h)

namespace Hereditary

variable {T : Prop} {P : Value → Prop}

mutual

theorem replace (hP : Hereditary T P) (pattern replacement : String) :
    ∀ {v : Value}, P v → P (v.replace pattern replacement)
  | .array items, h => by
    rw [Value.replace, hP.array]
    exact replaceItems hP pattern replacement (hP.array.mp h)
  | .record es, h => by
    obtain ⟨hkeys, hes⟩ := hP.record.mp h
    rw [Value.replace, hP.record, keys_replaceEntries]
    exact ⟨hkeys, replaceEntries hP pattern replacement hes⟩
  | .transformer .., h => h
  | .null, _ | .boolean _, _ | .number _, _ | .string _, _ | .text _, _ | .element _, _
  | .nodes _, _ => hP.leaf rfl

theorem replaceItems (hP : Hereditary T P) (pattern replacement : String) :
    ∀ {vs : List Value}, (∀ v ∈ vs, P v) → ∀ v ∈ replaceItems pattern replacement vs, P v
  | [], _ => by simp [Value.replaceItems]
  | v :: vs, h => by
    rw [Value.replaceItems, List.forall_mem_cons]
    rw [List.forall_mem_cons] at h
    exact ⟨replace hP pattern replacement h.1, replaceItems hP pattern replacement h.2⟩

theorem replaceEntries (hP : Hereditary T P) (pattern replacement : String) :
    ∀ {es : List (String × Value)}, (∀ e ∈ es, P e.2) →
      ∀ e ∈ replaceEntries pattern replacement es, P e.2
  | [], _ => by simp [Value.replaceEntries]
  | (k, v) :: es, h => by
    rw [Value.replaceEntries, List.forall_mem_cons]
    rw [List.forall_mem_cons] at h
    exact ⟨replace hP pattern replacement h.1, replaceEntries hP pattern replacement h.2⟩

end

theorem setAttribute (hP : Hereditary T P) (name value : String) {v : Value} (h : P v) :
    P (v.setAttribute name value) := by
  cases v with
  | array items =>
    rw [Value.setAttribute, hP.array]
    intro w hw
    obtain ⟨v, hv, rfl⟩ := List.mem_map.mp hw
    have hv := hP.array.mp h v hv
    cases v with
    | element e => exact hP.leaf rfl
    | _ => exact hv
  | element e | nodes ns => exact hP.leaf rfl
  | _ => exact h

theorem splice (hP : Hereditary T P) {items : List Value} {w : Value} (i : Nat)
    (h : P (.array items)) (hw : P w) : P (.array (splice items i [w])) := by
  rw [hP.array]
  intro v hv
  rcases mem_splice hv with hv | hv
  · cases List.mem_singleton.mp hv
    exact hw
  · exact hP.array.mp h v hv

theorem setLast (hP : Hereditary T P) {w v r : Value} {walked : List String} {segment : String}
    (hw : P w) (hv : P v) (h : setLast w walked segment v = .ok r) : P r := by
  cases v with
  | array items =>
    obtain ⟨i, -, hr⟩ := exists_ok_of_bind h
    cases hr
    exact hP.splice i hv hw
  | record es =>
    cases h
    exact hP.insert hw hv
  | element e | nodes ns | string s | text s =>
    obtain ⟨i, -, hr⟩ := exists_ok_of_bind h
    cases hr
    exact hP.leaf rfl
  | _ => cases h

theorem of_itemAt (hP : Hereditary T P) {items : List Value} {walked : List String}
    {segment : String} {i : Nat} {v : Value} (hitems : P (.array items))
    (h : itemAt walked segment items = .ok (i, v)) : P v := by
  obtain ⟨j, -, h⟩ := exists_ok_of_bind h
  split at h
  · next heq =>
    cases h
    exact hP.array.mp hitems _ (List.mem_of_getElem? heq)
  · cases h

theorem setAlong (hP : Hereditary T P) {w : Value} (hw : P w) :
    ∀ {path walked : List String} {v r : Value}, P v → setAlong w walked path v = .ok r → P r
  | [], _, _, _, _, h => by
    cases h
    exact hw
  | [segment], _, _, _, hv, h => hP.setLast hw hv h
  | segment :: next :: rest, walked, v, r, hv, h => by
    unfold Value.setAlong at h
    cases v with
    | array items =>
      obtain ⟨⟨i, x⟩, hx, h⟩ := exists_ok_of_bind h
      obtain ⟨y, hy, h⟩ := exists_ok_of_bind h
      cases h
      exact hP.splice i hv (setAlong hP hw (hP.of_itemAt hv hx) hy)
    | record es =>
      cases hx : Assoc.get? segment es with
      | none => simp [hx] at h
      | some x =>
        simp only [hx] at h
        obtain ⟨y, hy, h⟩ := exists_ok_of_bind h
        cases h
        have hx := (hP.record.mp hv).2 _ (Assoc.mem_of_get? hx)
        exact hP.insert (setAlong hP hw hx hy) hv
    | element e | nodes ns =>
      obtain ⟨⟨i, n⟩, -, h⟩ := exists_ok_of_bind h
      obtain ⟨y, -, h⟩ := exists_ok_of_bind h
      cases h
      exact hP.leaf rfl
    | _ => cases h

end Hereditary

end Value

/-! ## Marked text -/

namespace Json

mutual

/-- No object holds a name twice, at any depth. -/
def Keyed : Json → Prop
  | .list items => AllKeyed items
  | .object ms => (Assoc.keys ms).Nodup ∧ MembersKeyed ms
  | _ => True

def AllKeyed : List Json → Prop
  | [] => True
  | j :: js => j.Keyed ∧ AllKeyed js

def MembersKeyed : List (String × Json) → Prop
  | [] => True
  | (_, j) :: ms => j.Keyed ∧ MembersKeyed ms

end

theorem allKeyed_iff {js : List Json} : AllKeyed js ↔ ∀ j ∈ js, j.Keyed := by
  induction js with
  | nil => simp [AllKeyed]
  | cons j js ih => simp [AllKeyed, ih]

theorem membersKeyed_iff {ms : List (String × Json)} : MembersKeyed ms ↔ ∀ m ∈ ms, m.2.Keyed := by
  induction ms with
  | nil => simp [MembersKeyed]
  | cons m ms ih => simp [MembersKeyed, ih]

mutual

theorem keyed_sorted : ∀ j : Json, j.sorted.Keyed
  | .list items => by
    rw [sorted, Keyed, allKeyed_iff]
    exact keyed_sortedItems items
  | .object ms => by
    rw [sorted, Keyed, membersKeyed_iff]
    exact ⟨(Sorted.ascending_ofPairs _).nodup, fun m hm =>
      keyed_sortedMembers ms m (Sorted.mem_of_mem_ofPairs hm)⟩
  | .null | .bool _ | .integer _ | .float _ | .string _ => trivial

theorem keyed_sortedItems : ∀ js : List Json, ∀ j ∈ sortedItems js, j.Keyed
  | [] => by simp [sortedItems]
  | j :: js => by
    rw [sortedItems, List.forall_mem_cons]
    exact ⟨keyed_sorted j, keyed_sortedItems js⟩

theorem keyed_sortedMembers : ∀ ms : List (String × Json), ∀ m ∈ sortedMembers ms, m.2.Keyed
  | [] => by simp [sortedMembers]
  | (k, j) :: ms => by
    rw [sortedMembers, List.forall_mem_cons]
    exact ⟨keyed_sorted j, keyed_sortedMembers ms⟩

end

end Json

namespace MarkedText

theorem keys_decodeMembers {ms : List (String × Json)} {es : List (String × Value)}
    (h : decodeMembers ms = .ok es) : Assoc.keys es = Assoc.keys ms := by
  induction ms generalizing es with
  | nil =>
    cases h
    rfl
  | cons m ms ih =>
    obtain ⟨v, -, h⟩ := exists_ok_of_bind h
    obtain ⟨es', hes', h⟩ := exists_ok_of_bind h
    cases h
    simp [ih hes']

end MarkedText

namespace SmartTag

/-- A check that throws did not, where the whole succeeded. -/
theorem eq_ok_of_check {ε α β : Type} {c : Prop} [Decidable c] {e : ε} {k : β → Except ε α}
    {x : Except ε α} {a : α} (h : (if c then throw e >>= k else x) = .ok a) : x = .ok a := by
  split at h
  · cases h
  · exact h

end SmartTag

namespace Value.Hereditary

variable {T : Prop} {P : Value → Prop}

theorem decodeString (hP : Hereditary T P) {s : String} {v : Value}
    (h : MarkedText.decodeString s = .ok v) : P v := by
  unfold MarkedText.decodeString MarkedText.decodeElement MarkedText.decodeNodes at h
  repeat' split at h
  all_goals
    cases h
    try exact hP.leaf rfl

mutual

theorem decode (hP : Hereditary T P) : ∀ {j : Json} {v : Value}, j.Keyed →
    MarkedText.decode j = .ok v → P v
  | .string s, v, _, h => hP.decodeString h
  | .list items, v, hj, h => by
    obtain ⟨vs, hvs, h⟩ := exists_ok_of_bind h
    cases h
    exact hP.array.mpr (decodeItems hP hj hvs)
  | .object ms, v, hj, h => by
    obtain ⟨es, hes, h⟩ := exists_ok_of_bind h
    cases h
    exact hP.record.mpr
      ⟨MarkedText.keys_decodeMembers hes ▸ hj.1, decodeMembers hP hj.2 hes⟩
  | .null, v, _, h | .bool _, v, _, h | .integer _, v, _, h | .float _, v, _, h => by
    cases h
    exact hP.leaf rfl

theorem decodeItems (hP : Hereditary T P) : ∀ {js : List Json} {vs : List Value},
    Json.AllKeyed js → MarkedText.decodeItems js = .ok vs → ∀ v ∈ vs, P v
  | [], vs, _, h => by
    cases h
    simp
  | j :: js, vs, hj, h => by
    obtain ⟨v, hv, h⟩ := exists_ok_of_bind h
    obtain ⟨vs', hvs', h⟩ := exists_ok_of_bind h
    cases h
    exact List.forall_mem_cons.mpr ⟨decode hP hj.1 hv, decodeItems hP hj.2 hvs'⟩

theorem decodeMembers (hP : Hereditary T P) : ∀ {ms : List (String × Json)}
    {es : List (String × Value)}, Json.MembersKeyed ms → MarkedText.decodeMembers ms = .ok es →
      ∀ e ∈ es, P e.2
  | [], es, _, h => by
    cases h
    simp
  | (k, j) :: ms, es, hj, h => by
    obtain ⟨v, hv, h⟩ := exists_ok_of_bind h
    obtain ⟨es', hes', h⟩ := exists_ok_of_bind h
    cases h
    exact List.forall_mem_cons.mpr ⟨decode hP hj.1 hv, decodeMembers hP hj.2 hes'⟩

end

theorem parse (hP : Hereditary T P) {text : String} {v : Value}
    (h : MarkedText.parse text = .ok v) : P v := by
  unfold MarkedText.parse at h
  split at h
  · exact hP.decode (Json.keyed_sorted _) h
  · cases h

/-! ## Results of smart tags, and failures -/

open SmartTag

variable {main r : Value} {args : List Value}

theorem runReplace (hP : Hereditary T P) (hmain : P main) (h : runReplace main args = .ok r) :
    P r := by
  obtain ⟨-, -, h⟩ := exists_ok_of_bind h
  obtain ⟨pattern, -, h⟩ := exists_ok_of_bind h
  obtain ⟨replacement, -, h⟩ := exists_ok_of_bind (eq_ok_of_check h)
  cases h
  exact hP.replace pattern replacement hmain

theorem runSetAttribute (hP : Hereditary T P) (hmain : P main)
    (h : runSetAttribute main args = .ok r) : P r := by
  obtain ⟨-, -, h⟩ := exists_ok_of_bind (eq_ok_of_check h)
  obtain ⟨name, -, h⟩ := exists_ok_of_bind h
  have h := eq_ok_of_check h
  split at h
  all_goals
    obtain ⟨value, -, h⟩ := exists_ok_of_bind h
    cases h
    exact hP.setAttribute name value hmain

theorem runSetProperty (hP : Hereditary T P) (hmain : P main) (hargs : ∀ v ∈ args, P v)
    (h : runSetProperty main args = .ok r) : P r := by
  have hnew : P (args[1]?.getD .null) := by
    cases hv : args[1]? with
    | none => exact hP.null
    | some v => exact hargs v (List.mem_of_getElem? hv)
  obtain ⟨-, -, h⟩ := exists_ok_of_bind h
  obtain ⟨path, -, h⟩ := exists_ok_of_bind h
  exact hP.setAlong hnew hmain (eq_ok_of_check h)

theorem runParse (hP : Hereditary T P) (h : runParse main args = .ok r) : P r := by
  cases main with
  | string s | text s =>
    obtain ⟨text, -, h⟩ := exists_ok_of_bind h
    obtain ⟨-, -, h⟩ := exists_ok_of_bind h
    exact hP.parse h
  | _ => cases h

theorem apply (hP : Hereditary T P) {t : SmartTag} (hmain : P main) (hargs : ∀ v ∈ args, P v)
    (h : t.apply main args = .ok r) : P r := by
  cases t with
  | replace => exact hP.runReplace hmain h
  | setAttribute => exact hP.runSetAttribute hmain h
  | setProperty => exact hP.runSetProperty hmain hargs h
  | parse => exact hP.runParse h
  | stringify =>
    obtain ⟨-, -, h⟩ := exists_ok_of_bind h
    cases h
    exact hP.string _
  | suffix =>
    obtain ⟨-, -, h⟩ := exists_ok_of_bind h
    obtain ⟨end', -, h⟩ := exists_ok_of_bind h
    cases h
    exact hP.string _

theorem run (hP : Hereditary T P) {t : SmartTag} (hmain : P main) (hargs : ∀ v ∈ args, P v)
    (h : t.run main args = .ok r) : P r := by
  unfold SmartTag.run at h
  split at h
  · exact hP.apply hmain hargs h
  · split at h
    · next w rest =>
      exact hP.apply (hargs w (List.mem_cons_self ..))
        (fun v hv => hargs v (List.mem_cons_of_mem _ hv)) h
    · cases h

theorem toValue (hP : Hereditary T P) (e : TagError) : P e.toValue := by
  rw [TagError.toValue, hP.record]
  cases e <;> simp [TagError.extras, TagError.count, Assoc.keys, hP.string, hP.number]

end Value.Hereditary

end MarkupEval
