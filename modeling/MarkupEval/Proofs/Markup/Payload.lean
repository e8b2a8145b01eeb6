import MarkupEval.Markup.Payload
import MarkupEval.Proofs.Json.RoundTrip

/-!
# Markup read back from its JSON

The JSON of an element is read back part by part (`takes_element`), and that of sibling nodes child
by child (`takes_children`), where it nests no deeper than the reader goes. A child is read as any
JSON value and then taken for a text or an element, which loses nothing (`ofJson?_toJson`).
-/

namespace MarkupEval
namespace Outline

open Json

theorem toJsonList_eq_map (os : List Outline) : toJsonList os = os.map toJson := by
  induction os with
  | nil => rfl
  | cons o os ih => rw [toJsonList, ih, List.map_cons]

theorem exact_attrs (attrs : List (String × String)) : Exact (.list (attrs.map pairJson)) := by
  rw [Exact, allExact_iff]
  intro j hj
  obtain ⟨p, -, rfl⟩ := List.mem_map.mp hj
  exact ⟨trivial, trivial, trivial⟩

mutual

theorem exact_toJson : ∀ o : Outline, o.toJson.Exact
  | .text _ => trivial
  | .element _ attrs children =>
    ⟨trivial, exact_attrs attrs, allExact_toJsonList children, trivial⟩

theorem allExact_toJsonList : ∀ os : List Outline, AllExact (toJsonList os)
  | [] => trivial
  | o :: os => ⟨exact_toJson o, allExact_toJsonList os⟩

end

/-! ## The shape of a child -/

theorem mapM_map_eq_some {α β : Type} {f : α → β} {g : β → Option α} {xs : List α}
    (h : ∀ x ∈ xs, g (f x) = some x) : (xs.map f).mapM g = some xs := by
  induction xs with
  | nil => rfl
  | cons x xs ih =>
    rw [List.forall_mem_cons] at h
    rw [List.map_cons, List.mapM_cons, h.1, ih h.2]
    rfl

/-- The parts of an element lie one level below it. -/
theorem depth_toJson_element {tag : String} {attrs : List (String × String)}
    {children : List Outline} {n : Nat} (h : (toJson (.element tag attrs children)).depth ≤ n + 1) :
    depth (.list (attrs.map pairJson)) ≤ n ∧ depth (.list (toJsonList children)) ≤ n := by
  have hmembers := depthMembers_le_iff.mp (Nat.le_of_succ_le_succ h)
  exact ⟨hmembers ("attrs", .list (attrs.map pairJson)) (by simp),
    hmembers ("children", .list (toJsonList children)) (by simp)⟩

theorem depth_toJson_child {os : List Outline} {n : Nat} (h : depth (.list (toJsonList os)) ≤ n + 1)
    {o : Outline} (ho : o ∈ os) : o.toJson.depth ≤ n := by
  rw [toJsonList_eq_map] at h
  exact depthItems_le_iff.mp (Nat.le_of_succ_le_succ h) _ (List.mem_map_of_mem ho)

theorem ofJson?_toJson {n : Nat} {o : Outline} (h : o.toJson.depth ≤ n) :
    ofJson? (n + 1) o.toJson = some o := by
  induction n using Nat.strongRecOn generalizing o with | _ n ih
  cases o with
  | text s => rfl
  | element tag attrs children =>
    obtain ⟨m, rfl⟩ := Nat.exists_eq_succ_of_ne_zero (Nat.ne_zero_of_lt h)
    obtain ⟨hattrs, hchildren⟩ := depth_toJson_element h
    obtain ⟨k, rfl⟩ := Nat.exists_eq_succ_of_ne_zero (Nat.ne_zero_of_lt hchildren)
    have hpairs : pairs? (.list (attrs.map pairJson)) = some attrs :=
      mapM_map_eq_some fun _ _ => rfl
    have hlist : (toJsonList children).mapM (ofJson? (k + 1 + 1)) = some children := by
      rw [toJsonList_eq_map]
      refine mapM_map_eq_some fun o ho => ih (k + 1) (by omega) ?_
      exact Nat.le_succ_of_le (depth_toJson_child hchildren ho)
    change (do
      let attrs ← pairs? (.list (attrs.map pairJson))
      return element tag attrs (← (toJsonList children).mapM (ofJson? (k + 1 + 1)))) = _
    rw [hpairs, hlist]
    rfl

/-! ## Readers -/

theorem readStringValue_quote (s : String) (r : List Char) :
    readStringValue (quote s ++ r) = .ok (s, r) := by
  rw [quote_append]
  exact readString_escaped s r

theorem opens_quote (s : String) (r : List Char) : Opens (quote s ++ r) := by
  rw [quote_append]
  exact ⟨rfl, by decide⟩

variable {α : Type} {item : Reader α}

theorem readPart_first {cs : List Char} (h : Opens cs) (expected : String) :
    readPart 0 expected item cs = item cs := by
  rw [readPart, beq_self_eq_true, nextItem_first h]
  rfl

theorem readPart_next {cs : List Char} (h : Opens cs) (expected : String) :
    readPart 1 expected item (',' :: cs) = item cs := by
  have hplace : ((1 : Nat) == 0) = false := rfl
  rw [readPart, hplace, nextItem_comma h]
  rfl

theorem readPair_chars (depth : Nat) (p : String × String) (r : List Char) :
    readPair (depth + 1) ((pairJson p).chars ++ r) = .ok (p, r) := by
  have htext : (pairJson p).chars ++ r =
      '[' :: (quote p.1 ++ (',' :: (quote p.2 ++ (']' :: r)))) := by
    simp [pairJson, chars, tailChars]
  rw [htext]
  simp only [readPair, readSequence, skipBlanks_cons (c := '[') rfl, inList, enclose, bind,
    Except.bind, readPart_first (opens_quote _ _), readPart_next (opens_quote _ _),
    readStringValue_quote]
  rfl

/-- A list without items, or one that may nest deeper, is taken item by item. -/
theorem takes_sequence {write : α → List Char} {items : Nat → Reader α} {depth : Nat} {xs : List α}
    (expected : String) (h : ∀ x ∈ xs, Takes (items depth) (write x) x)
    (hopens : ∀ x ∈ xs, Opens (write x)) :
    Takes
      (readSequence expected (depth + 1) fun d cs => readItems (items d) (cs.length + 1) true cs)
      ('[' :: itemChars write xs) xs := by
  intro rest hrest
  exact takes_items h hopens rest hrest

theorem takes_pairs {depth : Nat} {attrs : List (String × String)}
    (h : Json.depth (.list (attrs.map pairJson)) ≤ depth) :
    Takes (readPairs depth) (chars (.list (attrs.map pairJson))) attrs := by
  obtain ⟨n, rfl⟩ := Nat.exists_eq_succ_of_ne_zero (Nat.ne_zero_of_lt h)
  rw [chars_list, itemChars_map]
  refine takes_sequence _ (fun p hp rest _ => ?_) fun p _ => opens_chars (j := pairJson p)
    ⟨trivial, trivial, trivial⟩
  have hn : 1 ≤ n := depthItems_le_iff.mp (Nat.le_of_succ_le_succ h) _ (List.mem_map_of_mem hp)
  obtain ⟨m, rfl⟩ := Nat.exists_eq_succ_of_ne_zero (Nat.ne_zero_of_lt hn)
  exact readPair_chars m p rest

theorem takes_child {depth : Nat} {o : Outline} (h : o.toJson.depth ≤ depth) :
    Takes (readChild depth) o.toJson.chars o := by
  intro rest hrest
  rw [readChild, takes_chars (exact_toJson o) h rest hrest]
  simp only [bind, Except.bind, ofJson?_toJson h]
  rfl

/-- Sibling nodes read back. -/
theorem takes_children {depth : Nat} {os : List Outline}
    (h : Json.depth (.list (toJsonList os)) ≤ depth) :
    Takes (readChildren depth) (chars (.list (toJsonList os))) os := by
  obtain ⟨n, rfl⟩ := Nat.exists_eq_succ_of_ne_zero (Nat.ne_zero_of_lt h)
  rw [chars_list, toJsonList_eq_map, itemChars_map]
  exact takes_sequence _ (fun o ho => takes_child (depth_toJson_child h ho))
    fun o _ => opens_chars (exact_toJson o)

theorem readMember_colon {name : String} {value : Reader α} {cs : List Char} :
    readMember name none value (':' :: cs) = value cs := rfl

/-- The text of an element after its opening brace. -/
def elementChars (o : ElementOutline) (rest : List Char) : List Char :=
  quote "tag" ++ ':' :: (quote o.tag ++ ',' :: (quote "attrs" ++ ':' ::
    (chars (.list (o.attrs.map pairJson)) ++ ',' :: (quote "children" ++ ':' ::
      (chars (.list (toJsonList o.children)) ++ '}' :: rest)))))

theorem chars_toJson_append (o : ElementOutline) (rest : List Char) :
    o.toJson.chars ++ rest = '{' :: elementChars o rest := by
  simp [ElementOutline.toJson, toJson, chars, memberTailChars, elementChars]

/-- The three members of an element are read in the order in which they are written. -/
theorem readElementMembers_chars {depth : Nat} {o : ElementOutline}
    (hattrs : Json.depth (.list (o.attrs.map pairJson)) ≤ depth)
    (hchildren : Json.depth (.list (toJsonList o.children)) ≤ depth) (fuel : Nat)
    (rest : List Char) :
    readElementMembers depth (fuel + 4) true {} (elementChars o rest) = .ok (o, '}' :: rest) := by
  rw [elementChars, readElementMembers, nextKey_first]
  simp only [bind, Except.bind, readMember_colon, readStringValue_quote]
  rw [readElementMembers, nextKey_comma]
  simp only [bind, Except.bind, readMember_colon, takes_pairs hattrs _ (delimited_comma _)]
  rw [readElementMembers, nextKey_comma]
  simp only [bind, Except.bind, readMember_colon, takes_children hchildren _ (delimited_brace _)]
  rfl

/-- An element reads back. -/
theorem takes_element {depth : Nat} {o : ElementOutline} (h : o.toJson.depth ≤ depth) :
    Takes (readElement depth) o.toJson.chars o := by
  obtain ⟨n, rfl⟩ := Nat.exists_eq_succ_of_ne_zero (Nat.ne_zero_of_lt h)
  obtain ⟨hattrs, hchildren⟩ := depth_toJson_element h
  intro rest _
  obtain ⟨fuel, hfuel⟩ : ∃ fuel, (elementChars o rest).length + 1 = fuel + 4 := by
    refine Nat.exists_eq_add_of_le' ?_
    simp only [elementChars, List.length_append, List.length_cons]
    omega
  rw [chars_toJson_append, readElement, skipBlanks_cons rfl]
  simp only [inObject, enclose, hfuel, readElementMembers_chars hattrs hchildren]
  rfl

end Outline
end MarkupEval
