import Mathlib.Data.List.Basic
import MarkupEval.Proofs.Json.Scalars

/-!
# Written JSON reads back

A value is read back from its compact text (`read_chars`) if all its numbers are integers of 64 bits
(`Exact`) and its lists and objects lie inside each other no deeper than a reader goes (`depth`).
The lemmas about brackets take the reader of an item as a parameter, as the reader does, so that
they hold for items of any shape.
-/

namespace MarkupEval
namespace Json

open Text NumberLayout

variable {α : Type}

mutual

/-- How many lists and objects lie inside each other. -/
def depth : Json → Nat
  | .list items => depthItems items + 1
  | .object members => depthMembers members + 1
  | _ => 0

def depthItems : List Json → Nat
  | [] => 0
  | j :: r => max (depth j) (depthItems r)

def depthMembers : List (String × Json) → Nat
  | [] => 0
  | (_, j) :: r => max (depth j) (depthMembers r)

end

mutual

/-- Every number is an integer of 64 bits. -/
def Exact : Json → Prop
  | .integer n => IsInteger64 n
  | .float _ => False
  | .list items => AllExact items
  | .object members => MembersExact members
  | _ => True

def AllExact : List Json → Prop
  | [] => True
  | j :: r => Exact j ∧ AllExact r

def MembersExact : List (String × Json) → Prop
  | [] => True
  | (_, j) :: r => Exact j ∧ MembersExact r

end

theorem depthItems_le_iff {n : Nat} {items : List Json} :
    depthItems items ≤ n ↔ ∀ j ∈ items, j.depth ≤ n := by
  induction items with
  | nil => simp [depthItems]
  | cons j r ih => rw [depthItems, Nat.max_le, ih, List.forall_mem_cons]

theorem depthMembers_le_iff {n : Nat} {members : List (String × Json)} :
    depthMembers members ≤ n ↔ ∀ m ∈ members, m.2.depth ≤ n := by
  induction members with
  | nil => simp [depthMembers]
  | cons m r ih =>
    obtain ⟨k, j⟩ := m
    rw [depthMembers, Nat.max_le, ih, List.forall_mem_cons]

theorem allExact_iff {items : List Json} : AllExact items ↔ ∀ j ∈ items, j.Exact := by
  induction items with
  | nil => simp [AllExact]
  | cons j r ih => simp [AllExact, ih]

theorem membersExact_iff {members : List (String × Json)} :
    MembersExact members ↔ ∀ m ∈ members, m.2.Exact := by
  induction members with
  | nil => simp [MembersExact]
  | cons m r ih =>
    obtain ⟨k, j⟩ := m
    rw [MembersExact, ih, List.forall_mem_cons]

/-! ## The text between brackets -/

/-- The text of a list after its opening bracket. -/
def itemChars (write : α → List Char) : List α → List Char
  | [] => [']']
  | x :: xs => write x ++ xs.flatMap (fun x => ',' :: write x) ++ [']']

/-- The text of an object after its opening brace. -/
def memberChars (write : α → List Char) : List (String × α) → List Char
  | [] => ['}']
  | (k, x) :: ms =>
    quote k ++ ':' :: write x ++
      ms.flatMap (fun m => ',' :: (quote m.1 ++ ':' :: write m.2)) ++ ['}']

theorem chars_list (items : List Json) : chars (.list items) = '[' :: itemChars chars items := by
  have htail : ∀ js, tailChars js = js.flatMap (fun j => ',' :: chars j) ++ [']'] := by
    intro js
    induction js with
    | nil => rfl
    | cons j js ih => simp [tailChars, ih]
  cases items with
  | nil => rfl
  | cons j js => simp [chars, itemChars, htail]

theorem chars_object (members : List (String × Json)) :
    chars (.object members) = '{' :: memberChars chars members := by
  have htail : ∀ ms, memberTailChars ms =
      ms.flatMap (fun m => ',' :: (quote m.1 ++ ':' :: chars m.2)) ++ ['}'] := by
    intro ms
    induction ms with
    | nil => rfl
    | cons m ms ih =>
      obtain ⟨k, j⟩ := m
      simp [memberTailChars, ih]
  cases members with
  | nil => rfl
  | cons m ms =>
    obtain ⟨k, j⟩ := m
    simp [chars, memberChars, htail]

theorem itemChars_map {β : Type} (write : α → List Char) (f : β → α) (xs : List β) :
    itemChars write (xs.map f) = itemChars (fun x => write (f x)) xs := by
  cases xs with
  | nil => rfl
  | cons x xs => simp [itemChars, List.flatMap_map]

/-! ## Items -/

theorem nextItem_first {cs : List Char} (h : Opens cs) : nextItem true cs = .ok (true, cs) := by
  obtain ⟨c, r, rfl, hblank, hbracket⟩ := h.exists_cons
  rw [nextItem, skipBlanks_cons hblank]
  split
  · next heq => cases heq
  · next heq => exact absurd (List.cons.inj heq).1 hbracket
  · next heq => cases heq; rfl

theorem nextItem_comma {cs : List Char} (h : Opens cs) :
    nextItem false (',' :: cs) = .ok (true, cs) := by
  obtain ⟨c, r, rfl, hblank, hbracket⟩ := h.exists_cons
  rw [nextItem, skipBlanks_cons rfl]
  split
  · next heq => cases heq
  · next heq => exact absurd (List.cons.inj heq).1 (by decide)
  · next heq =>
    cases heq
    rw [if_neg Bool.false_ne_true, if_pos rfl, skipBlanks_cons hblank]
    split
    · next heq => cases heq
    · next heq => exact absurd (List.cons.inj heq).1 hbracket
    · next heq => rfl

variable {item : Reader α} {write : α → List Char}

theorem readItems_cons {first : Bool} {cs r r' : List Char} {x : α}
    (hnext : nextItem first cs = .ok (true, r)) (hitem : item r = .ok (x, r')) (fuel : Nat) :
    readItems item (fuel + 1) first cs =
      (readItems item fuel false r').map fun p => (x :: p.1, p.2) := by
  rw [readItems, hnext]
  simp only [bind, Except.bind, hitem]
  cases readItems item fuel false r' <;> rfl

theorem delimited_items (write : α → List Char) (xs : List α) (rest : List Char) :
    Delimited (xs.flatMap (fun x => ',' :: write x) ++ ']' :: rest) := by
  cases xs with
  | nil => exact delimited_bracket rest
  | cons x xs => exact delimited_comma _

theorem readItems_after {xs : List α} (h : ∀ x ∈ xs, Takes item (write x) x)
    (hopens : ∀ x ∈ xs, Opens (write x)) {fuel : Nat} (hfuel : xs.length < fuel)
    (rest : List Char) :
    readItems item fuel false (xs.flatMap (fun x => ',' :: write x) ++ ']' :: rest) =
      .ok (xs, ']' :: rest) := by
  induction xs generalizing fuel with
  | nil =>
    obtain ⟨n, rfl⟩ := Nat.exists_eq_succ_of_ne_zero (Nat.ne_zero_of_lt hfuel)
    rfl
  | cons x xs ih =>
    obtain ⟨n, rfl⟩ := Nat.exists_eq_succ_of_ne_zero (Nat.ne_zero_of_lt hfuel)
    rw [List.forall_mem_cons] at h hopens
    have hnext := nextItem_comma
      (hopens.1.append (xs.flatMap (fun x => ',' :: write x) ++ ']' :: rest))
    rw [List.flatMap_cons, List.cons_append, List.cons_append, List.append_assoc,
      readItems_cons hnext (h.1 _ (delimited_items write xs rest)),
      ih h.2 hopens.2 (Nat.lt_of_succ_lt_succ hfuel)]
    rfl

/-- A list whose items are taken is taken after its opening bracket. -/
theorem takes_items {xs : List α} (h : ∀ x ∈ xs, Takes item (write x) x)
    (hopens : ∀ x ∈ xs, Opens (write x)) :
    Takes (readList item) (itemChars write xs) xs := by
  intro rest _
  have hread : readItems item ((itemChars write xs ++ rest).length + 1) true
      (itemChars write xs ++ rest) = .ok (xs, ']' :: rest) := by
    cases xs with
    | nil => rfl
    | cons x xs =>
      rw [List.forall_mem_cons] at h hopens
      have hlength := length_le_flatMap (f := fun x => ',' :: write x) (by simp) xs
      have htext : itemChars write (x :: xs) ++ rest =
          write x ++ (xs.flatMap (fun x => ',' :: write x) ++ ']' :: rest) := by
        simp [itemChars]
      rw [htext, readItems_cons (nextItem_first (hopens.1.append _))
        (h.1 _ (delimited_items write xs rest)), readItems_after h.2 hopens.2]
      · rfl
      · simp only [List.length_append, List.length_cons]
        omega
  simp only [readList, inList, enclose, hread]
  rfl

/-! ## Members -/

theorem nextKey_first (k : String) (r : List Char) :
    nextKey true (quote k ++ r) = .ok (some k, r) := by
  rw [quote_append, nextKey, skipBlanks_cons rfl]
  change (readString _ >>= fun x => .ok (some x.1, x.2)) = _
  rw [readString_escaped]
  rfl

theorem nextKey_comma (k : String) (r : List Char) :
    nextKey false (',' :: (quote k ++ r)) = .ok (some k, r) := by
  rw [quote_append, nextKey, skipBlanks_cons rfl]
  change (readString _ >>= fun x => .ok (some x.1, x.2)) = _
  rw [readString_escaped]
  rfl

theorem readMembers_cons {first : Bool} {cs r r' : List Char} {k : String} {x : α}
    (hnext : nextKey first cs = .ok (some k, ':' :: r)) (hitem : item r = .ok (x, r'))
    (fuel : Nat) :
    readMembers item (fuel + 1) first cs =
      (readMembers item fuel false r').map fun p => ((k, x) :: p.1, p.2) := by
  rw [readMembers, hnext]
  have hcolon : readColon (':' :: r) = .ok r := rfl
  simp only [bind, Except.bind, hcolon, hitem]
  cases readMembers item fuel false r' <;> rfl

theorem delimited_members (write : α → List Char) (ms : List (String × α)) (rest : List Char) :
    Delimited (ms.flatMap (fun m => ',' :: (quote m.1 ++ ':' :: write m.2)) ++ '}' :: rest) := by
  cases ms with
  | nil => exact delimited_brace rest
  | cons m ms => exact delimited_comma _

theorem readMembers_after {ms : List (String × α)} (h : ∀ m ∈ ms, Takes item (write m.2) m.2)
    {fuel : Nat} (hfuel : ms.length < fuel) (rest : List Char) :
    readMembers item fuel false
        (ms.flatMap (fun m => ',' :: (quote m.1 ++ ':' :: write m.2)) ++ '}' :: rest) =
      .ok (ms, '}' :: rest) := by
  induction ms generalizing fuel with
  | nil =>
    obtain ⟨n, rfl⟩ := Nat.exists_eq_succ_of_ne_zero (Nat.ne_zero_of_lt hfuel)
    rfl
  | cons m ms ih =>
    obtain ⟨n, rfl⟩ := Nat.exists_eq_succ_of_ne_zero (Nat.ne_zero_of_lt hfuel)
    rw [List.forall_mem_cons] at h
    simp only [List.flatMap_cons, List.cons_append, List.append_assoc]
    rw [readMembers_cons (nextKey_comma m.1 _) (h.1 _ (delimited_members write ms rest)),
      ih h.2 (Nat.lt_of_succ_lt_succ hfuel)]
    rfl

/-- An object whose values are taken is taken after its opening brace. -/
theorem takes_members {ms : List (String × α)} (h : ∀ m ∈ ms, Takes item (write m.2) m.2) :
    Takes (readObject item) (memberChars write ms) ms := by
  intro rest _
  have hread : readMembers item ((memberChars write ms ++ rest).length + 1) true
      (memberChars write ms ++ rest) = .ok (ms, '}' :: rest) := by
    cases ms with
    | nil => rfl
    | cons m ms =>
      rw [List.forall_mem_cons] at h
      have hlength := length_le_flatMap
        (f := fun m => ',' :: (quote m.1 ++ ':' :: write m.2)) (by simp) ms
      have htext : memberChars write (m :: ms) ++ rest = quote m.1 ++ (':' :: (write m.2 ++
          (ms.flatMap (fun m => ',' :: (quote m.1 ++ ':' :: write m.2)) ++ '}' :: rest))) := by
        simp [memberChars]
      rw [htext, readMembers_cons (nextKey_first m.1 _) (h.1 _ (delimited_members write ms rest)),
        readMembers_after h.2]
      · rfl
      · simp only [List.length_append, List.length_cons]
        omega
  simp only [readObject, inObject, enclose, hread]
  rfl

/-! ## Values -/

theorem opens_chars {j : Json} (h : j.Exact) : Opens j.chars := by
  cases j with
  | null => exact ⟨rfl, by decide⟩
  | bool b => cases b <;> exact ⟨rfl, by decide⟩
  | integer n => exact opens_intChars n
  | float x => exact h.elim
  | string s => exact ⟨rfl, by decide⟩
  | list items => rw [chars_list]; exact ⟨rfl, by decide⟩
  | object members => rw [chars_object]; exact ⟨rfl, by decide⟩

/-- A digit starts a number. -/
theorem readValue_digit {c : Char} (h : isDigit c = true) (depth : Nat) (r : List Char) :
    readValue depth (c :: r) = readNumber false (c :: r) := by
  rw [readValue, skipBlanks_cons (isBlankByte_of_isDigit h)]
  split
  case h_9 heq => cases heq; exact if_pos h
  case h_1 heq => cases heq
  all_goals
    next heq =>
    obtain ⟨rfl, -⟩ := List.cons.inj heq
    exact absurd h (by decide)

theorem readValue_minus (depth : Nat) (r : List Char) :
    readValue depth ('-' :: r) = readNumber true r := by
  rw [readValue]
  rfl

theorem readValue_quote (depth : Nat) (s : String) (r : List Char) :
    readValue depth (quote s ++ r) = .ok (.string s, r) := by
  rw [quote_append, readValue]
  change (readString _ >>= fun x => .ok (Json.string x.1, x.2)) = _
  rw [readString_escaped]
  rfl

theorem takes_integer {n : Int} (h : IsInteger64 n) (depth : Nat) :
    Takes (readValue depth) (intChars n) (.integer n) := by
  intro rest hrest
  obtain ⟨hlow, hhigh⟩ := h
  unfold intChars
  split
  · next hneg =>
    have hmax : maxNegative ≤ maxSignificand := by decide
    have hread := readNumber_digitChars true (n := n.natAbs) (by omega) rest hrest
    have hwhole : wholeNumber true n.natAbs = .integer n := by
      rw [wholeNumber, if_pos rfl, if_neg (by omega)]
      congr 1
      omega
    rw [List.cons_append, readValue_minus, hread, hwhole]
  · next hnonneg =>
    have hread := readNumber_digitChars false (n := n.natAbs) (by omega) rest hrest
    have hwhole : wholeNumber false n.natAbs = .integer n := by
      rw [wholeNumber, if_neg Bool.false_ne_true]
      congr 1
      omega
    rw [hwhole] at hread
    cases hds : digitChars n.natAbs with
    | nil => exact absurd hds Nat.toDigits_ne_nil
    | cons c ds =>
      have hc : isDigit c = true := isDigit_of_mem_digitChars (hds ▸ List.mem_cons_self ..)
      rw [hds, List.cons_append] at hread
      rw [List.cons_append, readValue_digit hc, hread]

/-- A written value reads back where it nests no deeper than the reader goes. -/
theorem takes_chars {depth : Nat} {j : Json} (hexact : j.Exact) (hdepth : j.depth ≤ depth) :
    Takes (readValue depth) j.chars j := by
  induction depth using Nat.strongRecOn generalizing j with | _ depth ih
  cases j with
  | null =>
    intro rest _
    rw [readValue]
    rfl
  | bool b =>
    intro rest _
    rw [readValue]
    cases b <;> rfl
  | integer n => exact takes_integer hexact depth
  | float x => exact hexact.elim
  | string s => exact fun rest _ => readValue_quote depth s rest
  | list items =>
    obtain ⟨n, rfl⟩ := Nat.exists_eq_succ_of_ne_zero (Nat.ne_zero_of_lt hdepth)
    rw [Exact, allExact_iff] at hexact
    have hitems := depthItems_le_iff.mp (Nat.le_of_succ_le_succ hdepth)
    have htakes := takes_items (fun j hj => ih n n.lt_succ_self (hexact j hj) (hitems j hj))
      fun j hj => opens_chars (hexact j hj)
    intro rest hrest
    rw [chars_list, List.cons_append, readValue]
    change (readList (readValue n) _ >>= fun x => .ok (Json.list x.1, x.2)) = _
    rw [htakes rest hrest]
    rfl
  | object members =>
    obtain ⟨n, rfl⟩ := Nat.exists_eq_succ_of_ne_zero (Nat.ne_zero_of_lt hdepth)
    rw [Exact, membersExact_iff] at hexact
    have hmembers := depthMembers_le_iff.mp (Nat.le_of_succ_le_succ hdepth)
    have htakes := takes_members fun m hm => ih n n.lt_succ_self (hexact m hm) (hmembers m hm)
    intro rest hrest
    rw [chars_object, List.cons_append, readValue]
    change (readObject (readValue n) _ >>= fun x => .ok (Json.object x.1, x.2)) = _
    rw [htakes rest hrest]
    rfl

theorem readAll_eq_ok {reader : Reader α} {cs : List Char} {x : α} (h : Takes reader cs x) :
    readAll reader cs = .ok x := by
  have hread := h [] delimited_nil
  rw [List.append_nil] at hread
  rw [readAll, hread]
  rfl

/-- The text of a value reads as the value. -/
theorem read_chars {j : Json} (hexact : j.Exact) (hdepth : j.depth ≤ maxDepth) :
    read j.chars = .ok j :=
  readAll_eq_ok (takes_chars hexact hdepth)

end Json
end MarkupEval
