import MarkupEval.Proofs.Transformer.SetProperty

/-!
# Bounds

Setting a property reads, changes and cuts lists at the indexes that the segments of its path give.
Here the same is written down with every access checked: a `Checked` computation ends in nothing as
soon as an index or a slice is outside of its list. Setting never ends so (`setChecked_eq`).
-/

namespace MarkupEval
namespace Value

/-- Computations that end in nothing where an index or a slice is outside of its list. -/
abbrev Checked := ExceptT TagError Option

section
variable {α β : Type}

def outside : Checked α := ExceptT.mk none

/-- A computation that stays inside. -/
def inside (x : Except TagError α) : Checked α := ExceptT.mk (some x)

/-- The item at an index. -/
def itemWithin (items : List α) (i : Nat) : Checked α :=
  if h : i < items.length then pure items[i] else outside

/-- A list with another item at an index. -/
def setWithin (items : List α) (i : Nat) (x : α) : Checked (List α) :=
  if i < items.length then pure (items.set i x) else outside

/-- The slice from one index up to another one. -/
def sliceWithin (items : List α) (start stop : Nat) : Checked (List α) :=
  if start ≤ stop ∧ stop ≤ items.length then pure ((items.take stop).drop start) else outside

variable (segments : List String) (depth : Nat) (segment : String)

def checkedPath : Checked String := do
  return String.intercalate "." (← sliceWithin segments 0 (depth + 1))

def checkedIndex (length : Nat) : Checked Nat :=
  match Text.readIndex? segment.toList with
  | none => do throw (.notNumeric propertyTag (← checkedPath segments depth) segment)
  | some i =>
    if length < i then do
      throw (.outOfRange propertyTag (← checkedPath segments depth) i length)
    else pure i

def checkedItem (items : List α) : Checked (Nat × α) := do
  let i ← checkedIndex segments depth segment items.length
  match items[i]? with
  | some x => return (i, x)
  | none => throw (.outOfRange propertyTag (← checkedPath segments depth) i items.length)

/-- The slice before an index, new nodes, and the slice after the index if it is not the end. -/
def checkedSplice (ns : List Node) (i : Nat) (new : List Node) : Checked (List Node) := do
  let before ← sliceWithin ns 0 i
  let after ← if i < ns.length then sliceWithin ns (i + 1) ns.length else pure []
  return before ++ new ++ after

def checkedFault (v : Value) : Checked Value := do
  throw (.notTraversable propertyTag (← checkedPath segments depth) v.kind)

def setLastChecked (w : Value) : Value → Checked Value
  | .array items => do
    let i ← checkedIndex segments depth segment items.length
    if i = items.length then return .array (items ++ [w])
    else return .array (← setWithin items i w)
  | .record es => return .record (Assoc.insert segment w es)
  | .element e => do
    let i ← checkedIndex segments depth segment e.children.length
    return .element { e with children := ← checkedSplice e.children i w.nodesOf }
  | .nodes ns => do
    let i ← checkedIndex segments depth segment ns.length
    return .nodes (← checkedSplice ns i w.nodesOf)
  | .string s => do
    let i ← checkedIndex segments depth segment s.length
    return .string (spliceText s i w.stringOf)
  | .text s => do
    let i ← checkedIndex segments depth segment s.length
    return .text (spliceText s i w.stringOf)
  | v => checkedFault segments depth v

end

/-- Sets along the last segments of a path, of which the number is given. -/
def setChecked (segments : List String) (w : Value) : Nat → Value → Checked Value
  | 0, _ => outside
  | 1, v => do
    let depth := segments.length - 1
    setLastChecked segments depth (← itemWithin segments depth) w v
  | left + 2, v => do
    let depth := segments.length - (left + 2)
    let segment ← itemWithin segments depth
    match v with
    | .array items => do
      let (i, x) ← checkedItem segments depth segment items
      return .array (← setWithin items i (← setChecked segments w (left + 1) x))
    | .record es =>
      match Assoc.get? segment es with
      | none => throw (.missingKey propertyTag (← checkedPath segments depth) segment)
      | some x =>
        return .record (Assoc.insert segment (← setChecked segments w (left + 1) x) es)
    | .element e => do
      let (i, n) ← checkedItem segments depth segment e.children
      let x ← setChecked segments w (left + 1) (ofNode n)
      return .element { e with children := ← checkedSplice e.children i x.nodesOf }
    | .nodes ns => do
      let (i, n) ← checkedItem segments depth segment ns
      let x ← setChecked segments w (left + 1) (ofNode n)
      return .nodes (← checkedSplice ns i x.nodesOf)
    | v => checkedFault segments depth v

section
variable {α β : Type} {w : Value} {walked rest : List String} {s : String}

theorem bind_inside {x : Except TagError α} {f : α → Except TagError β} {g : α → Checked β}
    (h : ∀ a, x = .ok a → g a = inside (f a)) : inside x >>= g = inside (x >>= f) := by
  cases x with
  | error e => rfl
  | ok a => exact h a rfl

theorem inside_ok_bind (a : α) (f : α → Checked β) : inside (.ok a) >>= f = f a := rfl

theorem itemWithin_eq {walked rest : List α} {x : α} :
    itemWithin (walked ++ x :: rest) walked.length = inside (.ok x) := by
  simp [itemWithin]
  rfl

theorem setWithin_eq {items : List α} {i : Nat} (hi : i < items.length) (x : α) :
    setWithin items i x = inside (.ok (splice items i [x])) := by
  rw [setWithin, if_pos hi, splice_of_lt hi]
  rfl

theorem sliceWithin_eq {items : List α} {start stop : Nat} (hstart : start ≤ stop)
    (hstop : stop ≤ items.length) :
    sliceWithin items start stop = inside (.ok ((items.take stop).drop start)) :=
  if_pos ⟨hstart, hstop⟩

theorem checkedSplice_eq {ns : List Node} {i : Nat} (hi : i ≤ ns.length) (new : List Node) :
    checkedSplice ns i new = inside (.ok (splice ns i new)) := by
  rw [checkedSplice, sliceWithin_eq (Nat.zero_le i) hi]
  split
  · next hlt =>
    rw [sliceWithin_eq hlt (le_refl _), List.take_length]
    rfl
  · next hge =>
    have hend : ns.drop (i + 1) = [] := List.drop_eq_nil_of_le (by omega)
    rw [splice, hend]
    rfl

theorem checkedPath_eq :
    checkedPath (walked ++ s :: rest) walked.length = inside (.ok (walkedPath walked s)) := by
  have htake : (walked ++ s :: rest).take (walked.length + 1) = walked ++ [s] := by
    rw [List.take_length_add_append]
    rfl
  rw [checkedPath, sliceWithin_eq (Nat.zero_le _) (by simp), htake]
  rfl

theorem checkedIndex_eq (n : Nat) : checkedIndex (walked ++ s :: rest) walked.length s n =
    inside (indexAt walked s n) := by
  rw [checkedIndex, indexAt, checkedPath_eq]
  cases Text.readIndex? s.toList with
  | none => rfl
  | some i =>
    dsimp only
    split <;> rfl

theorem checkedItem_eq (items : List α) : checkedItem (walked ++ s :: rest) walked.length s items =
    inside (itemAt walked s items) := by
  rw [checkedItem, checkedIndex_eq, checkedPath_eq]
  refine bind_inside fun i hi => ?_
  cases items[i]? <;> rfl

theorem checkedFault_eq (v : Value) : checkedFault (walked ++ s :: rest) walked.length v =
    inside (.error (notTraversable walked s v)) := by
  rw [checkedFault, checkedPath_eq]
  rfl

theorem setLastChecked_eq (v : Value) :
    setLastChecked (walked ++ s :: rest) walked.length s w v = inside (setLast w walked s v) := by
  cases v with
  | record es => rfl
  | array items =>
    rw [setLastChecked, setLast, checkedIndex_eq]
    refine bind_inside fun i hi => ?_
    obtain ⟨-, hle⟩ := indexAt_eq_ok_iff.mp hi
    split
    · next hlast =>
      rw [hlast, splice_length]
      rfl
    · next hne =>
      rw [setWithin_eq (lt_of_le_of_ne hle hne)]
      rfl
  | element e | nodes ns =>
    rw [setLastChecked, setLast, checkedIndex_eq]
    refine bind_inside fun i hi => ?_
    rw [checkedSplice_eq (indexAt_eq_ok_iff.mp hi).2]
    rfl
  | string t | text t =>
    rw [setLastChecked, setLast, checkedIndex_eq]
    exact bind_inside fun i hi => rfl
  | _ => exact checkedFault_eq _

/-- No index and no slice of the way is outside of its list. -/
theorem setChecked_eq (w : Value) (walked rest : List String) (hrest : rest ≠ []) (v : Value) :
    setChecked (walked ++ rest) w rest.length v = inside (setAlong w walked rest v) := by
  induction rest generalizing walked v with
  | nil => exact absurd rfl hrest
  | cons s rest ih =>
    cases rest with
    | nil =>
      have hdepth : (walked ++ [s]).length - 1 = walked.length := by simp
      rw [List.length_singleton, setChecked, hdepth, itemWithin_eq]
      exact setLastChecked_eq v
    | cons s' rest =>
      have hdepth : (walked ++ s :: s' :: rest).length - (rest.length + 2) = walked.length := by
        simp
      have hnext (x : Value) := ih (walked ++ [s]) (List.cons_ne_nil _ _) x
      simp only [List.append_assoc, List.singleton_append, List.length_cons] at hnext
      rw [List.length_cons, List.length_cons, setChecked, hdepth, itemWithin_eq, inside_ok_bind]
      cases v with
      | array items =>
        simp only [setAlong, checkedItem_eq]
        refine bind_inside ?_
        rintro ⟨i, x⟩ hx
        have hlt := (List.getElem?_eq_some_iff.mp (itemAt_eq_ok_iff.mp hx).2).1
        simp only [hnext]
        refine bind_inside fun x' _ => ?_
        rw [setWithin_eq hlt]
        rfl
      | record es =>
        simp only [setAlong, checkedPath_eq]
        cases Assoc.get? s es with
        | none => rfl
        | some x =>
          simp only [hnext]
          exact bind_inside fun x' _ => rfl
      | element e | nodes ns =>
        simp only [setAlong, checkedItem_eq]
        refine bind_inside ?_
        rintro ⟨i, n⟩ hn
        have hlt := (List.getElem?_eq_some_iff.mp (itemAt_eq_ok_iff.mp hn).2).1
        simp only [hnext]
        refine bind_inside fun x' _ => ?_
        rw [checkedSplice_eq hlt.le]
        rfl
      | _ => exact checkedFault_eq _

end

end Value
end MarkupEval
