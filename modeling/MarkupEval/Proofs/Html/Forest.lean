import Mathlib.Algebra.GroupWithZero.Nat
import MarkupEval.Html.Forest

/-!
# A forest that grows at its open elements

While a well-formed text is read, new nodes come last under the innermost open element (`grow`),
and nothing else changes. `Holds` says that a node stands below a slot and that none of its slots
is open, so that it stays as it is (`Holds.mono`) and is read off in the end
(`nodeWithin_of_holds`). `Spine` says what is below the open elements, innermost first: the children
that are complete and, last of all, the open element inside.
-/

namespace MarkupEval
namespace Html

namespace Forest

variable {f g : Forest}

theorem ext_slot? (h : ∀ i, f.slot? i = g.slot? i) : f = g := by
  obtain ⟨a⟩ := f
  obtain ⟨b⟩ := g
  exact congrArg Forest.mk (Array.ext_getElem? h)

theorem slot?_modify (f : Forest) (i : Nat) (change : Slot → Slot) (j : Nat) :
    (f.modify i change).slot? j = if i = j then (f.slot? j).map change else f.slot? j := by
  simp only [modify, slot?, Array.getElem?_modify]

theorem size_modify (f : Forest) (i : Nat) (change : Slot → Slot) :
    (f.modify i change).slots.size = f.slots.size := by
  simp [modify]

theorem slot?_create (f : Forest) (content : SlotContent) (j : Nat) :
    (f.create content).2.slot? j = if j = f.slots.size then some { content } else f.slot? j := by
  simp only [create, slot?, Array.getElem?_push]

theorem lt_size_of_slot? {i : Nat} {s : Slot} (h : f.slot? i = some s) : i < f.slots.size :=
  (Array.getElem?_eq_some_iff.mp h).1

/-- Puts a new node last under a parent. -/
def grow (f : Forest) (parent : Nat) (content : SlotContent) : Forest :=
  (f.create content).2.link parent none f.slots.size

theorem size_grow (f : Forest) (parent : Nat) (content : SlotContent) :
    (f.grow parent content).slots.size = f.slots.size + 1 := by
  rw [grow, link, size_modify, size_modify]
  simp [create]

variable {p : Nat}

/-- A new node under a parent: of the old slots the parent alone changes, by its new child. -/
theorem slot?_create_link (hp : p < f.slots.size) (content : SlotContent) (before : Option Nat)
    (j : Nat) :
    ((f.create content).2.link p before f.slots.size).slot? j =
      if j = f.slots.size then some ⟨content, some p, []⟩
      else if j = p then
        (f.slot? p).map fun s =>
          { s with children := s.children.insertIdx (position s.children before) f.slots.size }
      else f.slot? j := by
  rw [link, slot?_modify, slot?_modify, slot?_create]
  split
  · next h =>
    rw [if_neg (h ▸ Nat.ne_of_lt hp), if_pos h.symm, if_pos h.symm]
    rfl
  · next h =>
    rw [if_neg (Ne.symm h), if_neg (Ne.symm h)]
    split
    · next hj => rw [if_pos hj.symm, hj]
    · next hj => rw [if_neg (Ne.symm hj)]

theorem slot?_grow (hp : p < f.slots.size) (content : SlotContent) (j : Nat) :
    (f.grow p content).slot? j =
      if j = f.slots.size then some ⟨content, some p, []⟩
      else if j = p then
        (f.slot? p).map fun s => { s with children := s.children ++ [f.slots.size] }
      else f.slot? j := by
  rw [grow, slot?_create_link hp]
  simp only [position, List.insertIdx_length_self]

theorem slot?_grow_new (hp : p < f.slots.size) (content : SlotContent) :
    (f.grow p content).slot? f.slots.size = some ⟨content, some p, []⟩ := by
  rw [slot?_grow hp, if_pos rfl]

theorem slot?_grow_parent {s : Slot} (hs : f.slot? p = some s) (content : SlotContent) :
    (f.grow p content).slot? p = some { s with children := s.children ++ [f.slots.size] } := by
  have hp := lt_size_of_slot? hs
  rw [slot?_grow hp, if_neg (Nat.ne_of_lt hp), if_pos rfl, hs]
  rfl

theorem slot?_grow_of_ne (hp : p < f.slots.size) (content : SlotContent) {j : Nat}
    (hj : j < f.slots.size) (hne : j ≠ p) : (f.grow p content).slot? j = f.slot? j := by
  rw [slot?_grow hp, if_neg (Nat.ne_of_lt hj), if_neg hne]

/-! ## Putting pieces in -/

/-- A new node that is put in last. -/
theorem append_created (f : Forest) (p : Nat) (content : SlotContent) :
    (f.create content).2.append p (.node f.slots.size) = f.grow p content := by
  have hparent : (f.create content).2.parent? f.slots.size = none := by
    rw [parent?, slot?_create, if_pos rfl]
    rfl
  change ((f.create content).2.detach f.slots.size).link p none f.slots.size = _
  rw [detach, hparent]
  rfl

/-- A text that no text stands before is a node of its own. -/
theorem append_text (h : f.textBefore? p none = none) (s : String) :
    f.append p (.text s) = f.grow p (.text s) := by
  rw [append, insert, h]
  rfl

/-- A text extends one that was just put in. -/
theorem append_text_grow (hp : p < f.slots.size) (s t : String) :
    (f.grow p (.text s)).append p (.text t) = f.grow p (.text (s ++ t)) := by
  obtain ⟨slot, hslot⟩ : ∃ slot, f.slot? p = some slot := ⟨_, Array.getElem?_eq_getElem hp⟩
  have hbefore : (f.grow p (.text s)).textBefore? p none = some (f.slots.size, s) := by
    have hchildren : (f.grow p (.text s)).children p = slot.children ++ [f.slots.size] := by
      rw [children, slot?_grow_parent hslot]
      rfl
    simp [textBefore?, hchildren, position, slot?_grow_new hp]
  rw [append, insert, hbefore]
  refine ext_slot? fun j => ?_
  change Forest.slot? (modify _ _ _) j = _
  rw [slot?_modify, slot?_grow hp, slot?_grow hp]
  split
  · next h =>
    rw [if_pos h.symm, if_pos h.symm]
    rfl
  · next h => rw [if_neg (Ne.symm h), if_neg (Ne.symm h)]

/-! ## Complete nodes -/

mutual

/-- A node stands below a slot, and none of its slots is open. -/
def Holds (f : Forest) (opened : List Nat) (i : Nat) : Node → Prop
  | .text s => i ∉ opened ∧ ∃ parent below, f.slot? i = some ⟨.text s, parent, below⟩
  | .element tag attrs children =>
    i ∉ opened ∧ ∃ parent below, f.slot? i = some ⟨.element (.html tag) attrs, parent, below⟩ ∧
      f.HoldsAll opened below children

def HoldsAll (f : Forest) (opened : List Nat) : List Nat → List Node → Prop
  | [], [] => True
  | i :: is, n :: ns => f.Holds opened i n ∧ f.HoldsAll opened is ns
  | _, _ => False

end

variable {opened opened' : List Nat}

mutual

/-- A complete node stays as it is while the slots that are not open do. -/
theorem Holds.mono (h : ∀ i ∉ opened, i < f.slots.size → g.slot? i = f.slot? i ∧ i ∉ opened')
    {i : Nat} : ∀ {n : Node}, f.Holds opened i n → g.Holds opened' i n
  | .text _, ⟨hi, parent, below, hslot⟩ => by
    obtain ⟨hsame, hi'⟩ := h i hi (lt_size_of_slot? hslot)
    exact ⟨hi', parent, below, hsame.trans hslot⟩
  | .element _ _ _, ⟨hi, parent, below, hslot, hbelow⟩ => by
    obtain ⟨hsame, hi'⟩ := h i hi (lt_size_of_slot? hslot)
    exact ⟨hi', parent, below, hsame.trans hslot, HoldsAll.mono h hbelow⟩

theorem HoldsAll.mono (h : ∀ i ∉ opened, i < f.slots.size → g.slot? i = f.slot? i ∧ i ∉ opened') :
    ∀ {is : List Nat} {ns : List Node}, f.HoldsAll opened is ns → g.HoldsAll opened' is ns
  | [], [], _ => trivial
  | _ :: _, _ :: _, ⟨hhead, htail⟩ => ⟨Holds.mono h hhead, HoldsAll.mono h htail⟩

end

theorem HoldsAll.append {is : List Nat} {ns : List Node} (h : f.HoldsAll opened is ns) {i : Nat}
    {n : Node} (hn : f.Holds opened i n) : f.HoldsAll opened (is ++ [i]) (ns ++ [n]) := by
  induction ns generalizing is with
  | nil =>
    cases is with
    | nil => exact ⟨hn, trivial⟩
    | cons _ _ => exact h.elim
  | cons m ns ih =>
    cases is with
    | nil => exact h.elim
    | cons j is => exact ⟨h.1, ih h.2⟩

/-- What stands last among complete nodes. -/
theorem HoldsAll.getLast? {is : List Nat} {ns : List Node} (h : f.HoldsAll opened is ns) :
    (is = [] ∧ ns = []) ∨
      ∃ i n, is.getLast? = some i ∧ ns.getLast? = some n ∧ f.Holds opened i n := by
  induction ns generalizing is with
  | nil =>
    cases is with
    | nil => exact .inl ⟨rfl, rfl⟩
    | cons _ _ => exact h.elim
  | cons n ns ih =>
    cases is with
    | nil => exact h.elim
    | cons i is =>
      right
      obtain ⟨rfl, rfl⟩ | ⟨j, m, hj, hm, hholds⟩ := ih h.2
      · exact ⟨i, n, rfl, rfl, h.1⟩
      · refine ⟨j, m, ?_, ?_, hholds⟩
        · rw [List.getLast?_cons, hj]
          rfl
        · rw [List.getLast?_cons, hm]
          rfl

mutual

/-- A complete node is read off within a depth that is at least its size. -/
theorem nodeWithin_of_holds {i : Nat} : ∀ {n : Node} {depth : Nat}, f.Holds opened i n →
    n.size ≤ depth → f.nodeWithin depth i = some n
  | .text s, depth, ⟨_, parent, below, hslot⟩, hdepth => by
    obtain ⟨d, rfl⟩ := Nat.exists_eq_succ_of_ne_zero (Nat.ne_zero_of_lt hdepth)
    rw [nodeWithin, hslot]
  | .element tag attrs children, depth, ⟨_, parent, below, hslot, hbelow⟩, hdepth => by
    obtain ⟨d, rfl⟩ := Nat.exists_eq_succ_of_ne_zero (Nat.ne_zero_of_lt hdepth)
    rw [nodeWithin, hslot]
    simp only [filterMap_nodeWithin hbelow (Nat.le_of_succ_le_succ hdepth)]
    rfl

theorem filterMap_nodeWithin : ∀ {is : List Nat} {ns : List Node} {depth : Nat},
    f.HoldsAll opened is ns → Node.sizeList ns ≤ depth → is.filterMap (f.nodeWithin depth) = ns
  | [], [], _, _, _ => rfl
  | i :: is, n :: ns, depth, ⟨hhead, htail⟩, hdepth => by
    rw [Node.sizeList] at hdepth
    rw [List.filterMap_cons_some (nodeWithin_of_holds hhead (by omega)),
      filterMap_nodeWithin htail (by omega)]

end

end Forest

/-! ## Open elements -/

/-- An open element with its children that are complete. -/
structure Frame where
  slot : Nat
  tag : String
  attrs : Attributes
  children : List Node

namespace Frame

def push (e : Frame) (n : Node) : Frame := { e with children := e.children ++ [n] }

def toNode (e : Frame) : Node := .element e.tag e.attrs e.children

end Frame

/-- The slots of open elements. -/
def openSlots (frames : List Frame) : List Nat := frames.map (·.slot)

/-- What stands below the open elements, innermost first; `inner` is what follows the children of
the innermost one. -/
def Spine (f : Forest) (opened : List Nat) : List Nat → List Frame → Prop
  | _, [] => True
  | inner, e :: outer =>
    (∃ parent below,
      f.slot? e.slot = some ⟨.element (.html e.tag) e.attrs, parent, below ++ inner⟩ ∧
      f.HoldsAll opened below e.children) ∧ Spine f opened [e.slot] outer

/-- The forest stands for open elements with their children and for nothing else. -/
structure Stands (f : Forest) (frames : List Frame) : Prop where
  nodup : (openSlots frames).Nodup
  spine : Spine f (openSlots frames) [] frames
  size : f.slots.size = (frames.map fun e => e.toNode.size).sum + 1

theorem Spine.mono {f g : Forest} {opened opened' inner : List Nat} {frames : List Frame}
    (h : ∀ i ∉ opened, i < f.slots.size → g.slot? i = f.slot? i ∧ i ∉ opened')
    (hframes : ∀ i ∈ openSlots frames, i < f.slots.size → g.slot? i = f.slot? i)
    (hspine : Spine f opened inner frames) : Spine g opened' inner frames := by
  induction frames generalizing inner with
  | nil => trivial
  | cons e outer ih =>
    obtain ⟨⟨parent, below, hslot, hbelow⟩, houter⟩ := hspine
    rw [openSlots, List.map_cons, List.forall_mem_cons] at hframes
    exact ⟨⟨parent, below, (hframes.1 (Forest.lt_size_of_slot? hslot)).trans hslot,
      hbelow.mono h⟩, ih hframes.2 houter⟩

theorem Spine.lt_size {f : Forest} {opened inner : List Nat} {frames : List Frame}
    (h : Spine f opened inner frames) : ∀ i ∈ openSlots frames, i < f.slots.size := by
  induction frames generalizing inner with
  | nil => exact fun _ hi => nomatch hi
  | cons e outer ih =>
    obtain ⟨⟨parent, below, hslot, -⟩, houter⟩ := h
    rw [openSlots, List.map_cons, List.forall_mem_cons]
    exact ⟨Forest.lt_size_of_slot? hslot, ih houter⟩

namespace Stands

variable {f : Forest} {e e' : Frame} {outer : List Frame}

theorem lt_size (h : Stands f (e :: outer)) : e.slot < f.slots.size :=
  h.spine.lt_size _ (List.mem_cons_self ..)

theorem size_notMem (h : Stands f (e :: outer)) : f.slots.size ∉ openSlots (e :: outer) :=
  fun hmem => Nat.lt_irrefl _ (h.spine.lt_size _ hmem)

/-- Where the last child is no text, no text stands before what comes next. -/
theorem textBefore?_eq_none (h : Stands f (e :: outer))
    (hlast : ∀ n, e.children.getLast? = some n → n.isText = false) :
    f.textBefore? e.slot none = none := by
  obtain ⟨⟨parent, below, hslot, hbelow⟩, -⟩ := h.spine
  have hchildren : f.children e.slot = below := by
    rw [Forest.children, hslot, List.append_nil]
    rfl
  rw [Forest.textBefore?, hchildren, Forest.position]
  obtain ⟨rfl, -⟩ | ⟨i, n, hi, hn, hholds⟩ := hbelow.getLast?
  · rfl
  · rw [List.getLast?_eq_getElem?] at hi
    cases n with
    | text s => exact absurd (hlast _ hn) (by simp [Node.isText])
    | element tag attrs children =>
      obtain ⟨-, parent', below', hslot', -⟩ := hholds
      cases hlength : below.length with
      | zero => rfl
      | succ k =>
        rw [hlength, Nat.add_sub_cancel] at hi
        simp only [hi, hslot']

/-- What is put into the innermost element changes no complete node. -/
theorem slot?_grow_of_notMem (h : Stands f (e :: outer)) (content : SlotContent) {i : Nat}
    (hi : i ∉ openSlots (e :: outer)) (hsize : i < f.slots.size) :
    (f.grow e.slot content).slot? i = f.slot? i := by
  refine Forest.slot?_grow_of_ne h.lt_size content hsize ?_
  rintro rfl
  exact hi (List.mem_cons_self ..)

/-- What is put into the innermost element changes none of the elements around it. -/
theorem slot?_grow_of_mem (h : Stands f (e :: outer)) (content : SlotContent) {i : Nat}
    (hi : i ∈ openSlots outer) (hsize : i < f.slots.size) :
    (f.grow e.slot content).slot? i = f.slot? i := by
  refine Forest.slot?_grow_of_ne h.lt_size content hsize ?_
  rintro rfl
  exact (List.nodup_cons.mp h.nodup).1 hi

/-- A text of the innermost element is complete. -/
theorem text (h : Stands f (e :: outer)) (s : String) :
    Stands (f.grow e.slot (.text s)) (e.push (.text s) :: outer) := by
  obtain ⟨⟨parent, below, hslot, hbelow⟩, houter⟩ := h.spine
  have hmono : ∀ i ∉ openSlots (e :: outer), i < f.slots.size →
      (f.grow e.slot (.text s)).slot? i = f.slot? i ∧ i ∉ openSlots (e :: outer) :=
    fun i hi hsize => ⟨h.slot?_grow_of_notMem _ hi hsize, hi⟩
  refine ⟨h.nodup, ⟨⟨parent, below ++ [f.slots.size], ?_, ?_⟩, ?_⟩, ?_⟩
  · rw [List.append_nil] at hslot ⊢
    exact Forest.slot?_grow_parent hslot _
  · exact (hbelow.mono hmono).append
      ⟨h.size_notMem, some e.slot, [], Forest.slot?_grow_new h.lt_size _⟩
  · exact houter.mono hmono fun i hi hsize => h.slot?_grow_of_mem _ hi hsize
  · rw [Forest.size_grow, h.size]
    simp [Frame.toNode, Frame.push, Node.size, Node.sizeList_append, Node.sizeList]
    omega

/-- An element that is opened stands last in the one that was innermost. -/
theorem openTag (h : Stands f (e :: outer)) (tag : String) (attrs : Attributes) :
    Stands (f.grow e.slot (.element (.html tag) attrs))
      (⟨f.slots.size, tag, attrs, []⟩ :: e :: outer) := by
  obtain ⟨⟨parent, below, hslot, hbelow⟩, houter⟩ := h.spine
  have hmono : ∀ i ∉ openSlots (e :: outer), i < f.slots.size →
      (f.grow e.slot (.element (.html tag) attrs)).slot? i = f.slot? i ∧
        i ∉ openSlots (⟨f.slots.size, tag, attrs, []⟩ :: e :: outer) := by
    intro i hi hsize
    refine ⟨h.slot?_grow_of_notMem _ hi hsize, fun hmem => ?_⟩
    rcases List.mem_cons.mp hmem with rfl | hmem
    · exact Nat.lt_irrefl _ hsize
    · exact hi hmem
  refine ⟨List.nodup_cons.mpr ⟨h.size_notMem, h.nodup⟩, ⟨?_, ⟨parent, below, ?_, ?_⟩, ?_⟩, ?_⟩
  · exact ⟨some e.slot, [], Forest.slot?_grow_new h.lt_size _, trivial⟩
  · rw [List.append_nil] at hslot
    exact Forest.slot?_grow_parent hslot _
  · exact hbelow.mono hmono
  · exact houter.mono hmono fun i hi hsize => h.slot?_grow_of_mem _ hi hsize
  · rw [Forest.size_grow, h.size]
    simp [Frame.toNode, Node.size, Node.sizeList]
    omega

/-- An element that is closed is a complete child of the element around it. -/
theorem close (h : Stands f (e :: e' :: outer)) : Stands f (e'.push e.toNode :: outer) := by
  obtain ⟨hhead, htail⟩ := List.nodup_cons.mp h.nodup
  obtain ⟨⟨parent, below, hslot, hbelow⟩, ⟨parent', below', hslot', hbelow'⟩, houter⟩ := h.spine
  have hmono : ∀ i ∉ openSlots (e :: e' :: outer), i < f.slots.size →
      f.slot? i = f.slot? i ∧ i ∉ openSlots (e'.push e.toNode :: outer) :=
    fun i hi _ => ⟨rfl, fun hmem => hi (List.mem_cons_of_mem _ hmem)⟩
  rw [List.append_nil] at hslot
  refine ⟨htail, ⟨⟨parent', below' ++ [e.slot], ?_, ?_⟩, ?_⟩, ?_⟩
  · rw [List.append_nil]
    exact hslot'
  · exact (hbelow'.mono hmono).append ⟨hhead, parent, below, hslot, hbelow.mono hmono⟩
  · exact houter.mono hmono fun _ _ _ => rfl
  · rw [h.size]
    simp [Frame.toNode, Frame.push, Node.size, Node.sizeList_append, Node.sizeList]
    omega

/-- The element inside the root is read off with all of its children. -/
theorem node?_eq_some {root : Frame} (h : Stands f [e, root]) : f.node? e.slot = some e.toNode := by
  obtain ⟨⟨parent, below, hslot, hbelow⟩, -⟩ := h.spine
  have hsize : f.slots.size = e.toNode.size + root.toNode.size + 1 := by
    rw [h.size]
    simp
  have hnode : e.toNode.size = Node.sizeList e.children + 1 := by
    rw [Frame.toNode, Node.size]
  rw [List.append_nil] at hslot
  rw [Forest.node?, hsize, Forest.nodeWithin, hslot]
  simp only [Forest.filterMap_nodeWithin hbelow
    (show Node.sizeList e.children ≤ e.toNode.size + root.toNode.size by omega)]
  rfl

end Stands

end Html
end MarkupEval
