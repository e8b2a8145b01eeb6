import MarkupEval.Proofs.Html.ReadOff

/-!
# The forest that calls construct

Whoever reads a document constructs its forest by calls: nodes are created, put in, moved and taken
out, each by its slot. `Call` lists them. A call is allowed if its slots are there and no node
comes to stand under itself (`Call.Allowed`); every such call keeps the links in agreement
(`Call.Allowed.linked`), so they agree after any number of them (`linked_performAll`).
`TextPut` says what becomes of a text: the text right before it is extended, and a slot of its own
it has only where there is none.
-/

namespace MarkupEval

namespace Attributes

theorem setNew_of_mem {as : Attributes} {name : String} (h : name ∈ Assoc.keys as.entries)
    (value : String) : as.setNew name value = as := by
  obtain ⟨es, hes⟩ := as
  simp only [setNew, Assoc.insertNew_of_mem h]

theorem addNew_concat (as : Attributes) (ps : List (String × String)) (p : String × String) :
    as.addNew (ps ++ [p]) = (as.addNew ps).setNew p.1 p.2 :=
  List.foldl_append

theorem mem_keys_addNew {as : Attributes} {ps : List (String × String)} {name : String} :
    name ∈ Assoc.keys (as.addNew ps).entries ↔
      name ∈ Assoc.keys as.entries ∨ name ∈ ps.map Prod.fst := by
  induction ps using List.reverseRecOn with
  | nil => simp [addNew]
  | append_singleton ps p ih =>
    rw [addNew_concat, setNew, Assoc.mem_keys_insertNew, ih, List.map_append]
    simp [or_comm, or_left_comm]

/-- It makes no difference whether repeated names are left out before. -/
theorem addNew_addNew (as : Attributes) (ps : List (String × String)) :
    as.addNew (empty.addNew ps).entries = as.addNew ps := by
  induction ps using List.reverseRecOn with
  | nil => rfl
  | append_singleton ps p ih =>
    rw [addNew_concat, addNew_concat]
    by_cases hp : p.1 ∈ Assoc.keys (empty.addNew ps).entries
    · have hnames : p.1 ∈ ps.map Prod.fst := (mem_keys_addNew.mp hp).resolve_left List.not_mem_nil
      rw [setNew_of_mem hp, ih, setNew_of_mem (mem_keys_addNew.mpr (.inr hnames))]
    · have hentries : ((empty.addNew ps).setNew p.1 p.2).entries =
          (empty.addNew ps).entries ++ [p] :=
        Assoc.insertNew_eq_append hp
      rw [hentries, addNew_concat, ih]

end Attributes

namespace Html

/-- The slot that a piece has. -/
def Piece.slots : Piece → List Nat
  | .node i => [i]
  | .text _ => []

namespace Forest

open Relation (ReflTransGen TransGen)

variable {f : Forest} {i p : Nat} {before : Option Nat} {piece : Piece}

/-! ## Texts -/

/-- The content of a slot that is a text. -/
def text? (f : Forest) (i : Nat) : Option String :=
  match f.slot? i with
  | some ⟨.text s, _, _⟩ => some s
  | _ => none

/-- A text is put under a slot before a sibling, or last. Among the children of the slot, what
stands right before that place is a text, which is extended, or it is none, and then a new slot
comes there; nothing else changes. -/
inductive TextPut (f : Forest) (p : Nat) (before : Option Nat) (s : String) : Forest → Prop
  | extended {ahead behind : List Nat} {i : Nat} {old : String}
      (hchildren : f.children p = ahead ++ i :: behind) (hbefore : behind.head? = before)
      (htext : f.text? i = some old) :
      TextPut f p before s (f.modify i fun slot => { slot with content := .text (old ++ s) })
  | created {ahead behind : List Nat} {g : Forest}
      (hchildren : f.children p = ahead ++ behind) (hbefore : behind.head? = before)
      (htext : ∀ i ∈ ahead.getLast?, f.text? i = none)
      (hslots : ∀ j, g.slot? j =
        if j = f.slots.size then some ⟨.text s, some p, []⟩
        else if j = p then
          (f.slot? p).map fun slot => { slot with children := ahead ++ f.slots.size :: behind }
        else f.slot? j) :
      TextPut f p before s g

theorem insertIdx_append (ahead behind : List Nat) (i : Nat) :
    (ahead ++ behind).insertIdx ahead.length i = ahead ++ i :: behind := by
  induction ahead with
  | nil => rfl
  | cons a ahead ih => simp [ih]

/-- The place before a child, or behind all of them, parts the children. -/
theorem exists_append_of_position {children : List Nat} (hbefore : ∀ b ∈ before, b ∈ children) :
    ∃ ahead behind, children = ahead ++ behind ∧ behind.head? = before ∧
      position children before = ahead.length := by
  cases before with
  | none => exact ⟨children, [], (List.append_nil _).symm, rfl, rfl⟩
  | some b =>
    obtain ⟨ahead, behind, rfl, hb⟩ := List.eq_append_cons_of_mem (hbefore b rfl)
    refine ⟨ahead, b :: behind, rfl, rfl, ?_⟩
    rw [position, List.idxOf_append_of_notMem hb, List.idxOf_cons_self, Nat.add_zero]

theorem textBefore?_eq {ahead behind : List Nat} (hchildren : f.children p = ahead ++ behind)
    (hposition : position (f.children p) before = ahead.length) :
    f.textBefore? p before = ahead.getLast?.bind fun i => (f.text? i).map (i, ·) := by
  rw [textBefore?, hposition, hchildren]
  obtain rfl | ⟨ahead, i, rfl⟩ := ahead.eq_nil_or_concat
  · rfl
  · have hlast : (ahead ++ [i] ++ behind)[ahead.length]? = some i := by simp
    simp only [List.concat_eq_append, List.length_append, List.length_singleton, hlast,
      List.getLast?_concat, Option.bind_some, text?]
    cases f.slot? i with
    | none => rfl
    | some slot =>
      obtain ⟨content, parent, children⟩ := slot
      cases content <;> rfl

theorem Linked.textPut_insert (h : f.Linked) (hp : p < f.slots.size)
    (hbefore : ∀ b ∈ before, f.parent? b = some p) (s : String) :
    TextPut f p before s (f.insert p before (.text s)) := by
  obtain ⟨ahead, behind, hchildren, hhead, hposition⟩ :=
    exists_append_of_position fun b hb => h.mem_children_iff.mpr (hbefore b hb)
  rw [Forest.insert, textBefore?_eq hchildren hposition]
  split
  · next i old heq =>
    obtain ⟨j, hj, htext⟩ := Option.bind_eq_some_iff.mp heq
    obtain ⟨old', hold, heq⟩ := Option.map_eq_some_iff.mp htext
    cases heq
    obtain ⟨ahead, rfl⟩ := List.getLast?_eq_some_iff.mp hj
    rw [List.append_assoc] at hchildren
    exact .extended hchildren hhead hold
  · next hnone =>
    refine .created hchildren hhead (fun i hi => ?_) fun j => ?_
    · rw [show ahead.getLast? = some i from hi, Option.bind_some] at hnone
      exact Option.map_eq_none_iff.mp hnone
    · refine (slot?_create_link hp (.text s) before j).trans ?_
      have hchildren' : ∀ slot, f.slot? p = some slot → slot.children = ahead ++ behind := by
        intro slot hslot
        rw [← hchildren, children, hslot]
        rfl
      rw [hchildren] at hposition
      split
      · rfl
      · split
        · cases hslot : f.slot? p with
          | none => rfl
          | some slot => simp [hchildren' slot hslot, hposition, insertIdx_append]
        · rfl

/-! ## Calls -/

/-- What is asked of a forest while a document is read; a node is named by its slot. -/
inductive Call
  /-- The document, which gets a slot where there is none at all. -/
  | document
  | createElement (name : ElementName) (attrs : List (String × String))
  | createComment
  | createInstruction
  | append (parent : Nat) (piece : Piece)
  | appendBefore (sibling : Nat) (piece : Piece)
  /-- Before an element, or last in another one if the element has no parent. -/
  | appendByParent (element outer : Nat) (piece : Piece)
  | addAttributes (target : Nat) (attrs : List (String × String))
  | remove (target : Nat)
  | moveChildren (source target : Nat)

namespace Call

/-- An instruction leaves the same trace as a comment. -/
def perform (f : Forest) : Call → Forest
  | .document => if f.slots.isEmpty then (f.create .document).2 else f
  | .createElement name attrs => (f.create (.element name (Attributes.empty.addNew attrs))).2
  | .createComment | .createInstruction => (f.create .comment).2
  | .append parent piece => f.append parent piece
  | .appendBefore sibling piece => f.insertBefore sibling piece
  | .appendByParent element outer piece => f.put piece (.aroundTable element outer)
  | .addAttributes target attrs => f.addAttributes target (Attributes.empty.addNew attrs)
  | .remove target => f.detach target
  | .moveChildren source target => f.moveChildren source target

/-- The slots that a call names. -/
def slots : Call → List Nat
  | .document | .createElement .. | .createComment | .createInstruction => []
  | .append parent piece => parent :: piece.slots
  | .appendBefore sibling piece => sibling :: piece.slots
  | .appendByParent element outer piece => element :: outer :: piece.slots
  | .addAttributes target _ | .remove target => [target]
  | .moveChildren source target => [source, target]

/-- Under which slot a call puts a piece, and before which sibling. -/
def puts? (f : Forest) : Call → Option (Nat × Option Nat × Piece)
  | .append parent piece => some (parent, none, piece)
  | .appendBefore sibling piece => (f.parent? sibling).map (·, some sibling, piece)
  | .appendByParent element outer piece =>
    match f.parent? element with
    | some parent => some (parent, some element, piece)
    | none => some (outer, none, piece)
  | _ => none

/-- The nodes that a call puts under another one, each with that one. -/
def moves (f : Forest) : Call → List (Nat × Nat)
  | .moveChildren source target => (f.children source).map (·, target)
  | c =>
    match c.puts? f with
    | some (parent, _, .node i) => [(i, parent)]
    | _ => []

/-- The slots that a call names are there, and it puts no node under itself or one below it. -/
structure Allowed (f : Forest) (c : Call) : Prop where
  lt_size : ∀ i ∈ c.slots, i < f.slots.size
  not_below : ∀ m ∈ c.moves f, ¬f.Below m.2 m.1

variable {c : Call}

/-- A piece is put last under a slot that is named, or before a sibling under the parent of that. -/
theorem eq_of_puts? (h : c.puts? f = some (p, before, piece)) :
    (before = none ∧ (c = .append p piece ∨
      ∃ element, c = .appendByParent element p piece ∧ f.parent? element = none)) ∨
    ∃ sibling, before = some sibling ∧ f.parent? sibling = some p ∧
      (c = .appendBefore sibling piece ∨ ∃ outer, c = .appendByParent sibling outer piece) := by
  cases c with
  | append parent piece =>
    cases h
    exact .inl ⟨rfl, .inl rfl⟩
  | appendBefore sibling piece =>
    obtain ⟨parent, hparent, heq⟩ := Option.map_eq_some_iff.mp h
    cases heq
    exact .inr ⟨sibling, rfl, hparent, .inl rfl⟩
  | appendByParent element outer piece =>
    cases hparent : f.parent? element with
    | none =>
      simp only [puts?, hparent] at h
      cases h
      exact .inl ⟨rfl, .inr ⟨element, rfl, hparent⟩⟩
    | some parent =>
      simp only [puts?, hparent] at h
      cases h
      exact .inr ⟨element, rfl, hparent, .inr ⟨outer, rfl⟩⟩
  | _ => cases h

theorem perform_of_puts? (h : c.puts? f = some (p, before, piece)) :
    c.perform f = f.insert p before piece := by
  obtain ⟨rfl, rfl | ⟨element, rfl, hparent⟩⟩ | ⟨sibling, rfl, hparent, rfl | ⟨outer, rfl⟩⟩ :=
    eq_of_puts? h
  · rfl
  · simp [perform, put, hparent, Forest.append]
  · simp only [perform, insertBefore, hparent]
  · simp [perform, put, hparent, insertBefore]

theorem mem_slots_of_puts? (h : c.puts? f = some (p, before, piece)) {i : Nat}
    (hi : i ∈ piece.slots) : i ∈ c.slots := by
  obtain ⟨-, rfl | ⟨element, rfl, -⟩⟩ | ⟨sibling, -, -, rfl | ⟨outer, rfl⟩⟩ := eq_of_puts? h <;>
    simp [slots, hi]

theorem mem_moves_of_puts? (h : c.puts? f = some (p, before, .node i)) : (i, p) ∈ c.moves f := by
  cases c with
  | moveChildren => cases h
  | _ => simp [moves, h]

/-- An element gets, of the pairs in their order, the first one of each name that it lacks. -/
theorem perform_addAttributes (f : Forest) (target : Nat) (attrs : List (String × String)) :
    (addAttributes target attrs).perform f = f.modify target fun s =>
      match s.content with
      | .element name old => { s with content := .element name (old.addNew attrs) }
      | _ => s := by
  refine congrArg (f.modify target) (funext fun s => ?_)
  cases s.content with
  | element name old => simp only [Attributes.addNew_addNew]
  | text s | document | comment => rfl

namespace Allowed

/-- Where an allowed call puts a piece. -/
theorem of_puts? (hc : c.Allowed f) (h : f.Linked) (hputs : c.puts? f = some (p, before, piece)) :
    p < f.slots.size ∧ (∀ b ∈ before, f.parent? b = some p) ∧ f.MayPut p piece := by
  have hpiece : f.MayPut p piece := by
    cases piece with
    | text s => trivial
    | node i =>
      exact ⟨hc.lt_size i (mem_slots_of_puts? hputs (List.mem_singleton_self i)),
        hc.not_below (i, p) (mem_moves_of_puts? hputs)⟩
  obtain ⟨rfl, hcall⟩ | ⟨sibling, rfl, hparent, -⟩ := eq_of_puts? hputs
  · have hp : p ∈ c.slots := by
      obtain rfl | ⟨element, rfl, -⟩ := hcall <;> simp [slots]
    exact ⟨hc.lt_size p hp, nofun, hpiece⟩
  · refine ⟨h.parent_lt_size hparent, fun b hb => ?_, hpiece⟩
    cases hb
    exact hparent

/-- What one call keeps. -/
theorem linked (hc : c.Allowed f) (h : f.Linked) : (c.perform f).Linked := by
  have hput : ∀ {p before piece}, c.puts? f = some (p, before, piece) → (c.perform f).Linked := by
    intro p before piece hputs
    obtain ⟨hp, -, hpiece⟩ := hc.of_puts? h hputs
    rw [perform_of_puts? hputs]
    exact h.insert hp hpiece before
  cases c with
  | document =>
    rw [perform]
    split
    · exact h.create .document
    · exact h
  | createElement | createComment | createInstruction => exact h.create _
  | append parent piece => exact hput rfl
  | appendBefore sibling piece =>
    cases hparent : f.parent? sibling with
    | none =>
      rw [perform, insertBefore, hparent]
      exact h
    | some parent => exact hput (by rw [puts?, hparent]; rfl)
  | appendByParent element outer piece =>
    cases hparent : f.parent? element with
    | none => exact hput (by rw [puts?, hparent])
    | some parent => exact hput (by rw [puts?, hparent])
  | addAttributes target attrs =>
    exact h.congr (parent?_modify (fun s => by split <;> rfl) f target)
      (children_modify (fun s => by split <;> rfl) f target)
  | remove target => exact h.detach target
  | moveChildren source target =>
    refine h.moveChildren (hc.lt_size target (by simp [slots])) fun i hi => ?_
    exact hc.not_below (i, target) (List.mem_map_of_mem hi)

end Allowed
end Call

/-! ## Any number of calls -/

def performAll (f : Forest) (calls : List Call) : Forest := calls.foldl (fun f c => c.perform f) f

/-- Each call is allowed when its turn comes. -/
def AllAllowed : Forest → List Call → Prop
  | _, [] => True
  | f, c :: calls => c.Allowed f ∧ AllAllowed (c.perform f) calls

theorem linked_performAll {calls : List Call} (h : f.Linked) (hcalls : AllAllowed f calls) :
    (performAll f calls).Linked := by
  induction calls generalizing f with
  | nil => exact h
  | cons c calls ih => exact ih (hcalls.1.linked h) hcalls.2

/-! ## Checking calls -/

/-- The way up from a slot, if it has so few steps. -/
def wayUp? (f : Forest) : Nat → Nat → Option (List Nat)
  | 0, _ => none
  | n + 1, i =>
    match f.parent? i with
    | some p => (f.wayUp? n p).map (i :: ·)
    | none => some [i]

theorem mem_of_wayUp? {n : Nat} {way : List Nat} (hway : f.wayUp? n p = some way)
    (hbelow : f.Below p i) : i ∈ way := by
  induction n generalizing p way with
  | zero => cases hway
  | succ n ih =>
    rw [wayUp?] at hway
    obtain rfl | ⟨q, hq, hqi⟩ := ReflTransGen.cases_head hbelow
    · split at hway
      · obtain ⟨rest, -, rfl⟩ := Option.map_eq_some_iff.mp hway
        exact List.mem_cons_self ..
      · cases hway
        exact List.mem_cons_self ..
    · rw [HasParent] at hq
      rw [hq] at hway
      obtain ⟨rest, hrest, rfl⟩ := Option.map_eq_some_iff.mp hway
      exact List.mem_cons_of_mem _ (ih hrest hqi)

/-- Whether a call is allowed, found out on the way up from where it puts a node. -/
def Call.isAllowed (f : Forest) (c : Call) : Bool :=
  c.slots.all (· < f.slots.size) &&
    (c.moves f).all fun m => (f.wayUp? f.slots.size m.2).any fun way => !way.contains m.1

theorem Call.allowed_of_isAllowed {c : Call} (h : c.isAllowed f = true) : c.Allowed f := by
  obtain ⟨hslots, hmoves⟩ := Bool.and_eq_true_iff.mp h
  refine ⟨fun i hi => of_decide_eq_true (List.all_eq_true.mp hslots i hi), fun m hm hbelow => ?_⟩
  have hway := List.all_eq_true.mp hmoves m hm
  cases hsome : f.wayUp? f.slots.size m.2 with
  | none => simp [hsome] at hway
  | some way => simp [hsome, mem_of_wayUp? hsome hbelow] at hway

def areAllowed : Forest → List Call → Bool
  | _, [] => true
  | f, c :: calls => c.isAllowed f && areAllowed (c.perform f) calls

theorem allAllowed_of_areAllowed {calls : List Call} (h : areAllowed f calls = true) :
    AllAllowed f calls := by
  induction calls generalizing f with
  | nil => trivial
  | cons c calls ih =>
    obtain ⟨hc, hcalls⟩ := Bool.and_eq_true_iff.mp h
    exact ⟨Call.allowed_of_isAllowed hc, ih hcalls⟩

/-! ## From the start -/

/-- No slot is there yet. -/
def bare : Forest := ⟨#[]⟩

example : performAll bare [.document] = empty := rfl

theorem linked_bare : bare.Linked where
  mem_children_iff := by simp [bare, children, parent?, slot?]
  nodup p := by simp [bare, children, slot?]
  acyclic i hi := by
    obtain ⟨q, hq, -⟩ := TransGen.head'_iff.mp hi
    simp [bare, HasParent, parent?, slot?] at hq

theorem Linked.nodup_flatMap_children (h : f.Linked) {slots : List Nat} (hslots : slots.Nodup) :
    (slots.flatMap f.children).Nodup := by
  refine List.nodup_flatMap.mpr ⟨fun p _ => h.nodup p, hslots.imp fun {p q} hne i hp hq => hne ?_⟩
  rw [h.mem_children_iff] at hp hq
  exact Option.some.inj (hp.symm.trans hq)

/-- Allowed calls, from a forest with no slot on: a slot is among the children of another one
exactly if that one is its parent, no slot is twice among the children of slots, and no slot is
below itself; so reading off any slot ends within as many levels as there are slots and visits none
of them twice. The attributes of an element differ in name. Wherever a call puts a text, it extends
the text that stands right before, if one does. -/
theorem consistent_performAll {calls : List Call} (hcalls : AllAllowed bare calls) :
    let f := performAll bare calls
    (∀ p i, i ∈ f.children p ↔ f.parent? i = some p) ∧
    ((List.range f.slots.size).flatMap f.children).Nodup ∧
    (∀ i, ¬TransGen f.HasParent i i) ∧
    (∀ i < f.slots.size, ∃ visited : List Nat, visited.Nodup ∧
      ∀ depth, f.slots.size ≤ depth → f.readWithin? depth i = some (f.node? i, visited)) ∧
    (∀ i name attrs parent children, f.slot? i = some ⟨.element name attrs, parent, children⟩ →
      (attrs.entries.map Prod.fst).Nodup) ∧
    ∀ c : Call, c.Allowed f → ∀ p before s, c.puts? f = some (p, before, .text s) →
      TextPut f p before s (c.perform f) := by
  intro f
  have h : f.Linked := linked_performAll linked_bare hcalls
  refine ⟨fun p i => h.mem_children_iff, h.nodup_flatMap_children List.nodup_range, h.acyclic,
    fun i hi => h.exists_readWithin? hi, fun _ _ attrs _ _ _ => attrs.nodup, ?_⟩
  intro c hc p before s hputs
  obtain ⟨hp, hbefore, -⟩ := hc.of_puts? h hputs
  rw [Call.perform_of_puts? hputs]
  exact h.textPut_insert hp hbefore s

/-- A text in a table goes before it and there extends a text; then both move into an element. -/
def fosterCalls : List Call :=
  [.document, .createElement (.html "html") [], .append 0 (.node 1),
   .createElement (.html "body") [], .append 1 (.node 2), .append 2 (.text "x"),
   .createElement (.html "table") [("id", "t"), ("id", "u")], .append 2 (.node 4),
   .appendByParent 4 2 (.text "y"), .createElement (.html "b") [], .moveChildren 2 5,
   .append 2 (.node 5), .addAttributes 4 [("id", "v"), ("class", "w")]]

theorem consistent_performAll_foster :
    AllAllowed bare fosterCalls ∧
    let f := performAll bare fosterCalls
    ((List.range 6).flatMap f.children).Nodup ∧
    (∃ visited : List Nat, visited.Nodup ∧ ∀ depth, 6 ≤ depth →
      f.readWithin? depth 2 = some (some (.element "body" ∅ [.element "b" ∅ [.text "xy",
        .element "table" (.ofPairs [("id", "t"), ("class", "w")]) []]]), visited)) ∧
    TextPut f 5 (some 4) "z" (f.insertBefore 4 (.text "z")) := by
  have hcalls : AllAllowed bare fosterCalls := allAllowed_of_areAllowed (by decide +kernel)
  have hsize : (performAll bare fosterCalls).slots.size = 6 := by decide +kernel
  obtain ⟨-, hnodup, -, hread, -, htext⟩ := consistent_performAll hcalls
  rw [hsize] at hnodup hread
  refine ⟨hcalls, hnodup, hread 2 (by decide), ?_⟩
  exact htext (.appendBefore 4 (.text "z")) (Call.allowed_of_isAllowed (by decide +kernel)) 5
    (some 4) "z" rfl

end Forest
end Html
end MarkupEval
