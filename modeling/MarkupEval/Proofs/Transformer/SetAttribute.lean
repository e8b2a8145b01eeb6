import MarkupEval.Proofs.Value.Equality
import MarkupEval.Transformer.SmartTag

/-!
# What setting an attribute changes

Setting an attribute succeeds on what has elements on its top level, with one or two words as
arguments, and gives each of these elements the attribute and nothing else (`run_setAttribute`).
What becomes of the attributes of an element is said by their entries (`Attributes.Updated`), and
whether two orders of setting differ by look-ups (`Attributes.set_comm`).
-/

namespace MarkupEval

/-! ## Attributes -/

namespace Assoc

variable {α β : Type} [DecidableEq α]

/-- A key that is there gets its new value at its old place. -/
theorem exists_insert_of_mem {k : α} {es : List (α × β)} (h : k ∈ keys es) (v : β) :
    ∃ before old after, es = before ++ (k, old) :: after ∧
      insert k v es = before ++ (k, v) :: after := by
  induction es with
  | nil => cases h
  | cons e es ih =>
    by_cases hk : k = e.1
    · exact ⟨[], e.2, es, by rw [hk, List.nil_append], by rw [insert, if_pos hk, hk]; rfl⟩
    · obtain ⟨before, old, after, hes, hinsert⟩ := ih ((List.mem_cons.mp h).resolve_left hk)
      exact ⟨e :: before, old, after, by rw [hes, List.cons_append],
        by rw [insert, if_neg hk, hinsert, List.cons_append]⟩

end Assoc

namespace Attributes

variable {as bs : Attributes} {name value name' value' : String}

/-- The second attributes are the first with one of them set: at its old place, or last if there was
none of the name. -/
def Updated (name value : String) (as bs : Attributes) : Prop :=
  (∃ before old after, as.entries = before ++ (name, old) :: after ∧
    bs.entries = before ++ (name, value) :: after) ∨
  (name ∉ Assoc.keys as.entries ∧ bs.entries = as.entries ++ [(name, value)])

theorem updated_set (as : Attributes) (name value : String) :
    Updated name value as (as.set name value) := by
  by_cases h : name ∈ Assoc.keys as.entries
  · exact .inl (Assoc.exists_insert_of_mem h value)
  · exact .inr ⟨h, Assoc.insert_eq_append h⟩

theorem set_set (as : Attributes) (name value value' : String) :
    (as.set name value).set name value' = as.set name value' := by
  simp only [set, Assoc.insert_insert]

/-- Attributes of two names are set in any order. Where both are new, their order differs. -/
theorem set_comm (as : Attributes) (value value' : String) (h : name' ≠ name) :
    ((as.set name value).set name' value').same ((as.set name' value').set name value) = true := by
  refine same_iff.mpr (Assoc.perm_of_get?_eq (nodup _) (nodup _) fun k => ?_)
  simp only [set, Assoc.get?_insert]
  by_cases hk : k = name
  · rw [if_pos hk, if_neg (hk ▸ Ne.symm h), if_pos hk]
  · rw [if_neg hk, if_neg hk]

end Attributes

variable {name value name' value' : String}

/-! ## Elements and nodes -/

namespace Element

/-- The same element but for one of its attributes, which is set. -/
structure Updated (name value : String) (e e' : Element) : Prop where
  tag : e'.tag = e.tag
  attrs : Attributes.Updated name value e.attrs e'.attrs
  children : e'.children = e.children

theorem updated_setAttribute (e : Element) (name value : String) :
    e.Updated name value (e.setAttribute name value) :=
  ⟨rfl, e.attrs.updated_set name value, rfl⟩

theorem setAttribute_setAttribute (e : Element) (name value value' : String) :
    (e.setAttribute name value).setAttribute name value' = e.setAttribute name value' := by
  simp only [setAttribute, Attributes.set_set]

theorem setAttribute_comm (e : Element) (value value' : String) (h : name' ≠ name) :
    ((e.setAttribute name value).setAttribute name' value').same
      ((e.setAttribute name' value').setAttribute name value) = true :=
  Node.same_element_iff.mpr ⟨rfl, e.attrs.set_comm value value' h, Node.sameList_refl _⟩

end Element

namespace Node

/-- The same node but, if it is an element, for one of its attributes. -/
inductive Updated (name value : String) : Node → Node → Prop
  | text (s : String) : Updated name value (.text s) (.text s)
  | element {e e' : Element} (h : e.Updated name value e') :
    Updated name value e.toNode e'.toNode

theorem updated_setAttribute (n : Node) (name value : String) :
    n.Updated name value (n.setAttribute name value) := by
  cases n with
  | text s => exact .text s
  | element tag attrs children =>
    exact .element (Element.updated_setAttribute ⟨tag, attrs, children⟩ name value)

theorem setAttribute_setAttribute (n : Node) (name value value' : String) :
    (n.setAttribute name value).setAttribute name value' = n.setAttribute name value' := by
  cases n with
  | text s => rfl
  | element tag attrs children => simp only [setAttribute, Attributes.set_set]

theorem setAttribute_comm (n : Node) (value value' : String) (h : name' ≠ name) :
    ((n.setAttribute name value).setAttribute name' value').same
      ((n.setAttribute name' value').setAttribute name value) = true := by
  cases n with
  | text s => exact same_refl (.text s)
  | element tag attrs children =>
    exact Element.setAttribute_comm ⟨tag, attrs, children⟩ value value' h

theorem sameList_map {f g : Node → Node} (h : ∀ n, (f n).same (g n) = true) (ns : List Node) :
    sameList (ns.map f) (ns.map g) = true := by
  induction ns with
  | nil => rfl
  | cons n ns ih => exact Bool.and_eq_true_iff.mpr ⟨h n, ih⟩

end Node

/-! ## Values -/

namespace Value

variable {v : Value}

/-- An element, a list of nodes or an array of elements only. -/
inductive HasTopElements : Value → Prop
  | element (e : Element) : HasTopElements (.element e)
  | nodes (ns : List Node) : HasTopElements (.nodes ns)
  | array (es : List Element) : HasTopElements (.array (es.map .element))

/-- The same value but for one attribute of the elements on its top level. -/
inductive Updated (name value : String) : Value → Value → Prop
  | element {e e' : Element} (h : e.Updated name value e') :
    Updated name value (.element e) (.element e')
  | nodes {ns ns' : List Node} (h : List.Forall₂ (Node.Updated name value) ns ns') :
    Updated name value (.nodes ns) (.nodes ns')
  | array {es es' : List Element} (h : List.Forall₂ (Element.Updated name value) es es') :
    Updated name value (.array (es.map .element)) (.array (es'.map .element))

theorem exists_elements {items : List Value} (h : items.all isElement = true) :
    ∃ es : List Element, items = es.map .element := by
  induction items with
  | nil => exact ⟨[], rfl⟩
  | cons v items ih =>
    obtain ⟨hv, hitems⟩ := Bool.and_eq_true_iff.mp h
    obtain ⟨es, rfl⟩ := ih hitems
    cases v with
    | element e => exact ⟨e :: es, rfl⟩
    | _ => cases hv

theorem takesAttribute_iff : v.takesAttribute = true ↔ v.HasTopElements := by
  constructor
  · intro h
    cases v with
    | element e => exact .element e
    | nodes ns => exact .nodes ns
    | array items =>
      obtain ⟨es, rfl⟩ := exists_elements h
      exact .array es
    | _ => cases h
  · rintro (e | ns | es)
    · rfl
    · rfl
    · simp [takesAttribute, isElement]

theorem setAttribute_array (es : List Element) (name value : String) :
    (array (es.map .element)).setAttribute name value =
      array ((es.map (Element.setAttribute · name value)).map .element) := by
  simp [setAttribute, setAttributeOnElement, Function.comp_def]

theorem HasTopElements.setAttribute (h : v.HasTopElements) (name value : String) :
    (v.setAttribute name value).HasTopElements := by
  cases h with
  | element e => exact .element _
  | nodes ns => exact .nodes _
  | array es =>
    rw [setAttribute_array]
    exact .array _

theorem HasTopElements.updated (h : v.HasTopElements) (name value : String) :
    v.Updated name value (v.setAttribute name value) := by
  cases h with
  | element e => exact .element (e.updated_setAttribute name value)
  | nodes ns =>
    refine .nodes (List.forall₂_map_right_iff.mpr (List.forall₂_same.mpr fun n _ => ?_))
    exact n.updated_setAttribute name value
  | array es =>
    rw [setAttribute_array]
    refine .array (List.forall₂_map_right_iff.mpr (List.forall₂_same.mpr fun e _ => ?_))
    exact e.updated_setAttribute name value

theorem HasTopElements.setAttribute_setAttribute (h : v.HasTopElements)
    (name value value' : String) :
    (v.setAttribute name value).setAttribute name value' = v.setAttribute name value' := by
  cases h with
  | element e => exact congrArg Value.element (e.setAttribute_setAttribute name value value')
  | nodes ns =>
    simp only [Value.setAttribute, List.map_map, Function.comp_def, Node.setAttribute_setAttribute]
  | array es =>
    rw [setAttribute_array, setAttribute_array, setAttribute_array]
    refine congrArg (fun es : List Element => Value.array (es.map .element))
      (List.map_map.trans ?_)
    exact List.map_congr_left fun e _ => e.setAttribute_setAttribute name value value'

theorem HasTopElements.setAttribute_comm (h : v.HasTopElements) (value value' : String)
    (hne : name' ≠ name) :
    ((v.setAttribute name value).setAttribute name' value').same
      ((v.setAttribute name' value').setAttribute name value) = true := by
  cases h with
  | element e => exact e.setAttribute_comm value value' hne
  | nodes ns =>
    simp only [Value.setAttribute, List.map_map]
    exact Node.sameList_map (fun n => n.setAttribute_comm value value' hne) ns
  | array es =>
    rw [setAttribute_array, setAttribute_array, setAttribute_array, setAttribute_array,
      List.map_map, List.map_map, List.map_map, List.map_map]
    refine (Alike.array ?_).same
    refine List.forall₂_map_left_iff.mpr (List.forall₂_map_right_iff.mpr ?_)
    exact List.forall₂_same.mpr fun e _ => e.setAttribute_comm value value' hne

end Value

/-! ## The smart tag -/

namespace SmartTag

open Value

variable {main v w : Value} {args : List Value}

/-- A value that is a string or a text. -/
def Spells (v : Value) (s : String) : Prop := v = .string s ∨ v = .text s

/-- One or two words: a name that is not empty, and a value, which is empty if it is left out. -/
inductive AttributeWords : List Value → String → String → Prop
  | name {v : Value} {name : String} (hv : Spells v name) (hname : name ≠ "") :
    AttributeWords [v] name ""
  | both {v v' : Value} {name value : String} (hv : Spells v name) (hname : name ≠ "")
    (hv' : Spells v' value) : AttributeWords [v, v'] name value

theorem stringArgument_eq_ok_iff {tag s : String} {i : Nat} :
    stringArgument tag args i = .ok s ↔ ∃ v, args[i]? = some v ∧ Spells v s := by
  unfold stringArgument Spells
  cases args[i]? with
  | none => simp
  | some v => cases v <;> simp

theorem not_of_check {ε α β : Type} {c : Prop} [Decidable c] {e : ε} {k : β → Except ε α}
    {x : Except ε α} {a : α} (h : (if c then throw e >>= k else x) = .ok a) : ¬c := by
  intro hc
  rw [if_pos hc] at h
  cases h

/-- What succeeds has passed all checks. -/
theorem words_of_run (h : SmartTag.setAttribute.run main args = .ok w) :
    main.HasTopElements ∧ ∃ name value, AttributeWords args name value := by
  change runSetAttribute main args = .ok w at h
  have htop : main.takesAttribute = true := by simpa using not_of_check h
  obtain ⟨_, harity, h⟩ := exists_ok_of_bind (eq_ok_of_check h)
  obtain ⟨name, hname, h⟩ := exists_ok_of_bind h
  have hne : name ≠ "" := by simpa using not_of_check h
  have h := eq_ok_of_check h
  obtain ⟨v, hv, hspells⟩ := stringArgument_eq_ok_iff.mp hname
  refine ⟨takesAttribute_iff.mp htop, ?_⟩
  match args with
  | [] => cases hv
  | [_] =>
    cases hv
    exact ⟨name, "", .name hspells hne⟩
  | [_, _] =>
    cases hv
    obtain ⟨value, hvalue, -⟩ := exists_ok_of_bind h
    obtain ⟨v', hv', hspells'⟩ := stringArgument_eq_ok_iff.mp hvalue
    cases hv'
    exact ⟨name, value, .both hspells hne hspells'⟩
  | _ :: _ :: _ :: rest => simp [checkArity] at harity

/-- With all checks passed the attribute is set. -/
theorem run_setAttribute_eq (h : main.HasTopElements) (hargs : AttributeWords args name value) :
    SmartTag.setAttribute.run main args = .ok (main.setAttribute name value) := by
  change runSetAttribute main args = _
  have htop := takesAttribute_iff.mpr h
  cases hargs with
  | name hv hname =>
    have hne : name.isEmpty = false := by simpa using hname
    rcases hv with rfl | rfl <;>
      simp [runSetAttribute, htop, checkArity, stringArgument, hne, bind, Except.bind, pure,
        Except.pure]
  | both hv hname hv' =>
    have hne : name.isEmpty = false := by simpa using hname
    rcases hv with rfl | rfl <;> rcases hv' with rfl | rfl <;>
      simp [runSetAttribute, htop, checkArity, stringArgument, hne, bind, Except.bind, pure,
        Except.pure]

/-- An attribute can be set on what has elements on its top level, and is set on each of these and
nowhere else. Setting it again changes nothing, and attributes of two names are set in any order. -/
theorem run_setAttribute (main : Value) (args : List Value) :
    ((∃ w, SmartTag.setAttribute.run main args = .ok w) ↔
      main.HasTopElements ∧ ∃ name value, AttributeWords args name value) ∧
    ∀ {name value w}, AttributeWords args name value →
      SmartTag.setAttribute.run main args = .ok w →
      main.Updated name value w ∧ SmartTag.setAttribute.run w args = .ok w ∧
      ∀ {args' name' value'}, AttributeWords args' name' value' → name' ≠ name →
        ∃ w' u u', SmartTag.setAttribute.run w args' = .ok u ∧
          SmartTag.setAttribute.run main args' = .ok w' ∧
          SmartTag.setAttribute.run w' args = .ok u' ∧ (u == u') = true := by
  refine ⟨⟨fun ⟨w, h⟩ => words_of_run h, ?_⟩, ?_⟩
  · rintro ⟨htop, name, value, hargs⟩
    exact ⟨_, run_setAttribute_eq htop hargs⟩
  · intro name value w hargs h
    have htop := (words_of_run h).1
    obtain rfl := Except.ok.inj ((run_setAttribute_eq htop hargs).symm.trans h)
    have htop' := htop.setAttribute name value
    refine ⟨htop.updated name value, ?_, fun {args' name' value'} hargs' hne => ?_⟩
    · rw [run_setAttribute_eq htop' hargs, htop.setAttribute_setAttribute]
    · exact ⟨_, _, _, run_setAttribute_eq htop' hargs', run_setAttribute_eq htop hargs',
        run_setAttribute_eq (htop.setAttribute name' value') hargs,
        htop.setAttribute_comm value value' hne⟩

/-- A list of nodes with an attribute that is there, that is not, and that is deeper down. -/
def tagged : Value :=
  .nodes [.text "a", .element "b" (.ofPairs [("k", "old"), ("l", "")]) [],
    .element "i" ∅ [.element "b" (.ofPairs [("k", "old")]) []]]

theorem run_setAttribute_tagged :
    tagged.HasTopElements ∧ AttributeWords [.string "k", .text "new"] "k" "new" ∧
      AttributeWords [.text "m"] "m" "" ∧ "m" ≠ "k" ∧
      ∃ w, SmartTag.setAttribute.run tagged [.string "k", .text "new"] = .ok w ∧
        w = .nodes [.text "a", .element "b" (.ofPairs [("k", "new"), ("l", "")]) [],
          .element "i" (.ofPairs [("k", "new")]) [.element "b" (.ofPairs [("k", "old")]) []]] ∧
        tagged.Updated "k" "new" w ∧
        SmartTag.setAttribute.run w [.string "k", .text "new"] = .ok w ∧
        ∃ w' u u', SmartTag.setAttribute.run w [.text "m"] = .ok u ∧
          SmartTag.setAttribute.run tagged [.text "m"] = .ok w' ∧
          SmartTag.setAttribute.run w' [.string "k", .text "new"] = .ok u' ∧ (u == u') = true := by
  have htop : tagged.HasTopElements := .nodes _
  have hargs : AttributeWords [.string "k", .text "new"] "k" "new" :=
    .both (.inl rfl) (by decide) (.inr rfl)
  have hargs' : AttributeWords [.text "m"] "m" "" := .name (.inr rfl) (by decide)
  have hne : "m" ≠ "k" := by decide
  obtain ⟨hok, hlaws⟩ := run_setAttribute tagged [.string "k", .text "new"]
  obtain ⟨w, hw⟩ := hok.mpr ⟨htop, _, _, hargs⟩
  obtain ⟨hupdated, htwice, hcomm⟩ := hlaws hargs hw
  exact ⟨htop, hargs, hargs', hne, w, hw, (Except.ok.inj hw).symm, hupdated, htwice,
    hcomm hargs' hne⟩

end SmartTag
end MarkupEval
