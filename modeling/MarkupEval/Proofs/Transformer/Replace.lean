import MarkupEval.Proofs.Text.Substitution
import MarkupEval.Proofs.Value.Hereditary

/-!
# What replacing leaves and what it changes

Replacing gives a value of the same shape in which every text is rewritten, and nothing else is
(`run_replace`). What the texts become is said by their occurrences (`Text.Replaced`), from which it
follows where no occurrence is left and where nothing changes.
-/

namespace MarkupEval

/-! ## Texts of markup and values -/

/-- The same markup but for its texts, which are related one by one. -/
inductive Node.Reworded (R : String → String → Prop) : Node → Node → Prop
  | text {s t : String} (h : R s t) : Reworded R (.text s) (.text t)
  | element {tag : String} {attrs : Attributes} {ns ms : List Node}
    (h : List.Forall₂ (Reworded R) ns ms) :
    Reworded R (.element tag attrs ns) (.element tag attrs ms)

mutual

/-- The texts of a tree in document order. -/
def Node.texts : Node → List String
  | .text s => [s]
  | .element _ _ children => Node.textsOfList children

def Node.textsOfList : List Node → List String
  | [] => []
  | n :: ns => n.texts ++ Node.textsOfList ns

end

namespace Value

/-- The same value but for its strings, its texts and the texts of its markup, which are related one
by one. Records keep their keys in their order, and transformers their arguments. -/
inductive Reworded (R : String → String → Prop) : Value → Value → Prop
  | null : Reworded R .null .null
  | boolean (b : Bool) : Reworded R (.boolean b) (.boolean b)
  | number (x : Binary64) : Reworded R (.number x) (.number x)
  | transformer (name : String) (args : List Value) (op : Operation) :
    Reworded R (.transformer name args op) (.transformer name args op)
  | string {s t : String} (h : R s t) : Reworded R (.string s) (.string t)
  | text {s t : String} (h : R s t) : Reworded R (.text s) (.text t)
  | element {tag : String} {attrs : Attributes} {ns ms : List Node}
    (h : List.Forall₂ (Node.Reworded R) ns ms) :
    Reworded R (.element ⟨tag, attrs, ns⟩) (.element ⟨tag, attrs, ms⟩)
  | nodes {ns ms : List Node} (h : List.Forall₂ (Node.Reworded R) ns ms) :
    Reworded R (.nodes ns) (.nodes ms)
  | array {vs ws : List Value} (h : List.Forall₂ (Reworded R) vs ws) :
    Reworded R (.array vs) (.array ws)
  | record {es fs : List (String × Value)} (hkeys : Assoc.keys fs = Assoc.keys es)
    (h : List.Forall₂ (Reworded R) (es.map Prod.snd) (fs.map Prod.snd)) :
    Reworded R (.record es) (.record fs)

mutual

/-- The strings and texts of a value and the texts of its markup, in order. -/
def texts : Value → List String
  | .string s => [s]
  | .text s => [s]
  | .element e => Node.textsOfList e.children
  | .nodes ns => Node.textsOfList ns
  | .array items => textsOfItems items
  | .record entries => textsOfEntries entries
  | _ => []

def textsOfItems : List Value → List String
  | [] => []
  | v :: vs => v.texts ++ textsOfItems vs

def textsOfEntries : List (String × Value) → List String
  | [] => []
  | (_, v) :: es => v.texts ++ textsOfEntries es

end

end Value

variable {R : String → String → Prop} {p r : String}

/-! ## What becomes of the texts -/

mutual

theorem Node.reworded_replace (h : ∀ s, R s (Text.substituteString p r s)) :
    ∀ n : Node, n.Reworded R (n.replace p r)
  | .text s => .text (h s)
  | .element _ _ children => .element (Node.reworded_replaceList h children)

theorem Node.reworded_replaceList (h : ∀ s, R s (Text.substituteString p r s)) :
    ∀ ns : List Node, List.Forall₂ (Node.Reworded R) ns (Node.replaceList p r ns)
  | [] => .nil
  | n :: ns => .cons (Node.reworded_replace h n) (Node.reworded_replaceList h ns)

end

mutual

theorem Node.texts_replace : ∀ n : Node,
    (n.replace p r).texts = n.texts.map (Text.substituteString p r)
  | .text _ => rfl
  | .element _ _ children => Node.textsOfList_replaceList children

theorem Node.textsOfList_replaceList : ∀ ns : List Node,
    Node.textsOfList (Node.replaceList p r ns) =
      (Node.textsOfList ns).map (Text.substituteString p r)
  | [] => rfl
  | n :: ns => by
    rw [Node.replaceList, Node.textsOfList, Node.textsOfList, Node.texts_replace n,
      Node.textsOfList_replaceList ns, List.map_append]

end

mutual

theorem Node.replace_eq_self : ∀ {n : Node},
    (∀ s ∈ n.texts, Text.substituteString p r s = s) → n.replace p r = n
  | .text s, h => congrArg Node.text (h s (List.mem_singleton_self s))
  | .element tag attrs _, h => congrArg (Node.element tag attrs) (Node.replaceList_eq_self h)

theorem Node.replaceList_eq_self : ∀ {ns : List Node},
    (∀ s ∈ Node.textsOfList ns, Text.substituteString p r s = s) → Node.replaceList p r ns = ns
  | [], _ => rfl
  | n :: ns, h => by
    rw [Node.textsOfList, List.forall_mem_append] at h
    rw [Node.replaceList, Node.replace_eq_self h.1, Node.replaceList_eq_self h.2]

end

namespace Value

mutual

theorem reworded_replace (h : ∀ s, R s (Text.substituteString p r s)) :
    ∀ v : Value, v.Reworded R (v.replace p r)
  | .null => .null
  | .boolean b => .boolean b
  | .number x => .number x
  | .transformer name args op => .transformer name args op
  | .string s => .string (h s)
  | .text s => .text (h s)
  | .element e => .element (Node.reworded_replaceList h e.children)
  | .nodes ns => .nodes (Node.reworded_replaceList h ns)
  | .array items => .array (reworded_replaceItems h items)
  | .record es => .record (keys_replaceEntries p r es) (reworded_replaceEntries h es)

theorem reworded_replaceItems (h : ∀ s, R s (Text.substituteString p r s)) :
    ∀ vs : List Value, List.Forall₂ (Reworded R) vs (replaceItems p r vs)
  | [] => .nil
  | v :: vs => .cons (reworded_replace h v) (reworded_replaceItems h vs)

theorem reworded_replaceEntries (h : ∀ s, R s (Text.substituteString p r s)) :
    ∀ es : List (String × Value),
      List.Forall₂ (Reworded R) (es.map Prod.snd) ((replaceEntries p r es).map Prod.snd)
  | [] => .nil
  | (_, v) :: es => .cons (reworded_replace h v) (reworded_replaceEntries h es)

end

mutual

theorem texts_replace : ∀ v : Value,
    (v.replace p r).texts = v.texts.map (Text.substituteString p r)
  | .element e => Node.textsOfList_replaceList e.children
  | .nodes ns => Node.textsOfList_replaceList ns
  | .array items => textsOfItems_replaceItems items
  | .record es => textsOfEntries_replaceEntries es
  | .null | .boolean _ | .number _ | .string _ | .text _ | .transformer .. => rfl

theorem textsOfItems_replaceItems : ∀ vs : List Value,
    textsOfItems (replaceItems p r vs) = (textsOfItems vs).map (Text.substituteString p r)
  | [] => rfl
  | v :: vs => by
    rw [replaceItems, textsOfItems, textsOfItems, texts_replace v, textsOfItems_replaceItems vs,
      List.map_append]

theorem textsOfEntries_replaceEntries : ∀ es : List (String × Value),
    textsOfEntries (replaceEntries p r es) =
      (textsOfEntries es).map (Text.substituteString p r)
  | [] => rfl
  | (_, v) :: es => by
    rw [replaceEntries, textsOfEntries, textsOfEntries, texts_replace v,
      textsOfEntries_replaceEntries es, List.map_append]

end

mutual

theorem replace_eq_self : ∀ {v : Value},
    (∀ s ∈ v.texts, Text.substituteString p r s = s) → v.replace p r = v
  | .string s, h => congrArg Value.string (h s (List.mem_singleton_self s))
  | .text s, h => congrArg Value.text (h s (List.mem_singleton_self s))
  | .element e, h => congrArg (fun ns => Value.element { e with children := ns })
    (Node.replaceList_eq_self h)
  | .nodes _, h => congrArg Value.nodes (Node.replaceList_eq_self h)
  | .array _, h => congrArg Value.array (replaceItems_eq_self h)
  | .record _, h => congrArg Value.record (replaceEntries_eq_self h)
  | .null, _ | .boolean _, _ | .number _, _ | .transformer .., _ => rfl

theorem replaceItems_eq_self : ∀ {vs : List Value},
    (∀ s ∈ textsOfItems vs, Text.substituteString p r s = s) → replaceItems p r vs = vs
  | [], _ => rfl
  | v :: vs, h => by
    rw [textsOfItems, List.forall_mem_append] at h
    rw [replaceItems, replace_eq_self h.1, replaceItems_eq_self h.2]

theorem replaceEntries_eq_self : ∀ {es : List (String × Value)},
    (∀ s ∈ textsOfEntries es, Text.substituteString p r s = s) → replaceEntries p r es = es
  | [], _ => rfl
  | (k, v) :: es, h => by
    rw [textsOfEntries, List.forall_mem_append] at h
    rw [replaceEntries, replace_eq_self h.1, replaceEntries_eq_self h.2]

end

end Value

/-! ## The smart tag -/

namespace SmartTag

open Value

/-- A text with the occurrences of a pattern replaced. -/
def IsReplaced (pattern replacement s t : String) : Prop :=
  Text.Replaced pattern.toList replacement.toList s.toList t.toList

/-- A pattern occurs in a text. -/
def Occurs (pattern s : String) : Prop := pattern.toList <:+: s.toList

theorem run_replace_eq (v : Value) (r : String) (hp : p ≠ "") :
    replace.run v [.string p, .string r] = .ok (v.replace p r) := by
  have hnonempty : ¬p.isEmpty = true := by simpa using hp
  exact if_neg hnonempty

/-- Replacing rewrites every text of a value and nothing else. No occurrence is left, and a second
run changes nothing, where the replacement is not empty and shares no character with the pattern;
where it is the pattern, nothing changes at all. -/
theorem run_replace (v : Value) (r : String) (hp : p ≠ "") :
    ∃ w, replace.run v [.string p, .string r] = .ok w ∧ v.Reworded (IsReplaced p r) w ∧
      (r ≠ "" → (∀ c ∈ r.toList, c ∉ p.toList) →
        (∀ t ∈ w.texts, ¬Occurs p t) ∧ replace.run w [.string p, .string r] = .ok w) ∧
      (r = p → w = v) := by
  have hp' : p.toList ≠ [] := by simpa using hp
  refine ⟨v.replace p r, run_replace_eq v r hp, reworded_replace (fun s => ?_) v,
    fun hr hdisjoint => ?_, ?_⟩
  · rw [IsReplaced, Text.substituteString, String.toList_ofList]
    exact Text.replaced_substitute hp' _
  · have hnone : ∀ t ∈ (v.replace p r).texts, ¬Occurs p t := by
      rw [texts_replace, List.forall_mem_map]
      intro s _
      rw [Occurs, Text.substituteString, String.toList_ofList]
      exact Text.not_occurs_substitute hp' (by simpa using hr) hdisjoint _
    refine ⟨hnone, ?_⟩
    rw [run_replace_eq _ r hp, replace_eq_self]
    intro t ht
    rw [Text.substituteString, Text.substitute_eq_self hp' (hnone t ht), String.ofList_toList]
  · rintro rfl
    refine replace_eq_self fun s _ => ?_
    rw [Text.substituteString, (Text.replaced_substitute hp' _).eq_of_same, String.ofList_toList]

/-- The pattern `aa` is in strings, texts, keys, tags, attributes and arguments, and overlaps
itself. -/
def patterned : Value :=
  .record [("aa", .string "aaab"), ("b", .array [.number .nan, .transformer "aa" [.text "aa"] .idle,
    .element ⟨"aa", .ofPairs [("aa", "aa")], [.text "aab aa", .element "br" ∅ [.text "aaaa"]]⟩])]

theorem run_replace_patterned :
    "aa" ≠ "" ∧ "b" ≠ "" ∧ (∀ c ∈ "b".toList, c ∉ "aa".toList) ∧
      (∃ w, replace.run patterned [.string "aa", .string "b"] = .ok w ∧
        w.texts = ["bab", "bb b", "bb"] ∧ (∀ t ∈ w.texts, ¬Occurs "aa" t) ∧
        replace.run w [.string "aa", .string "b"] = .ok w) ∧
      replace.run patterned [.string "aa", .string "aa"] = .ok patterned := by
  have hp : "aa" ≠ "" := by decide
  have hr : "b" ≠ "" := by decide
  have hdisjoint : ∀ c ∈ "b".toList, c ∉ "aa".toList := by simp
  obtain ⟨w, hrun, -, hleft, -⟩ := run_replace patterned "b" hp
  obtain ⟨hnone, hagain⟩ := hleft hr hdisjoint
  obtain ⟨w', hrun', -, -, hsame⟩ := run_replace patterned "aa" hp
  have hw : w = patterned.replace "aa" "b" :=
    (Except.ok.inj (hrun.symm.trans (run_replace_eq patterned "b" hp)))
  have htexts : w.texts = ["bab", "bb b", "bb"] := by
    rw [hw]
    decide +kernel
  exact ⟨hp, hr, hdisjoint, ⟨w, hrun, htexts, hnone, hagain⟩, hsame rfl ▸ hrun'⟩

end SmartTag
end MarkupEval
