import Mathlib.Data.List.Chain
import Mathlib.Data.List.Forall2
import Mathlib.Data.List.Nodup
import Mathlib.Data.List.Perm.Subperm
import MarkupEval.Proofs.Html.Links

/-!
# Reading off visits every slot once

A tree is read off down to a depth that is the number of slots, and what lies deeper would be left
out. `readWithin?` is that reading with the slots that it visits, in their order, and without a
result where the depth does not suffice. In a forest whose links agree it always suffices, and no
slot is visited twice (`Linked.exists_readWithin?`): every level of the tree is a step further from
the root (`Linked.length_way_le_size`), and what is below two siblings differs
(`Linked.eq_of_below_siblings`).
-/

namespace MarkupEval
namespace Html
namespace Forest

open Relation (ReflTransGen TransGen)

variable {f : Forest} {i j p v depth depth' : Nat} {node : Option Node} {visited : List Nat}

/-- The tree below a slot, if it is at most so many levels deep, with the slots that are visited. -/
def readWithin? (f : Forest) : Nat → Nat → Option (Option Node × List Nat)
  | 0, _ => none
  | depth + 1, i =>
    match f.slot? i with
    | some ⟨.element name attrs, _, children⟩ =>
      (children.mapM (f.readWithin? depth)).map fun below =>
        (some (.element name.tag attrs (below.filterMap Prod.fst)), i :: below.flatMap Prod.snd)
    | some ⟨.text s, _, _⟩ => some (some (.text s), [i])
    | _ => some (none, [i])

theorem mapM_eq_some_iff {α β : Type} {read : α → Option β} {as : List α} {bs : List β} :
    as.mapM read = some bs ↔ List.Forall₂ (fun a b => read a = some b) as bs := by
  induction as generalizing bs with
  | nil => simp [List.forall₂_nil_left_iff, eq_comm]
  | cons a as ih =>
    rw [List.mapM_cons, List.forall₂_cons_left_iff]
    simp only [Option.bind_eq_bind, Option.bind_eq_some_iff, ih]
    constructor
    · rintro ⟨b, hb, bs, hbs, heq⟩
      exact ⟨b, bs, hb, hbs, (Option.some.inj heq).symm⟩
    · rintro ⟨b, bs, hb, hbs, rfl⟩
      exact ⟨b, hb, bs, hbs, rfl⟩

/-- Where the depth suffices, the tree is the one that is read off. -/
theorem nodeWithin_of_readWithin? (h : f.readWithin? depth i = some (node, visited)) :
    f.nodeWithin depth i = node := by
  induction depth generalizing i node visited with
  | zero => cases h
  | succ depth ih =>
    have hlist : ∀ {is below}, List.Forall₂ (fun c r => f.readWithin? depth c = some r) is below →
        is.filterMap (f.nodeWithin depth) = below.filterMap Prod.fst := by
      intro is below hall
      induction hall with
      | nil => rfl
      | cons hc _ ihs => rw [List.filterMap_cons, List.filterMap_cons, ih hc, ihs]
    cases hslot : f.slot? i with
    | none =>
      simp only [readWithin?, nodeWithin, hslot] at h ⊢
      cases h
      rfl
    | some slot =>
      obtain ⟨content, parent, children⟩ := slot
      cases content with
      | element name attrs =>
        simp only [readWithin?, nodeWithin, hslot] at h ⊢
        obtain ⟨below, hbelow, heq⟩ := Option.map_eq_some_iff.mp h
        cases heq
        rw [hlist (mapM_eq_some_iff.mp hbelow)]
      | text s | document | comment =>
        simp only [readWithin?, nodeWithin, hslot] at h ⊢
        cases h
        rfl

/-- A depth that suffices may be exceeded. -/
theorem readWithin?_mono (hdepth : depth ≤ depth') {r : Option Node × List Nat}
    (h : f.readWithin? depth i = some r) : f.readWithin? depth' i = some r := by
  induction depth generalizing i depth' r with
  | zero => cases h
  | succ depth ih =>
    obtain ⟨depth', rfl⟩ := Nat.exists_eq_add_of_lt hdepth
    rw [readWithin?] at h ⊢
    split at h
    · next hslot =>
      obtain ⟨below, hbelow, heq⟩ := Option.map_eq_some_iff.mp h
      refine Option.map_eq_some_iff.mpr ⟨below, ?_, heq⟩
      rw [mapM_eq_some_iff] at hbelow ⊢
      exact hbelow.imp fun _ _ hc => ih (Nat.le_add_right ..) hc
    · exact h
    · exact h

/-! ## Ways up -/

namespace Linked

theorem eq_of_below_siblings (h : f.Linked) (hi : f.parent? i = some p) (hj : f.parent? j = some p)
    (hvi : f.Below v i) (hvj : f.Below v j) : i = j := by
  have hunique : Relator.RightUnique f.HasParent := fun _ _ _ ha hb =>
    Option.some.inj (ha.symm.trans hb)
  have hsame : ∀ {c d}, f.parent? c = some p → f.parent? d = some p → f.Below c d → c = d := by
    intro c d hc hd hbelow
    obtain heq | ⟨q, hq, hqd⟩ := ReflTransGen.cases_head hbelow
    · exact heq
    · exact absurd (hunique hq hc ▸ hqd) (h.not_below_child hd)
  obtain hij | hji := ReflTransGen.total_of_right_unique hunique hvi hvj
  · exact hsame hi hj hij
  · exact (hsame hj hi hji).symm

/-- A way up visits no slot twice, so it is no longer than the forest. -/
theorem length_way_le_size (h : f.Linked) {way : List Nat} (hway : way.IsChain f.HasParent)
    (hsize : ∀ a ∈ way, a < f.slots.size) : way.length ≤ f.slots.size := by
  have hpairs : way.Pairwise (TransGen f.HasParent) :=
    List.isChain_iff_pairwise.mp (hway.imp fun _ _ hlink => TransGen.single hlink)
  have hnodup : way.Nodup := hpairs.imp <| by
    rintro a b hup rfl
    exact h.acyclic a hup
  have hsubset : way ⊆ List.range f.slots.size := fun a ha => List.mem_range.mpr (hsize a ha)
  have hle := (List.subperm_of_subset hnodup hsubset).length_le
  rwa [List.length_range] at hle

/-! ## Visits -/

/-- The children of a slot are read one after the other, and no slot is visited for two of them. -/
theorem exists_mapM_readWithin? (h : f.Linked) (depth : Nat) {is : List Nat} (hnodup : is.Nodup)
    (hparent : ∀ c ∈ is, f.parent? c = some p)
    (hread : ∀ c ∈ is, ∃ node visited, f.readWithin? depth c = some (node, visited) ∧
      visited.Nodup ∧ ∀ v ∈ visited, f.Below v c) :
    ∃ below, is.mapM (f.readWithin? depth) = some below ∧ (below.flatMap Prod.snd).Nodup ∧
      ∀ v ∈ below.flatMap Prod.snd, ∃ c ∈ is, f.Below v c := by
  induction is with
  | nil => exact ⟨[], rfl, List.nodup_nil, nofun⟩
  | cons c is ih =>
    obtain ⟨hc, hnodup⟩ := List.nodup_cons.mp hnodup
    rw [List.forall_mem_cons] at hparent hread
    obtain ⟨node, visited, hnode, hvisited, hbelow⟩ := hread.1
    obtain ⟨rest, hrest, hrestNodup, hrestBelow⟩ := ih hnodup hparent.2 hread.2
    refine ⟨(node, visited) :: rest, ?_, ?_, ?_⟩
    · rw [List.mapM_cons, hnode, hrest]
      rfl
    · refine List.nodup_append.mpr ⟨hvisited, hrestNodup, ?_⟩
      rintro v hv w hw rfl
      obtain ⟨d, hd, hvd⟩ := hrestBelow v hw
      exact hc (h.eq_of_below_siblings hparent.1 (hparent.2 d hd) (hbelow v hv) hvd ▸ hd)
    · intro v hv
      obtain hv | hv := List.mem_append.mp hv
      · exact ⟨c, List.mem_cons_self .., hbelow v hv⟩
      · obtain ⟨d, hd, hvd⟩ := hrestBelow v hv
        exact ⟨d, List.mem_cons_of_mem _ hd, hvd⟩

/-- By induction on the depth: with the way up from a slot it makes up the number of slots. -/
theorem exists_readWithin?_of_way (h : f.Linked) (depth : Nat) {way : List Nat}
    (hway : (i :: way).IsChain f.HasParent) (hsize : ∀ a ∈ i :: way, a < f.slots.size)
    (hdepth : f.slots.size ≤ depth + way.length) :
    ∃ node visited, f.readWithin? depth i = some (node, visited) ∧ visited.Nodup ∧
      ∀ v ∈ visited, f.Below v i := by
  induction depth generalizing i way with
  | zero =>
    have hlength := h.length_way_le_size hway hsize
    rw [List.length_cons] at hlength
    omega
  | succ depth ih =>
    have hone : [i].Nodup ∧ ∀ v ∈ [i], f.Below v i :=
      ⟨List.nodup_singleton i, fun v hv => List.mem_singleton.mp hv ▸ .refl⟩
    rw [readWithin?]
    split
    · next name attrs parent children hslot =>
      have hchildren : f.children i = children := by rw [Forest.children, hslot]; rfl
      have hparent : ∀ c ∈ children, f.parent? c = some i := by
        intro c hc
        exact h.mem_children_iff.mp (hchildren ▸ hc)
      obtain ⟨below, hbelow, hnodup, hvisited⟩ :=
        h.exists_mapM_readWithin? depth (hchildren ▸ h.nodup i) hparent fun c hc => by
          refine ih (hway.cons_cons (hparent c hc)) ?_ ?_
          · exact List.forall_mem_cons.mpr ⟨lt_size_of_parent? (hparent c hc), hsize⟩
          · rw [List.length_cons]
            omega
      refine ⟨_, _, by rw [hbelow]; rfl, List.nodup_cons.mpr ⟨fun hi => ?_, hnodup⟩, ?_⟩
      · obtain ⟨c, hc, hic⟩ := hvisited i hi
        exact h.not_below_child (hparent c hc) hic
      · refine List.forall_mem_cons.mpr ⟨.refl, fun v hv => ?_⟩
        obtain ⟨c, hc, hvc⟩ := hvisited v hv
        exact ReflTransGen.tail hvc (hparent c hc)
    · exact ⟨_, _, rfl, hone⟩
    · exact ⟨_, _, rfl, hone⟩

/-- The number of slots is depth enough, and no slot is visited twice. -/
theorem exists_readWithin? (h : f.Linked) (hi : i < f.slots.size) :
    ∃ visited : List Nat, visited.Nodup ∧
      ∀ depth, f.slots.size ≤ depth → f.readWithin? depth i = some (f.node? i, visited) := by
  obtain ⟨node, visited, hread, hnodup, -⟩ :=
    h.exists_readWithin?_of_way f.slots.size (List.isChain_singleton i)
      (fun a ha => List.mem_singleton.mp ha ▸ hi) (Nat.le_refl _)
  refine ⟨visited, hnodup, fun depth hdepth => ?_⟩
  rw [node?, nodeWithin_of_readWithin? hread]
  exact readWithin?_mono hdepth hread

end Linked
end Forest
end Html
end MarkupEval
