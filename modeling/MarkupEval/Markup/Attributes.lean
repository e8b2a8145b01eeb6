import MarkupEval.Assoc

/-! # Attributes of an element

The attributes of an element are an insertion-ordered map from names to values: no name occurs
twice, and overwriting an attribute keeps its place. -/

namespace MarkupEval

structure Attributes where
  entries : List (String × String)
  nodup : (Assoc.keys entries).Nodup
deriving DecidableEq

namespace Attributes

def empty : Attributes := ⟨[], List.nodup_nil⟩

instance : EmptyCollection Attributes := ⟨empty⟩

instance : Inhabited Attributes := ⟨empty⟩

def get? (as : Attributes) (name : String) : Option String := Assoc.get? name as.entries

/-- Overwrites in place; a new attribute comes last. -/
def set (as : Attributes) (name value : String) : Attributes :=
  ⟨Assoc.insert name value as.entries, Assoc.nodup_keys_insert as.nodup⟩

/-- Adds an attribute that is not there yet, last; one that is there keeps its value. -/
def setNew (as : Attributes) (name value : String) : Attributes :=
  ⟨Assoc.insertNew name value as.entries, Assoc.nodup_keys_insertNew as.nodup⟩

/-- Removes an attribute; the others keep their order. -/
def erase (as : Attributes) (name : String) : Attributes :=
  ⟨Assoc.erase name as.entries, Assoc.nodup_keys_erase as.nodup⟩

/-- Sets the pairs one after the other, so the last value of a repeated name wins and the place of
its first occurrence stays. -/
def ofPairs (ps : List (String × String)) : Attributes :=
  ⟨Assoc.ofPairs ps, Assoc.nodup_keys_ofPairs ps⟩

/-- Adds pairs of which the first one of each name wins. -/
def addNew (as : Attributes) (ps : List (String × String)) : Attributes :=
  ps.foldl (fun as p => as.setNew p.1 p.2) as

theorem ofPairs_entries (as : Attributes) : ofPairs as.entries = as := by
  obtain ⟨entries, nodup⟩ := as
  simp only [ofPairs, Assoc.ofPairs_eq_self nodup]

/-- The same names with the same values, in any order. -/
def same (as bs : Attributes) : Bool := Assoc.sameEntries as.entries bs.entries

end Attributes
end MarkupEval
