/-!
# Tables that keep their order

A hash table of the kind that is walked in the order of insertion, as a list of entries: an
update of a key that is there keeps its place, and a new key goes to the end.
-/

namespace TrueAsync.Lib

open List

abbrev Table (κ ν : Type) := List (κ × ν)

namespace Table

variable {κ ν : Type} [DecidableEq κ]

def find? (table : Table κ ν) (key : κ) : Option ν := table.lookup key

def has (table : Table κ ν) (key : κ) : Bool := (table.find? key).isSome

def update (table : Table κ ν) (key : κ) (value : ν) : Table κ ν :=
  match table with
  | [] => [(key, value)]
  | entry :: rest => if entry.1 = key then (key, value) :: rest else entry :: update rest key value

variable {table : Table κ ν}

theorem mem_of_find? {key : κ} {value : ν}
    (found : table.find? key = some value) : (key, value) ∈ table := by
  obtain ⟨before, after, rfl, -⟩ := lookup_eq_some_iff.mp found
  exact mem_append_right _ mem_cons_self

theorem mem_update {key : κ} {value : ν} {entry : κ × ν}
    (member : entry ∈ table.update key value) : entry ∈ table ∨ entry = (key, value) := by
  induction table with
  | nil => exact .inr (mem_singleton.mp member)
  | cons first rest ih =>
    simp only [update] at member
    split at member
    · rcases mem_cons.mp member with rfl | member
      · exact .inr rfl
      · exact .inl (mem_cons_of_mem _ member)
    · rcases mem_cons.mp member with rfl | member
      · exact .inl mem_cons_self
      · exact (ih member).imp_left (mem_cons_of_mem _)

end Table

end TrueAsync.Lib
