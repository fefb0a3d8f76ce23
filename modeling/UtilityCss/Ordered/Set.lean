/-!
# Insertion-ordered sets

A rule keeps each of its declarations once, at the place of its first occurrence. A set is the list
of its members in the order in which they were first inserted.
-/

namespace UtilityCss

universe u

/-- The members of a set in the order of their first insertion, each once. -/
structure OrderedSet (α : Type u) where
  toList : List α
  distinct : toList.Nodup
  deriving DecidableEq

namespace OrderedSet

variable {α : Type u}

def empty : OrderedSet α :=
  ⟨[], List.nodup_nil⟩

instance : EmptyCollection (OrderedSet α) := ⟨empty⟩

instance : Inhabited (OrderedSet α) := ⟨empty⟩

variable [DecidableEq α]

/-- Inserts a member at the end; a present member changes nothing. -/
def insert (set : OrderedSet α) (member : α) : OrderedSet α :=
  if present : member ∈ set.toList then
    set
  else
    ⟨set.toList ++ [member], by
      rw [List.nodup_append]
      refine ⟨set.distinct, by simp, ?_⟩
      intro other isOld last isMember equal
      simp only [List.mem_singleton] at isMember
      exact present (isMember ▸ equal ▸ isOld)⟩

def insertAll (set : OrderedSet α) (members : List α) : OrderedSet α :=
  members.foldl insert set

/-- The set of the members of a list, ordered by first occurrence. -/
def ofList (members : List α) : OrderedSet α :=
  insertAll ∅ members

end OrderedSet

end UtilityCss
