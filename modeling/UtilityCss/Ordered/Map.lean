/-!
# Insertion-ordered maps

Registration order is observable: it breaks ties between type tokens, orders the declarations of a
custom class and orders the rules of a stylesheet. A map is therefore the list of its entries in the
order in which their keys were first written, and no key occurs twice. Writing a present key keeps
its place.
-/

namespace UtilityCss

universe u v

/-- The entries of a map in the order of their first writing, each key once. -/
structure OrderedMap (κ : Type u) (α : Type v) where
  entries : List (κ × α)
  distinctKeys : (entries.map Prod.fst).Nodup
  deriving DecidableEq

namespace OrderedMap

variable {κ : Type u} {α : Type v}

def empty : OrderedMap κ α :=
  ⟨[], List.nodup_nil⟩

instance : EmptyCollection (OrderedMap κ α) := ⟨empty⟩

instance : Inhabited (OrderedMap κ α) := ⟨empty⟩

/-- The keys in the order of their first writing. -/
def keys (map : OrderedMap κ α) : List κ :=
  map.entries.map Prod.fst

/-- The values in the order of their keys. -/
def values (map : OrderedMap κ α) : List α :=
  map.entries.map Prod.snd

def size (map : OrderedMap κ α) : Nat :=
  map.entries.length

variable [DecidableEq κ]

/-- The value that a list of entries holds under a key. -/
def find? (key : κ) : List (κ × α) → Option α
  | [] => none
  | (other, value) :: rest => if other = key then some value else find? key rest

def get? (map : OrderedMap κ α) (key : κ) : Option α :=
  find? key map.entries

def contains (map : OrderedMap κ α) (key : κ) : Bool :=
  (map.get? key).isSome

/-- Changes the entry of a key in place, or appends an entry when the key is new. -/
def alterEntries (key : κ) (change : Option α → α) : List (κ × α) → List (κ × α)
  | [] => [(key, change none)]
  | (other, value) :: rest =>
    if other = key then
      (other, change (some value)) :: rest
    else
      (other, value) :: alterEntries key change rest

/-- A present key moves nothing; a new key goes to the end. -/
theorem keys_alterEntries (key : κ) (change : Option α → α) (entries : List (κ × α)) :
    (alterEntries key change entries).map Prod.fst =
      if key ∈ entries.map Prod.fst then entries.map Prod.fst
      else entries.map Prod.fst ++ [key] := by
  induction entries with
  | nil => simp [alterEntries]
  | cons entry rest ih =>
    obtain ⟨other, value⟩ := entry
    by_cases same : other = key
    · simp [alterEntries, same]
    · have different : key ≠ other := fun equal => same equal.symm
      by_cases present : key ∈ rest.map Prod.fst
      · rw [if_pos present] at ih
        simp only [alterEntries, if_neg same, List.map_cons, ih]
        rw [if_pos (List.mem_cons_of_mem _ present)]
      · rw [if_neg present] at ih
        simp only [alterEntries, if_neg same, List.map_cons, ih]
        rw [if_neg (by simp [different]; simpa using present)]
        simp

theorem distinctKeys_alterEntries (key : κ) (change : Option α → α) {entries : List (κ × α)}
    (distinct : (entries.map Prod.fst).Nodup) :
    ((alterEntries key change entries).map Prod.fst).Nodup := by
  rw [keys_alterEntries]
  split
  · exact distinct
  · rename_i absent
    rw [List.nodup_append]
    refine ⟨distinct, by simp, ?_⟩
    intro other present last isKey equal
    simp only [List.mem_singleton] at isKey
    exact absent (isKey ▸ equal ▸ present)

/-- Changes what a key holds; a new key is written at the end. -/
def alter (map : OrderedMap κ α) (key : κ) (change : Option α → α) : OrderedMap κ α :=
  ⟨alterEntries key change map.entries, distinctKeys_alterEntries key change map.distinctKeys⟩

/-- Writes a value under a key: a present key keeps its place, a new key goes to the end. -/
def insert (map : OrderedMap κ α) (key : κ) (value : α) : OrderedMap κ α :=
  map.alter key fun _ => value

def ofList (entries : List (κ × α)) : OrderedMap κ α :=
  entries.foldl (fun map entry => map.insert entry.1 entry.2) ∅

end OrderedMap

end UtilityCss
