import Mathlib.Data.List.Induction
import UtilityCss.Ordered.Map

/-!
# Look-up in ordered maps

A change of one key is seen under that key and nowhere else, and it moves no other key. Together
with the order of the keys, look-up determines a map. A map that is filled from its own entries is
the map again, since no key is written twice.
-/

namespace UtilityCss

universe u v

namespace OrderedMap

variable {κ : Type u} {α : Type v} [DecidableEq κ]

@[simp]
theorem get?_empty (key : κ) : (∅ : OrderedMap κ α).get? key = none := rfl

omit [DecidableEq κ] in
@[simp]
theorem keys_empty : (∅ : OrderedMap κ α).keys = [] := rfl

theorem find?_alterEntries (key other : κ) (change : Option α → α) (entries : List (κ × α)) :
    find? other (alterEntries key change entries) =
      if other = key then some (change (find? key entries)) else find? other entries := by
  induction entries with
  | nil =>
      by_cases asked : other = key
      · simp [alterEntries, find?, asked]
      · simp [alterEntries, find?, asked, Ne.symm asked]
  | cons entry rest ih =>
      rcases entry with ⟨present, value⟩
      by_cases changed : present = key
      · subst present
        by_cases asked : other = key
        · simp [alterEntries, find?, asked]
        · simp [alterEntries, find?, asked, Ne.symm asked]
      · by_cases asked : present = other
        · subst other
          simp [alterEntries, find?, changed]
        · simp [alterEntries, find?, changed, asked, ih]

/-- A change is seen under the changed key and under no other. -/
theorem get?_alter (map : OrderedMap κ α) (key other : κ) (change : Option α → α) :
    (map.alter key change).get? other =
      if other = key then some (change (map.get? key)) else map.get? other :=
  find?_alterEntries key other change map.entries

theorem keys_alter (map : OrderedMap κ α) (key : κ) (change : Option α → α) :
    (map.alter key change).keys =
      if key ∈ map.keys then map.keys else map.keys ++ [key] :=
  keys_alterEntries key change map.entries

theorem mem_of_find?_eq_some {entries : List (κ × α)} {key : κ} {value : α}
    (found : find? key entries = some value) : (key, value) ∈ entries := by
  induction entries with
  | nil => cases found
  | cons entry rest ih =>
      rcases entry with ⟨other, held⟩
      rw [find?] at found
      split at found
      · rename_i same
        subst other
        cases found
        exact List.mem_cons_self
      · exact List.mem_cons_of_mem _ (ih found)

theorem mem_keys_of_get?_eq_some {map : OrderedMap κ α} {key : κ} {value : α}
    (found : map.get? key = some value) : key ∈ map.keys :=
  List.mem_map_of_mem (mem_of_find?_eq_some found)

theorem find?_of_mem {entries : List (κ × α)} (distinct : (entries.map Prod.fst).Nodup)
    {key : κ} {value : α} (member : (key, value) ∈ entries) :
    find? key entries = some value := by
  induction entries with
  | nil => simp at member
  | cons entry rest ih =>
      rcases entry with ⟨other, held⟩
      simp only [List.map_cons, List.nodup_cons] at distinct
      rcases List.mem_cons.mp member with isFirst | inRest
      · rcases Prod.mk.inj isFirst with ⟨rfl, rfl⟩
        simp [find?]
      · have later : key ∈ rest.map Prod.fst := List.mem_map_of_mem inRest
        have different : other ≠ key := fun equal => distinct.1 (equal ▸ later)
        simp [find?, different, ih distinct.2 inRest]

theorem get?_eq_some_iff {map : OrderedMap κ α} {key : κ} {value : α} :
    map.get? key = some value ↔ (key, value) ∈ map.entries :=
  ⟨mem_of_find?_eq_some, find?_of_mem map.distinctKeys⟩

theorem contains_iff_mem_keys {map : OrderedMap κ α} {key : κ} :
    map.contains key = true ↔ key ∈ map.keys := by
  rw [contains, Option.isSome_iff_exists]
  constructor
  · rintro ⟨value, found⟩
    exact mem_keys_of_get?_eq_some found
  · intro member
    rcases List.mem_map.mp member with ⟨⟨_, value⟩, isEntry, rfl⟩
    exact ⟨value, get?_eq_some_iff.mpr isEntry⟩

/-- A map is determined by the order of its keys and by what is found under them. -/
theorem entries_eq_map_keys {map : OrderedMap κ α} {held : κ → α}
    (lookup : ∀ key ∈ map.keys, map.get? key = some (held key)) :
    map.entries = map.keys.map fun key => (key, held key) := by
  have same : ∀ entry ∈ map.entries, (entry.1, held entry.1) = entry := by
    rintro ⟨key, value⟩ member
    have found : map.get? key = some value := find?_of_mem map.distinctKeys member
    have expected : map.get? key = some (held key) := lookup key (List.mem_map_of_mem member)
    rw [found] at expected
    rw [Option.some.inj expected]
  calc
    map.entries = map.entries.map id := (List.map_id map.entries).symm
    _ = map.entries.map fun entry => (entry.1, held entry.1) :=
        (List.map_congr_left same).symm
    _ = map.keys.map fun key => (key, held key) := by simp [keys]

/-! ## Maps filled from lists -/

omit [DecidableEq κ] in
theorem eq_of_entries_eq {first second : OrderedMap κ α} (equal : first.entries = second.entries) :
    first = second := by
  cases first
  cases second
  simpa using equal

theorem alterEntries_of_not_mem {key : κ} (change : Option α → α) {entries : List (κ × α)}
    (absent : key ∉ entries.map Prod.fst) :
    alterEntries key change entries = entries ++ [(key, change none)] := by
  induction entries with
  | nil => rfl
  | cons entry rest ih =>
      simp only [List.map_cons, List.mem_cons, not_or] at absent
      rw [alterEntries, if_neg (Ne.symm absent.1), ih absent.2, List.cons_append]

theorem entries_insert_of_not_mem {map : OrderedMap κ α} {key : κ} (absent : key ∉ map.keys)
    (value : α) : (map.insert key value).entries = map.entries ++ [(key, value)] :=
  alterEntries_of_not_mem (fun _ => value) absent

theorem entries_ofList {entries : List (κ × α)} (distinct : (entries.map Prod.fst).Nodup) :
    (ofList entries).entries = entries := by
  induction entries using List.reverseRecOn with
  | nil => rfl
  | append_singleton entries last ih =>
      rw [List.map_append, List.nodup_append] at distinct
      have before : (ofList entries).entries = entries := ih distinct.1
      have absent : last.1 ∉ (ofList entries).keys := by
        rw [keys, before]
        intro member
        exact distinct.2.2 last.1 member last.1 (by simp) rfl
      have step : ofList (entries ++ [last]) = (ofList entries).insert last.1 last.2 := by
        simp [ofList]
      rw [step, entries_insert_of_not_mem absent, before]

@[simp]
theorem ofList_entries (map : OrderedMap κ α) : ofList map.entries = map :=
  eq_of_entries_eq (entries_ofList map.distinctKeys)

end OrderedMap

end UtilityCss
