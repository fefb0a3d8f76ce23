import UtilityCss.Proofs.Ordered.Map
import UtilityCss.Proofs.Ordered.Set
import UtilityCss.Style.Store

/-!
# What a store holds after additions

A store that was filled by additions holds an entry for each key that got a declaration, in the
order in which the keys first got one. Under a key stand all declarations that were added under it,
each at its first occurrence; how the additions under different keys were interleaved is forgotten.
A reset forgets all additions before it.
-/

namespace UtilityCss

namespace StyleStore

/-- A store after additions of declarations under keys, one after another. -/
def addAll (store : StyleStore) (additions : List (RuleKey × List Declaration)) : StyleStore :=
  additions.foldl (fun current addition => current.add addition.1 addition.2) store

/-- All declarations that are added under a key, in order and with repetitions. -/
def addedUnder (key : RuleKey) (additions : List (RuleKey × List Declaration)) :
    List Declaration :=
  (additions.filter fun addition => addition.1 = key).flatMap Prod.snd

/-- The keys of additions that add something, in order and with repetitions. -/
def touchedKeys (additions : List (RuleKey × List Declaration)) : List RuleKey :=
  (additions.filter fun addition => !addition.2.isEmpty).map Prod.fst

def listing (store : StyleStore) : List (RuleKey × List Declaration) :=
  store.entries.map fun entry => (entry.1, entry.2.toList)

@[simp]
theorem add_nil (store : StyleStore) (key : RuleKey) : store.add key [] = store := rfl

/-- Declarations go under their key; every other key holds what it held. -/
theorem get?_add (store : StyleStore) (key other : RuleKey) {declarations : List Declaration}
    (nonempty : declarations ≠ []) :
    (store.add key declarations).get? other =
      if other = key then some (((store.get? key).getD ∅).insertAll declarations)
      else store.get? other := by
  simp [add, nonempty, OrderedMap.get?_alter]

theorem get?_add_of_ne (store : StyleStore) {key other : RuleKey} (different : other ≠ key)
    (declarations : List Declaration) :
    (store.add key declarations).get? other = store.get? other := by
  by_cases nonempty : declarations = []
  · rw [nonempty, add_nil]
  · rw [get?_add store key other nonempty, if_neg different]

theorem keys_add (store : StyleStore) (key : RuleKey) {declarations : List Declaration}
    (nonempty : declarations ≠ []) :
    (store.add key declarations).keys =
      if key ∈ store.keys then store.keys else store.keys ++ [key] := by
  simp [add, nonempty, OrderedMap.keys_alter]

theorem addAll_concat (store : StyleStore) (additions : List (RuleKey × List Declaration))
    (key : RuleKey) (declarations : List Declaration) :
    store.addAll (additions ++ [(key, declarations)]) =
      (store.addAll additions).add key declarations := by
  simp [addAll]

theorem addedUnder_append (key : RuleKey) (first second : List (RuleKey × List Declaration)) :
    addedUnder key (first ++ second) = addedUnder key first ++ addedUnder key second := by
  simp [addedUnder]

theorem addedUnder_concat (key other : RuleKey)
    (additions : List (RuleKey × List Declaration)) (declarations : List Declaration) :
    addedUnder key (additions ++ [(other, declarations)]) =
      addedUnder key additions ++ if other = key then declarations else [] := by
  by_cases same : other = key <;> simp [addedUnder, same]

theorem touchedKeys_concat (key : RuleKey) (additions : List (RuleKey × List Declaration))
    (declarations : List Declaration) :
    touchedKeys (additions ++ [(key, declarations)]) =
      touchedKeys additions ++ if declarations = [] then [] else [key] := by
  by_cases empty : declarations = [] <;> simp [touchedKeys, empty]

/-- A filled store holds, under each key, the first occurrences of what was added there. -/
theorem get?_addAll_empty (additions : List (RuleKey × List Declaration)) (key : RuleKey) :
    (addAll ∅ additions).get? key =
      if addedUnder key additions = [] then none
      else some (OrderedSet.ofList (addedUnder key additions)) := by
  induction additions using List.reverseRecOn with
  | nil => simp [addAll, addedUnder]
  | append_singleton additions addition ih =>
      rcases addition with ⟨other, declarations⟩
      rw [addAll_concat, addedUnder_concat]
      by_cases same : other = key
      · subst other
        by_cases empty : declarations = []
        · simp [empty, ih]
        · rw [get?_add _ _ _ empty, ih]
          by_cases before : addedUnder key additions = [] <;> simp [before, empty]
      · rw [get?_add_of_ne _ (Ne.symm same), ih]
        simp [same]

/-- The keys of a filled store are those that got a declaration, by their first addition. -/
theorem keys_addAll_empty (additions : List (RuleKey × List Declaration)) :
    (addAll ∅ additions).keys = (touchedKeys additions).eraseDups := by
  induction additions using List.reverseRecOn with
  | nil => rfl
  | append_singleton additions addition ih =>
      rcases addition with ⟨key, declarations⟩
      rw [addAll_concat, touchedKeys_concat]
      by_cases empty : declarations = []
      · simp [empty, ih]
      · rw [keys_add _ _ empty, ih, if_neg empty, Distinct.eraseDups_concat]
        simp only [List.mem_eraseDups]

theorem addedUnder_ne_nil_of_mem_touchedKeys {key : RuleKey}
    {additions : List (RuleKey × List Declaration)} (touched : key ∈ touchedKeys additions) :
    addedUnder key additions ≠ [] := by
  rcases List.mem_map.mp touched with ⟨⟨other, declarations⟩, kept, rfl⟩
  rcases List.mem_filter.mp kept with ⟨member, nonempty⟩
  intro empty
  have inner : declarations = [] := by
    simp only [addedUnder, List.flatMap_eq_nil_iff] at empty
    exact empty (other, declarations) (by simpa using member)
  simp [inner] at nonempty

/-- The whole content of a filled store, in terms of the additions alone. -/
theorem listing_addAll_empty (additions : List (RuleKey × List Declaration)) :
    (addAll ∅ additions).listing =
      (touchedKeys additions).eraseDups.map fun key =>
        (key, (addedUnder key additions).eraseDups) := by
  have lookup : ∀ key ∈ (addAll ∅ additions).keys,
      (addAll ∅ additions).get? key = some (OrderedSet.ofList (addedUnder key additions)) := by
    intro key member
    rw [keys_addAll_empty, List.mem_eraseDups] at member
    rw [get?_addAll_empty, if_neg (addedUnder_ne_nil_of_mem_touchedKeys member)]
  rw [listing, OrderedMap.entries_eq_map_keys lookup, keys_addAll_empty, List.map_map]
  apply List.map_congr_left
  intro key _
  simp [OrderedSet.toList_ofList]

theorem eq_of_listing_eq {first second : StyleStore} (equal : first.listing = second.listing) :
    first = second := by
  have apart : ∀ entry other : RuleKey × OrderedSet Declaration,
      (entry.1, entry.2.toList) = (other.1, other.2.toList) → entry = other := by
    rintro ⟨key, ⟨members, _⟩⟩ ⟨other, ⟨otherMembers, _⟩⟩ same
    simpa using same
  have entries : first.entries = second.entries := (List.map_inj_right apart).mp equal
  rcases first with ⟨firstEntries, _⟩
  rcases second with ⟨secondEntries, _⟩
  simpa using entries

/-- What stands under a key of a filled store is all that was added under it, and not nothing. -/
theorem eq_ofList_of_mem_addAll {additions : List (RuleKey × List Declaration)} {key : RuleKey}
    {declarations : OrderedSet Declaration}
    (member : (key, declarations) ∈ (addAll ∅ additions).entries) :
    addedUnder key additions ≠ [] ∧
      declarations = OrderedSet.ofList (addedUnder key additions) := by
  have found := OrderedMap.get?_eq_some_iff.mpr member
  rw [get?_addAll_empty] at found
  split at found
  · cases found
  · rename_i added
    exact ⟨added, (Option.some.inj found).symm⟩

/-- A filled store holds at least one declaration under each of its keys. -/
theorem toList_ne_nil_of_mem_addAll {additions : List (RuleKey × List Declaration)} {key : RuleKey}
    {declarations : OrderedSet Declaration}
    (member : (key, declarations) ∈ (addAll ∅ additions).entries) : declarations.toList ≠ [] := by
  rcases eq_ofList_of_mem_addAll member with ⟨added, rfl⟩
  rw [OrderedSet.toList_ofList]
  exact mt Distinct.eraseDups_eq_nil_iff.mp added

theorem length_listing (store : StyleStore) : store.listing.length = store.size := by
  simp [listing, OrderedMap.size]

/-! ## Additions and resets -/

/-- What can be done to a store. -/
inductive Operation where
  | add (key : RuleKey) (declarations : List Declaration)
  | reset
  deriving DecidableEq

def perform (store : StyleStore) : Operation → StyleStore
  | .add key declarations => store.add key declarations
  | .reset => ∅

/-- The store that operations make of the empty one. -/
def run (operations : List Operation) : StyleStore :=
  operations.foldl perform ∅

/-- The additions that count after one more operation. -/
def additionsAfter (additions : List (RuleKey × List Declaration)) :
    Operation → List (RuleKey × List Declaration)
  | .add key declarations => additions ++ [(key, declarations)]
  | .reset => []

/-- The additions since the last reset. -/
def additionsIn (operations : List Operation) : List (RuleKey × List Declaration) :=
  operations.foldl additionsAfter []

theorem perform_addAll (additions : List (RuleKey × List Declaration)) (operation : Operation) :
    (addAll ∅ additions).perform operation = addAll ∅ (additionsAfter additions operation) := by
  cases operation with
  | add key declarations => exact (addAll_concat ∅ additions key declarations).symm
  | reset => rfl

theorem add_mem_of_mem_additionsIn {operations : List Operation} {key : RuleKey}
    {declarations : List Declaration} (member : (key, declarations) ∈ additionsIn operations) :
    .add key declarations ∈ operations := by
  induction operations using List.reverseRecOn with
  | nil => cases member
  | append_singleton operations operation ih =>
      rw [additionsIn, List.foldl_append] at member
      cases operation with
      | add other more =>
          rcases List.mem_append.mp member with before | last
          · exact List.mem_append_left _ (ih before)
          · cases List.mem_singleton.mp last
            exact List.mem_append_right _ List.mem_cons_self
      | reset => cases member

/-- Only the additions since the last reset matter to what operations leave in a store. -/
theorem run_eq_addAll (operations : List Operation) :
    run operations = addAll ∅ (additionsIn operations) := by
  induction operations using List.reverseRecOn with
  | nil => rfl
  | append_singleton operations operation ih =>
      have lastStep : run (operations ++ [operation]) = (run operations).perform operation := by
        simp [run]
      rw [lastStep, ih, perform_addAll, additionsIn, additionsIn, List.foldl_append]
      rfl

theorem run_append_reset (earlier operations : List Operation) :
    run (earlier ++ .reset :: operations) = run operations := by
  simp [run, perform]

/-- What any operations leave in a store, in terms of the additions since the last reset. The keys
are those of the additions that add something, by the first such addition. Under a key stand the
first occurrences of all that was added there, and nothing if that is nothing. There are as many
entries as such keys, and nothing in front of a reset matters. -/
theorem run_determined_by_additions (operations : List Operation) :
    let additions := additionsIn operations
    let store := run operations
    store.keys = (touchedKeys additions).eraseDups ∧
      (∀ key, (store.get? key).map OrderedSet.toList =
        if addedUnder key additions = [] then none
        else some (addedUnder key additions).eraseDups) ∧
      store.size = (touchedKeys additions).eraseDups.length ∧
      ∀ earlier, run (earlier ++ .reset :: operations) = store := by
  intro additions store
  have filled : store = addAll ∅ additions := run_eq_addAll operations
  have keys : store.keys = (touchedKeys additions).eraseDups := by
    rw [filled, keys_addAll_empty]
  refine ⟨keys, ?_, ?_, ?_⟩
  · intro key
    rw [filled, get?_addAll_empty]
    by_cases nothing : addedUnder key additions = []
    · simp [nothing]
    · simp [nothing, OrderedSet.toList_ofList]
  · rw [← keys, OrderedMap.keys, List.length_map]
    rfl
  · intro earlier
    exact run_append_reset earlier operations

end StyleStore

end UtilityCss
