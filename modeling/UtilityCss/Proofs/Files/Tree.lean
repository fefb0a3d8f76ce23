import UtilityCss.Files.Tree
import UtilityCss.Proofs.Files.Path

/-!
# Entries of a file tree and the paths to them

An entry that is put at a place is found there, and all other places hold what they held. What is
listed below a place changes only by entries that count for the listing.

The place that a path leads to can be read off its components and the working directory. The tree
only decides whether the way can be followed, and a way that can be followed stays open as long as
its directories do.
-/

namespace UtilityCss

namespace FileTree

variable {place other : Place} {entry : FileEntry} {entries : List (Place × FileEntry)}

/-! ## Entries -/

theorem not_place_lt_self (place : Place) : ¬place < place :=
  List.lt_irrefl place

theorem place_ne_of_lt (before : place < other) : place ≠ other := by
  rintro rfl
  exact not_place_lt_self place before

theorem find?_putEntry (place other : Place) (entry : FileEntry)
    (entries : List (Place × FileEntry)) :
    find? other (putEntry place entry entries) =
      if other = place then some entry else find? other entries := by
  induction entries with
  | nil => simp [putEntry, find?, eq_comm]
  | cons head rest ih =>
      rcases head with ⟨first, present⟩
      rw [putEntry]
      split
      · simp [find?, eq_comm]
      · rename_i notBefore
        split
        · rename_i behind
          by_cases isFirst : first = other
          · have different : other ≠ place := by
              rintro rfl
              exact not_place_lt_self _ (isFirst ▸ behind)
            simp [find?, isFirst, different]
          · simp [find?, isFirst, ih]
        · rename_i notBehind
          have same : place = first := place_eq_of_not_lt notBefore notBehind
          by_cases isPlace : other = place
          · simp [find?, isPlace]
          · have different : first ≠ other := fun equal => isPlace (equal.symm.trans same.symm)
            simp [find?, isPlace, Ne.symm isPlace, different]

theorem mem_of_find?_eq_some (found : find? place entries = some entry) :
    (place, entry) ∈ entries := by
  induction entries with
  | nil => cases found
  | cons head rest ih =>
      rcases head with ⟨first, present⟩
      rw [find?] at found
      split at found
      · rename_i same
        cases found
        exact same ▸ List.mem_cons_self
      · exact List.mem_cons_of_mem _ (ih found)

theorem mem_or_mem_of_putEntry {item : Place × FileEntry}
    (member : item ∈ putEntry place entry entries) : item = (place, entry) ∨ item ∈ entries := by
  induction entries with
  | nil => exact Or.inl (List.mem_singleton.mp member)
  | cons head rest ih =>
      rw [putEntry] at member
      split at member
      · exact List.mem_cons.mp member
      · split at member
        · rcases List.mem_cons.mp member with isHead | inRest
          · exact Or.inr (isHead ▸ List.mem_cons_self)
          · exact (ih inRest).imp_right (List.mem_cons_of_mem _)
        · rcases List.mem_cons.mp member with isNew | inRest
          · exact Or.inl isNew
          · exact Or.inr (List.mem_cons_of_mem _ inRest)

/-- An entry that counts for nothing, put where nothing stood that counts. -/
theorem filterMap_putEntry {α : Type} {value : Place × FileEntry → Option α}
    (noNew : value (place, entry) = none)
    (noOld : ∀ present, find? place entries = some present → value (place, present) = none) :
    (putEntry place entry entries).filterMap value = entries.filterMap value := by
  induction entries with
  | nil => simp [putEntry, noNew]
  | cons head rest ih =>
      rcases head with ⟨first, present⟩
      rw [putEntry]
      split
      · rw [List.filterMap_cons_none noNew]
      · rename_i notBefore
        split
        · rename_i behind
          have different : first ≠ place := place_ne_of_lt behind
          have inRest := ih fun present found => noOld present (by simp [find?, different, found])
          rw [List.filterMap_cons, List.filterMap_cons, inRest]
        · rename_i notBehind
          have same : place = first := place_eq_of_not_lt notBefore notBehind
          subst same
          have noFirst := noOld present (by simp [find?])
          rw [List.filterMap_cons_none noNew, List.filterMap_cons_none noFirst]

theorem putEntry_eq_self (ordered : (entries.map Prod.fst).Pairwise (· < ·))
    (found : find? place entries = some entry) : putEntry place entry entries = entries := by
  induction entries with
  | nil => cases found
  | cons head rest ih =>
      rcases head with ⟨first, present⟩
      rcases List.pairwise_cons.mp ordered with ⟨smaller, later⟩
      rw [find?] at found
      split at found
      · rename_i same
        cases found
        rw [putEntry, same, if_neg (not_place_lt_self place), if_neg (not_place_lt_self place)]
      · have before : first < place :=
          smaller place (List.mem_map_of_mem (mem_of_find?_eq_some found))
        simp [putEntry, before, List.lt_asymm before, ih later found]

theorem entryAt?_put (tree : FileTree) (nonempty : place ≠ []) (other : Place) :
    (tree.put place entry).entryAt? other =
      if other = place then some entry else tree.entryAt? other := by
  by_cases isRoot : other = []
  · subst isRoot
    simp [entryAt?, Ne.symm nonempty]
  · simp [entryAt?, isRoot, put, find?_putEntry]

@[simp]
theorem home_put (tree : FileTree) (place : Place) (entry : FileEntry) :
    (tree.put place entry).home = tree.home := rfl

theorem put_eq_self {tree : FileTree} (nonempty : place ≠ [])
    (found : tree.entryAt? place = some entry) : tree.put place entry = tree := by
  have inEntries : find? place tree.entries = some entry := by
    simpa [entryAt?, nonempty] using found
  rcases tree with ⟨home, entries, ordered⟩
  simp only [put, mk.injEq, true_and]
  exact putEntry_eq_self ordered inEntries

theorem mem_entries_of_entryAt? {tree : FileTree} (nonempty : place ≠ [])
    (found : tree.entryAt? place = some entry) : (place, entry) ∈ tree.entries :=
  mem_of_find?_eq_some (by simpa [entryAt?, nonempty] using found)

theorem isDirectoryAt_iff {tree : FileTree} :
    tree.isDirectoryAt place = true ↔ tree.entryAt? place = some .directory := by
  simp [isDirectoryAt]

theorem isDirectoryAt_nil (tree : FileTree) : tree.isDirectoryAt [] = true := rfl

theorem mem_filesBelow {tree : FileTree} {start : Place} {names : List Text} :
    names ∈ tree.filesBelow start ↔
      ∃ content, (start ++ names, .file content) ∈ tree.entries := by
  rw [filesBelow, List.mem_filterMap]
  constructor
  · rintro ⟨⟨place, _ | _⟩, member, found⟩
    · rename_i content
      simp only [Option.ite_none_right_eq_some, List.isPrefixOf_iff_prefix,
        Option.some.injEq] at found
      rcases found with ⟨⟨more, rfl⟩, isRest⟩
      rw [List.drop_left] at isRest
      exact ⟨content, isRest ▸ member⟩
    · cases found
  · rintro ⟨content, member⟩
    exact ⟨_, member, by simp⟩

/-- Putting an entry changes the wanted files below a place only where the entry is put. -/
theorem filter_filesBelow_put (tree : FileTree) {start : Place} {isWanted : List Text → Bool}
    (noNew : ∀ content names, entry = .file content → start ++ names = place →
      isWanted names = false)
    (noOld : ∀ content names, tree.entryAt? place = some (.file content) →
      start ++ names = place → isWanted names = false) (nonempty : place ≠ []) :
    ((tree.put place entry).filesBelow start).filter isWanted =
      (tree.filesBelow start).filter isWanted := by
  have noNames : ∀ content,
      entry = .file content ∨ tree.entryAt? place = some (.file content) →
        start.isPrefixOf place = true → isWanted (place.drop start.length) = false := by
    intro content stands below
    rcases List.isPrefixOf_iff_prefix.mp below with ⟨names, isPlace⟩
    rw [← isPlace, List.drop_left]
    rcases stands with new | old
    · exact noNew content names new isPlace
    · exact noOld content names old isPlace
  rw [filesBelow, filesBelow, List.filter_filterMap, List.filter_filterMap]
  apply filterMap_putEntry
  · cases entry with
    | directory => rfl
    | file content =>
        by_cases below : start.isPrefixOf place
        · simp [below, noNames content (Or.inl rfl) below]
        · simp [below]
  · intro present found
    cases present with
    | directory => rfl
    | file content =>
        have stands : tree.entryAt? place = some (.file content) := by
          simp [entryAt?, nonempty, found]
        by_cases below : start.isPrefixOf place
        · simp [below, noNames content (Or.inr stands) below]
        · simp [below]

/-! ## Following paths -/

theorem lead_of_follow? {tree : FileTree} {start place : Place} {segments : List Text}
    (followed : tree.follow? start segments = some place) :
    Path.lead start (Path.laterComponents segments) = place := by
  induction segments generalizing start with
  | nil => exact Option.some.inj followed
  | cons segment segments ih =>
      rw [follow?] at followed
      split at followed
      · cases followed
      · rw [Path.laterComponents_cons]
        split at followed
        · rename_i void
          rw [if_pos void]
          exact ih followed
        · rename_i notVoid
          rw [if_neg notVoid, Path.componentOf]
          split at followed
          · rename_i isUp
            rw [if_pos isUp]
            exact ih followed
          · rename_i notUp
            rw [if_neg notUp]
            exact ih followed

theorem placeOf?_eq_some_iff {tree : FileTree} {path : Text} :
    tree.placeOf? path = some place ↔
      path ≠ [] ∧ tree.follow? (Path.startOf tree.home path) (Path.segments path) = some place := by
  simp [placeOf?]

theorem target?_of_placeOf? {tree : FileTree} {path : Text}
    (found : tree.placeOf? path = some place) : Path.target? tree.home path = some place := by
  rcases placeOf?_eq_some_iff.mp found with ⟨nonempty, followed⟩
  rw [Path.target?_of_ne_nil _ nonempty, Path.lead_components _ nonempty,
    lead_of_follow? followed]

/-- A way that can be followed in one tree can be followed in every tree that has its directories.
-/
theorem follow?_mono {tree later : FileTree}
    (keeps : ∀ place, tree.isDirectoryAt place = true → later.isDirectoryAt place = true)
    {start : Place} {segments : List Text} (followed : tree.follow? start segments = some place) :
    later.follow? start segments = some place := by
  induction segments generalizing start with
  | nil => exact followed
  | cons segment segments ih =>
      rw [follow?] at followed ⊢
      cases isDirectory : tree.isDirectoryAt start with
      | false => simp [isDirectory] at followed
      | true =>
          simp only [isDirectory, keeps start isDirectory, Bool.not_true, Bool.false_eq_true,
            if_false] at followed ⊢
          split
          · rename_i void
            rw [if_pos void] at followed
            exact ih followed
          · rename_i notVoid
            rw [if_neg notVoid] at followed
            split
            · rename_i isUp
              rw [if_pos isUp] at followed
              exact ih followed
            · rename_i notUp
              rw [if_neg notUp] at followed
              exact ih followed

theorem contains_iff {tree : FileTree} {path : Text} :
    tree.contains path = true ↔
      ∃ place entry, tree.placeOf? path = some place ∧ tree.entryAt? place = some entry := by
  simp only [contains, lookup?, Option.isSome_iff_exists, Option.bind_eq_some_iff]
  rw [exists_comm]

theorem placeOf?_mono {tree later : FileTree} (sameHome : later.home = tree.home)
    (keeps : ∀ place, tree.isDirectoryAt place = true → later.isDirectoryAt place = true)
    {path : Text} (found : tree.placeOf? path = some place) :
    later.placeOf? path = some place := by
  rcases placeOf?_eq_some_iff.mp found with ⟨nonempty, followed⟩
  rw [← sameHome] at followed
  exact placeOf?_eq_some_iff.mpr ⟨nonempty, follow?_mono keeps followed⟩

end FileTree

end UtilityCss
