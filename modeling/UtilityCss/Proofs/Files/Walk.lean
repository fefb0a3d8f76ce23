import Mathlib.Data.List.Induction
import Mathlib.Data.List.Nodup
import Mathlib.Algebra.Order.BigOperators.Group.List
import Mathlib.Algebra.Order.Group.Nat
import UtilityCss.Proofs.Files.Writing
import UtilityCss.Proofs.Text.ByteOrder

/-!
# Walks of a file tree

A walk reads the names in a directory, in whatever order the file system gives them, sorts them by
their bytes, and walks what stands at each of them in turn. Sorting each directory for itself orders
all files at once: a walk lists the files below its start in the order of their places, so every
walk gives the list that is read off the entries of the tree.
-/

namespace UtilityCss

namespace FileTree

variable {tree : FileTree} {place : Place} {entry : FileEntry}

/-! ## Rooted trees -/

/-- A tree as a file system holds it whose root directory is no entry of the tree. -/
structure IsRooted (tree : FileTree) : Prop extends tree.IsSound where
  nonempty : ∀ entry ∈ tree.entries, entry.1 ≠ []

/-- Writing a file never puts an entry at the root directory. -/
theorem WriteStep.isRooted {path : Text} {before after : FileTree}
    (step : WriteStep path before after) (rooted : before.IsRooted) : after.IsRooted := by
  refine ⟨step.isSound rooted.toIsSound, ?_⟩
  intro item member
  cases step with
  | ofDirectory free named inDirectory =>
      rcases mem_or_mem_of_putEntry member with rfl | present
      · exact ne_nil_of_free free
      · exact rooted.nonempty item present
  | ofText text target noDirectory named inDirectory =>
      rcases mem_or_mem_of_putEntry member with rfl | present
      · exact ne_nil_of_noDirectory noDirectory
      · exact rooted.nonempty item present

theorem Written.isRooted {path : Text} {before after : FileTree}
    (written : Written path before after) (rooted : before.IsRooted) : after.IsRooted := by
  induction written with
  | refl => exact rooted
  | tail _ step ih => exact step.isRooted ih

theorem find?_eq_some_of_mem {entries : List (Place × FileEntry)}
    (ordered : (entries.map Prod.fst).Pairwise (· < ·)) (member : (place, entry) ∈ entries) :
    find? place entries = some entry := by
  induction entries with
  | nil => cases member
  | cons head rest ih =>
      rcases head with ⟨first, present⟩
      rcases List.pairwise_cons.mp ordered with ⟨smaller, later⟩
      rw [find?]
      rcases List.mem_cons.mp member with isHead | inRest
      · cases isHead
        exact if_pos rfl
      · rw [if_neg (place_ne_of_lt (smaller place (List.mem_map_of_mem inRest)))]
        exact ih later inRest

theorem mem_entries_iff (nonempty : place ≠ []) :
    (place, entry) ∈ tree.entries ↔ tree.entryAt? place = some entry := by
  constructor
  · intro member
    rw [entryAt?, if_neg (by simpa using nonempty)]
    exact find?_eq_some_of_mem tree.ordered member
  · exact mem_entries_of_entryAt? nonempty

theorem IsRooted.mem_entries_iff (rooted : tree.IsRooted) :
    (place, entry) ∈ tree.entries ↔ place ≠ [] ∧ tree.entryAt? place = some entry := by
  constructor
  · intro member
    have nonempty := rooted.nonempty _ member
    exact ⟨nonempty, (FileTree.mem_entries_iff nonempty).mp member⟩
  · rintro ⟨nonempty, found⟩
    exact mem_entries_of_entryAt? nonempty found

/-- Two lists in the order of the places of their items are the same if they have the same items. -/
theorem eq_of_pairwise_lt {α : Type} (key : α → Place) {first second : List α}
    (firstOrdered : first.Pairwise (key · < key ·))
    (secondOrdered : second.Pairwise (key · < key ·))
    (same : ∀ item, item ∈ first ↔ item ∈ second) : first = second := by
  have distinct : ∀ {items : List α}, items.Pairwise (key · < key ·) → items.Nodup := by
    intro items ordered
    apply ordered.imp
    rintro item _ before rfl
    exact not_place_lt_self _ before
  apply List.Perm.eq_of_pairwise _ firstOrdered secondOrdered
  · exact (List.perm_ext_iff_of_nodup (distinct firstOrdered) (distinct secondOrdered)).mpr same
  · intro item other _ _ before behind
    exact absurd behind (List.lt_asymm before)

/-- What stands at each place determines a rooted tree, its working directory apart. -/
theorem IsRooted.eq_of_entryAt?_eq {other : FileTree} (rooted : tree.IsRooted)
    (otherRooted : other.IsRooted) (sameHome : other.home = tree.home)
    (same : ∀ place, other.entryAt? place = tree.entryAt? place) : other = tree := by
  have sameEntries : other.entries = tree.entries := by
    apply eq_of_pairwise_lt Prod.fst (List.pairwise_map.mp other.ordered)
      (List.pairwise_map.mp tree.ordered)
    rintro ⟨place, entry⟩
    rw [otherRooted.mem_entries_iff, rooted.mem_entries_iff, same]
  cases tree
  cases other
  cases sameHome
  cases sameEntries
  rfl

/-- What stands somewhere below a place stands below a directory. -/
theorem IsSound.isDirectoryAt_of_below (sound : tree.IsSound) {names : List Text}
    (nonempty : names ≠ []) (found : tree.entryAt? (place ++ names) = some entry) :
    tree.isDirectoryAt place = true := by
  induction names using List.reverseRecOn generalizing entry with
  | nil => exact absurd rfl nonempty
  | append_singleton names last ih =>
      have inDirectory := sound.isDirectoryAt_dropLast found
      rw [← List.append_assoc, List.dropLast_concat] at inDirectory
      by_cases top : names = []
      · simpa [top] using inDirectory
      · exact ih top (isDirectoryAt_iff.mp inDirectory)

theorem IsSound.isSome_entryAt?_of_below (sound : tree.IsSound) {names : List Text}
    (found : tree.entryAt? (place ++ names) = some entry) :
    (tree.entryAt? place).isSome = true := by
  by_cases same : names = []
  · rw [same, List.append_nil] at found
    rw [found]
    rfl
  · rw [isDirectoryAt_iff.mp (sound.isDirectoryAt_of_below same found)]
    rfl

/-! ## Files below a place -/

theorem IsRooted.mem_filesBelow_iff (rooted : tree.IsRooted) {start : Place} {names : List Text} :
    names ∈ tree.filesBelow start ↔
      ∃ content, tree.entryAt? (start ++ names) = some (.file content) := by
  rw [mem_filesBelow]
  apply exists_congr
  intro content
  rw [rooted.mem_entries_iff, and_iff_right_iff_imp]
  intro found empty
  rw [empty] at found
  cases found

theorem lt_of_append_lt {start names more : Place} (less : start ++ names < start ++ more) :
    names < more := by
  induction start with
  | nil => exact less
  | cons name start ih =>
      rcases List.cons_lt_cons_iff.mp less with before | ⟨_, later⟩
      · exact absurd before (List.lt_irrefl name)
      · exact ih later

/-- The files below a place are listed in the order of their places. -/
theorem pairwise_filesBelow (tree : FileTree) (start : Place) :
    (tree.filesBelow start).Pairwise (· < ·) := by
  rw [filesBelow, List.pairwise_filterMap]
  apply List.Pairwise.imp _ (List.pairwise_map.mp tree.ordered)
  rintro ⟨first, _ | _⟩ ⟨second, _ | _⟩ before names isFirst more isSecond
  · simp only [Option.ite_none_right_eq_some, List.isPrefixOf_iff_prefix,
      Option.some.injEq] at isFirst isSecond
    rcases isFirst with ⟨⟨names, rfl⟩, rfl⟩
    rcases isSecond with ⟨⟨more, rfl⟩, rfl⟩
    rw [List.drop_left, List.drop_left]
    exact lt_of_append_lt before
  · cases isSecond
  · cases isFirst
  · cases isFirst

/-! ## Walks -/

/-- The names in each directory as reading it gives them: each one once, in any order. -/
structure IsListing (tree : FileTree) (names : Place → List Text) : Prop where
  nodup : ∀ place, (names place).Nodup
  mem_iff : ∀ place name, name ∈ names place ↔ (tree.entryAt? (place ++ [name])).isSome = true

/-- Names in the order of their bytes. -/
def sortByBytes (names : List Text) : List Text :=
  names.mergeSort fun first second => Glob.bytes first ≤ Glob.bytes second

/-- A walk from a place, with the names in directories as they are read, and the files that it comes
to, by the names that lead to them from the place. -/
inductive Walk (tree : FileTree) (names : Place → List Text) : Place → List (List Text) → Prop where
  | ofFile {place : Place} {content : Content}
      (found : tree.entryAt? place = some (.file content)) : Walk tree names place [[]]
  | ofDirectory {place : Place} {below : Text → List (List Text)}
      (found : tree.entryAt? place = some .directory)
      (walks : ∀ name ∈ names place, Walk tree names (place ++ [name]) (below name)) :
      Walk tree names place
        ((sortByBytes (names place)).flatMap fun name => (below name).map (name :: ·))

variable {names : Place → List Text}

theorem mem_sortByBytes {name : Text} {names : List Text} :
    name ∈ sortByBytes names ↔ name ∈ names :=
  List.mem_mergeSort

theorem pairwise_sortByBytes {names : List Text} (nodup : names.Nodup) :
    (sortByBytes names).Pairwise (· < ·) := by
  have sorted : (sortByBytes names).Pairwise fun first second =>
      decide (Glob.bytes first ≤ Glob.bytes second) = true := by
    apply List.pairwise_mergeSort
    · intro first second third before later
      simp only [decide_eq_true_eq] at before later ⊢
      exact List.le_trans before later
    · intro first second
      simpa using List.le_total (Glob.bytes first) (Glob.bytes second)
  have distinct : (sortByBytes names).Nodup := (List.mergeSort_perm names _).nodup_iff.mpr nodup
  apply (sorted.and distinct).imp
  rintro first second ⟨before, different⟩
  exact Glob.lt_of_bytes_le (decide_eq_true_eq.mp before) different

namespace Walk

variable {start : Place} {found : List (List Text)}

theorem pairwise (walk : Walk tree names start found) (listing : tree.IsListing names) :
    found.Pairwise (· < ·) := by
  induction walk with
  | ofFile found => exact List.pairwise_singleton _ _
  | @ofDirectory place below found walks ih =>
      rw [List.pairwise_flatMap]
      constructor
      · intro name member
        rw [List.pairwise_map]
        apply (ih name (mem_sortByBytes.mp member)).imp
        intro first second before
        exact List.cons_lt_cons_iff.mpr (Or.inr ⟨rfl, before⟩)
      · apply (pairwise_sortByBytes (listing.nodup place)).imp
        intro first second before names inFirst more inSecond
        rcases List.mem_map.mp inFirst with ⟨names, _, rfl⟩
        rcases List.mem_map.mp inSecond with ⟨more, _, rfl⟩
        exact List.cons_lt_cons_iff.mpr (Or.inl before)

theorem mem_iff (walk : Walk tree names start found) (listing : tree.IsListing names)
    (sound : tree.IsSound) {file : List Text} :
    file ∈ found ↔ ∃ content, tree.entryAt? (start ++ file) = some (.file content) := by
  induction walk generalizing file with
  | @ofFile place content found =>
      rw [List.mem_singleton]
      constructor
      · rintro rfl
        exact ⟨content, by rwa [List.append_nil]⟩
      · rintro ⟨other, stands⟩
        apply Classical.byContradiction
        intro nonempty
        have isDirectory := isDirectoryAt_iff.mp (sound.isDirectoryAt_of_below nonempty stands)
        rw [found] at isDirectory
        cases isDirectory
  | @ofDirectory place below found walks ih =>
      simp only [List.mem_flatMap, List.mem_map, mem_sortByBytes]
      constructor
      · rintro ⟨name, member, rest, inBelow, rfl⟩
        simpa using (ih name member).mp inBelow
      · rintro ⟨content, stands⟩
        cases file with
        | nil =>
            rw [List.append_nil, found] at stands
            cases stands
        | cons name rest =>
            rw [List.append_cons] at stands
            have member : name ∈ names place :=
              (listing.mem_iff place name).mpr (sound.isSome_entryAt?_of_below stands)
            exact ⟨name, member, rest, (ih name member).mpr ⟨content, stands⟩, rfl⟩

/-- Every walk comes to the files below its start in the order of their places. -/
theorem eq_filesBelow (walk : Walk tree names start found) (listing : tree.IsListing names)
    (rooted : tree.IsRooted) : found = tree.filesBelow start := by
  apply eq_of_pairwise_lt id (walk.pairwise listing) (tree.pairwise_filesBelow start)
  intro file
  rw [walk.mem_iff listing rooted.toIsSound, rooted.mem_filesBelow_iff]

end Walk

/-- The places of a tree are bounded in length. -/
theorem exists_length_le (tree : FileTree) :
    ∃ bound, ∀ place entry, tree.entryAt? place = some entry → place.length ≤ bound := by
  refine ⟨(tree.entries.map fun item => item.1.length).sum, ?_⟩
  intro place entry found
  by_cases top : place = []
  · simp [top]
  · have member := List.mem_map_of_mem (f := fun item => item.1.length)
      (mem_entries_of_entryAt? top found)
    exact List.le_sum_of_mem member

/-- A place where something stands can be walked from. -/
theorem walk_filesBelow (rooted : tree.IsRooted) (listing : tree.IsListing names) {start : Place}
    (found : tree.entryAt? start = some entry) : Walk tree names start (tree.filesBelow start) := by
  rcases tree.exists_length_le with ⟨bound, within⟩
  -- each step of a walk leads one name further, towards the bound
  obtain ⟨fuel, enough⟩ : ∃ fuel, bound < start.length + fuel := ⟨bound + 1, by omega⟩
  induction fuel generalizing start entry with
  | zero =>
      have short := within start entry found
      omega
  | succ fuel ih =>
      cases entry with
      | file content =>
          have walk : Walk tree names start [[]] := .ofFile found
          exact walk.eq_filesBelow listing rooted ▸ walk
      | directory =>
          have walks : ∀ name ∈ names start,
              Walk tree names (start ++ [name]) (tree.filesBelow (start ++ [name])) := by
            intro name member
            rw [listing.mem_iff, Option.isSome_iff_exists] at member
            rcases member with ⟨entry, stands⟩
            apply ih stands
            rw [List.length_append, List.length_singleton]
            omega
          have walk := Walk.ofDirectory found walks
          exact walk.eq_filesBelow listing rooted ▸ walk

/-! ## Reading a directory -/

/-- The last name of a place in a directory. -/
def nameIn? (directory place : Place) : Option Text :=
  if place.dropLast = directory then place.getLast? else none

/-- The names in a directory, in the order of the tree. -/
def namesIn (tree : FileTree) (directory : Place) : List Text :=
  (tree.entries.map Prod.fst).filterMap (nameIn? directory)

theorem nameIn?_eq_some_iff {directory : Place} {name : Text} :
    nameIn? directory place = some name ↔ place = directory ++ [name] := by
  rw [nameIn?]
  constructor
  · intro isName
    simp only [Option.ite_none_right_eq_some, List.getLast?_eq_some_iff] at isName
    rcases isName with ⟨isDirectory, before, rfl⟩
    rw [← isDirectory, List.dropLast_concat]
  · rintro rfl
    simp

theorem isListing_namesIn (tree : FileTree) : tree.IsListing tree.namesIn := by
  constructor
  · intro place
    apply List.Nodup.filterMap _ (tree.ordered.imp place_ne_of_lt)
    intro first second name isFirst isSecond
    rw [Option.mem_def, nameIn?_eq_some_iff] at isFirst isSecond
    rw [isFirst, isSecond]
  · intro place name
    rw [namesIn, List.mem_filterMap]
    simp only [nameIn?_eq_some_iff, List.mem_map, Option.isSome_iff_exists]
    constructor
    · rintro ⟨_, ⟨⟨place, entry⟩, member, rfl⟩, rfl⟩
      exact ⟨entry, (mem_entries_iff (by simp)).mp member⟩
    · rintro ⟨entry, found⟩
      exact ⟨_, ⟨_, (mem_entries_iff (by simp)).mpr found, rfl⟩, rfl⟩

end FileTree

end UtilityCss
