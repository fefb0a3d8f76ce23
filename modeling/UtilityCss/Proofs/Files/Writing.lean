import Mathlib.Logic.Relation
import UtilityCss.Proofs.Files.Tree

/-!
# What writing does to a file tree

Writing a file makes the directories on the way to it and puts the file at its place. Whether it
succeeds or stops halfway, what happens to the tree is a sequence of two kinds of steps: a directory
appears where nothing stood, or a text is put at the place that the path of the file leads to. So
directories stay, every other file stays, and writing the same text again changes nothing.
-/

namespace UtilityCss

namespace FileTree

variable {tree : FileTree} {path : Text} {place : Place} {entry : FileEntry}

/-- A tree as a file system holds it: its places consist of names, what stands at a place stands in
a directory, and the working directory is one. -/
structure IsSound (tree : FileTree) : Prop where
  named : ∀ entry ∈ tree.entries, ∀ name ∈ entry.1, Path.IsName name
  inDirectory : ∀ entry ∈ tree.entries, tree.isDirectoryAt entry.1.dropLast = true
  atHome : tree.isDirectoryAt tree.home = true

theorem IsSound.isName (sound : tree.IsSound) (found : tree.entryAt? place = some entry) :
    ∀ name ∈ place, Path.IsName name := by
  by_cases top : place = []
  · simp [top]
  · exact sound.named _ (mem_entries_of_entryAt? top found)

theorem IsSound.isDirectoryAt_dropLast (sound : tree.IsSound)
    (found : tree.entryAt? place = some entry) : tree.isDirectoryAt place.dropLast = true := by
  by_cases top : place = []
  · rw [top]
    exact tree.isDirectoryAt_nil
  · exact sound.inDirectory _ (mem_entries_of_entryAt? top found)

theorem IsSound.isDirectoryAt_startOf (sound : tree.IsSound) (path : Text) :
    tree.isDirectoryAt (Path.startOf tree.home path) = true := by
  rw [Path.startOf]
  split
  · exact tree.isDirectoryAt_nil
  · exact sound.atHome

/-- What one step of writing a file at a path can do. -/
inductive WriteStep (path : Text) (before : FileTree) : FileTree → Prop where
  | ofDirectory {place : Place} (free : before.entryAt? place = none)
      (named : ∀ name ∈ place, Path.IsName name)
      (inDirectory : before.isDirectoryAt place.dropLast = true) :
      WriteStep path before (before.put place .directory)
  | ofText {place : Place} (text : Text) (target : Path.target? before.home path = some place)
      (noDirectory : before.isDirectoryAt place = false)
      (named : ∀ name ∈ place, Path.IsName name)
      (inDirectory : before.isDirectoryAt place.dropLast = true) :
      WriteStep path before (before.put place (.file (.text text)))

/-- What writing a file at a path can do to a tree, whether it succeeds or not. -/
def Written (path : Text) : FileTree → FileTree → Prop :=
  Relation.ReflTransGen (WriteStep path)

theorem ne_nil_of_free (free : tree.entryAt? place = none) : place ≠ [] := by
  rintro rfl
  cases free

theorem ne_nil_of_noDirectory (noDirectory : tree.isDirectoryAt place = false) : place ≠ [] := by
  rintro rfl
  cases noDirectory

/-! ## What one step keeps -/

theorem IsSound.put (sound : tree.IsSound) (named : ∀ name ∈ place, Path.IsName name)
    (inDirectory : tree.isDirectoryAt place.dropLast = true)
    (keeps : ∀ other, tree.isDirectoryAt other = true →
      (tree.put place entry).isDirectoryAt other = true) : (tree.put place entry).IsSound := by
  constructor
  · intro item member
    rcases mem_or_mem_of_putEntry member with rfl | before
    · exact named
    · exact sound.named item before
  · intro item member
    rcases mem_or_mem_of_putEntry member with rfl | before
    · exact keeps _ inDirectory
    · exact keeps _ (sound.inDirectory item before)
  · exact keeps _ sound.atHome

namespace WriteStep

variable {before after : FileTree}

theorem home_eq (step : WriteStep path before after) : after.home = before.home := by
  cases step <;> rfl

/-- A step leaves all entries as they are, but for a file at the place of the path. -/
theorem entryAt?_eq (step : WriteStep path before after)
    (found : before.entryAt? place = some entry)
    (kept : entry = .directory ∨ Path.target? before.home path ≠ some place) :
    after.entryAt? place = some entry := by
  cases step with
  | @ofDirectory other free named inDirectory =>
      have different : place ≠ other := by
        rintro rfl
        rw [free] at found
        cases found
      rw [entryAt?_put _ (ne_nil_of_free free), if_neg different, found]
  | @ofText other text target noDirectory named inDirectory =>
      have different : place ≠ other := by
        rintro rfl
        rcases kept with rfl | apart
        · rw [isDirectoryAt_iff.mpr found] at noDirectory
          cases noDirectory
        · exact apart target
      rw [entryAt?_put _ (ne_nil_of_noDirectory noDirectory), if_neg different, found]

theorem isDirectoryAt (step : WriteStep path before after)
    (isDirectory : before.isDirectoryAt place = true) : after.isDirectoryAt place = true := by
  rw [isDirectoryAt_iff] at isDirectory ⊢
  exact step.entryAt?_eq isDirectory (Or.inl rfl)

theorem isSound (step : WriteStep path before after) (sound : before.IsSound) :
    after.IsSound := by
  have keeps : ∀ place, before.isDirectoryAt place = true → after.isDirectoryAt place = true :=
    fun _ => step.isDirectoryAt
  cases step with
  | ofDirectory free named inDirectory =>
      exact sound.put named inDirectory keeps
  | ofText text target noDirectory named inDirectory =>
      exact sound.put named inDirectory keeps

theorem isSome_entryAt? (step : WriteStep path before after)
    (stands : (before.entryAt? place).isSome = true) :
    (after.entryAt? place).isSome = true := by
  cases step with
  | ofDirectory free named inDirectory =>
      rw [entryAt?_put _ (ne_nil_of_free free)]
      split
      · rfl
      · exact stands
  | ofText text target noDirectory named inDirectory =>
      rw [entryAt?_put _ (ne_nil_of_noDirectory noDirectory)]
      split
      · rfl
      · exact stands

/-- A step leaves the wanted files below a place when the place of the path is not wanted. -/
theorem filter_filesBelow (step : WriteStep path before after) {start : Place}
    {isWanted : List Text → Bool}
    (apart : ∀ names, Path.target? before.home path = some (start ++ names) →
      isWanted names = false) :
    (after.filesBelow start).filter isWanted = (before.filesBelow start).filter isWanted := by
  cases step with
  | ofDirectory free named inDirectory =>
      apply filter_filesBelow_put _ _ _ (ne_nil_of_free free)
      · intro content names isFile
        cases isFile
      · intro content names found
        rw [free] at found
        cases found
  | ofText text target noDirectory named inDirectory =>
      apply filter_filesBelow_put _ _ _ (ne_nil_of_noDirectory noDirectory)
      · intro content names isFile isPlace
        exact apart names (isPlace ▸ target)
      · intro content names found isPlace
        exact apart names (isPlace ▸ target)

end WriteStep

/-! ## What writing keeps -/

namespace Written

variable {before after : FileTree}

theorem home_eq (written : Written path before after) : after.home = before.home := by
  induction written with
  | refl => rfl
  | tail _ step ih => rw [step.home_eq, ih]

theorem entryAt?_eq (written : Written path before after)
    (found : before.entryAt? place = some entry)
    (kept : entry = .directory ∨ Path.target? before.home path ≠ some place) :
    after.entryAt? place = some entry := by
  induction written with
  | refl => exact found
  | tail written step ih =>
      rw [← home_eq written] at kept
      exact step.entryAt?_eq ih kept

theorem isDirectoryAt (written : Written path before after)
    (isDirectory : before.isDirectoryAt place = true) : after.isDirectoryAt place = true := by
  rw [isDirectoryAt_iff] at isDirectory ⊢
  exact written.entryAt?_eq isDirectory (Or.inl rfl)

theorem isSound (written : Written path before after) (sound : before.IsSound) :
    after.IsSound := by
  induction written with
  | refl => exact sound
  | tail _ step ih => exact step.isSound ih

theorem filter_filesBelow (written : Written path before after) {start : Place}
    {isWanted : List Text → Bool}
    (apart : ∀ names, Path.target? before.home path = some (start ++ names) →
      isWanted names = false) :
    (after.filesBelow start).filter isWanted = (before.filesBelow start).filter isWanted := by
  induction written with
  | refl => rfl
  | tail written step ih =>
      rw [← home_eq written] at apart
      rw [step.filter_filesBelow apart, ih]

theorem placeOf?_eq (written : Written path before after) {other : Text}
    (found : before.placeOf? other = some place) : after.placeOf? other = some place :=
  placeOf?_mono written.home_eq (fun _ => written.isDirectoryAt) found

/-- Text that could be read elsewhere can still be read. -/
theorem readText?_eq (written : Written path before after) {other value : Text}
    (apart : Path.target? before.home path ≠ Path.target? before.home other)
    (read : before.readText? other = some value) : after.readText? other = some value := by
  have stood : ∃ place, before.placeOf? other = some place ∧
      before.entryAt? place = some (.file (.text value)) := by
    rw [readText?] at read
    split at read
    · rename_i found
      rw [Option.some.inj read] at found
      exact Option.bind_eq_some_iff.mp found
    · cases read
  rcases stood with ⟨place, isPlace, found⟩
  have elsewhere : Path.target? before.home path ≠ some place := target?_of_placeOf? isPlace ▸ apart
  have still : after.lookup? other = some (.file (.text value)) := by
    rw [lookup?, written.placeOf?_eq isPlace, Option.bind_some,
      written.entryAt?_eq found (Or.inr elsewhere)]
  rw [readText?, still]

theorem isSome_entryAt? (written : Written path before after)
    (stands : (before.entryAt? place).isSome = true) :
    (after.entryAt? place).isSome = true := by
  induction written with
  | refl => exact stands
  | tail _ step ih => exact step.isSome_entryAt? ih

/-- A path that led to something still leads there. -/
theorem contains_eq (written : Written path before after) {other : Text}
    (contained : before.contains other = true) : after.contains other = true := by
  rcases contains_iff.mp contained with ⟨place, entry, isPlace, stood⟩
  have stands := written.isSome_entryAt? (Option.isSome_iff_exists.mpr ⟨entry, stood⟩)
  rcases Option.isSome_iff_exists.mp stands with ⟨later, isLater⟩
  exact contains_iff.mpr ⟨place, later, written.placeOf?_eq isPlace, isLater⟩

end Written

/-! ## Making directories -/

theorem isName_concat (sound : tree.IsSound) {start : Place} {segment : Text}
    (isDirectory : tree.isDirectoryAt start = true) (noSlash : '/' ∉ segment)
    (notVoid : ¬Path.isVoid segment = true) (notUp : ¬(segment == ['.', '.']) = true) :
    ∀ name ∈ start ++ [segment], Path.IsName name := by
  intro name member
  rcases List.mem_append.mp member with inStart | isSegment
  · exact sound.isName (isDirectoryAt_iff.mp isDirectory) name inStart
  · rw [List.mem_singleton.mp isSegment]
    exact Path.isName_of_segment noSlash (by simpa using notVoid) (by simpa using notUp)

theorem isDirectoryAt_put_directory (nonempty : place ≠ []) :
    (tree.put place .directory).isDirectoryAt place = true := by
  rw [isDirectoryAt_iff, entryAt?_put _ nonempty, if_pos rfl]

/-- Making directories is writing, as far as it gets. -/
theorem written_makeWay (sound : tree.IsSound) {start : Place} {segments : List Text}
    (isDirectory : tree.isDirectoryAt start = true)
    (noSlash : ∀ segment ∈ segments, '/' ∉ segment) :
    Written path tree (tree.makeWay start segments).1 := by
  induction segments generalizing tree start with
  | nil => exact .refl
  | cons segment segments ih =>
      have later : ∀ other ∈ segments, '/' ∉ other :=
        fun other member => noSlash other (List.mem_cons_of_mem segment member)
      rw [makeWay]
      split
      · exact ih sound isDirectory later
      · rename_i notVoid
        split
        · exact ih sound (sound.isDirectoryAt_dropLast (isDirectoryAt_iff.mp isDirectory)) later
        · rename_i notUp
          have named := isName_concat sound isDirectory (noSlash segment List.mem_cons_self)
            notVoid notUp
          split
          · rename_i found
            exact ih sound (isDirectoryAt_iff.mpr found) later
          · exact .refl
          · rename_i free
            have step : WriteStep path tree (tree.put (start ++ [segment]) .directory) :=
              .ofDirectory free named (by simpa using isDirectory)
            exact (Relation.ReflTransGen.single step).trans
              (ih (step.isSound sound) (isDirectoryAt_put_directory (by simp)) later)

theorem isDirectoryAt_makeWay (sound : tree.IsSound) {start : Place} {segments : List Text}
    (isDirectory : tree.isDirectoryAt start = true)
    (noSlash : ∀ segment ∈ segments, '/' ∉ segment)
    (stood : tree.isDirectoryAt place = true) :
    (tree.makeWay start segments).1.isDirectoryAt place = true := by
  have written : Written [] tree (tree.makeWay start segments).1 :=
    written_makeWay sound isDirectory noSlash
  exact written.isDirectoryAt stood

/-- The way that was made once needs no more directories, also when more was written since. -/
theorem makeWay_again (sound : tree.IsSound) {start : Place} {segments : List Text}
    (isDirectory : tree.isDirectoryAt start = true)
    (noSlash : ∀ segment ∈ segments, '/' ∉ segment)
    (made : (tree.makeWay start segments).2 = true) {later : FileTree}
    (keeps : ∀ place, (tree.makeWay start segments).1.isDirectoryAt place = true →
      later.isDirectoryAt place = true) : later.makeWay start segments = (later, true) := by
  induction segments generalizing tree start with
  | nil => rfl
  | cons segment segments ih =>
      have noSlashLater : ∀ other ∈ segments, '/' ∉ other :=
        fun other member => noSlash other (List.mem_cons_of_mem segment member)
      rw [makeWay] at made keeps ⊢
      split
      · rename_i void
        rw [if_pos void] at made keeps
        exact ih sound isDirectory noSlashLater made keeps
      · rename_i notVoid
        rw [if_neg notVoid] at made keeps
        split
        · rename_i isUp
          rw [if_pos isUp] at made keeps
          exact ih sound (sound.isDirectoryAt_dropLast (isDirectoryAt_iff.mp isDirectory))
            noSlashLater made keeps
        · rename_i notUp
          rw [if_neg notUp] at made keeps
          have named := isName_concat sound isDirectory (noSlash segment List.mem_cons_self)
            notVoid notUp
          cases stands : tree.entryAt? (start ++ [segment]) with
          | none =>
              simp only [stands] at made keeps
              have step : WriteStep [] tree (tree.put (start ++ [segment]) .directory) :=
                .ofDirectory stands named (by simpa using isDirectory)
              have soundPut := step.isSound sound
              have isMade : (tree.put (start ++ [segment]) .directory).isDirectoryAt
                  (start ++ [segment]) = true := isDirectoryAt_put_directory (by simp)
              have inLater := isDirectoryAt_iff.mp
                (keeps _ (isDirectoryAt_makeWay soundPut isMade noSlashLater isMade))
              simp only [inLater]
              exact ih soundPut isMade noSlashLater made keeps
          | some entry =>
              cases entry with
              | file content => simp [stands] at made
              | directory =>
                  simp only [stands] at made keeps
                  have isMade := isDirectoryAt_iff.mpr stands
                  have inLater := isDirectoryAt_iff.mp
                    (keeps _ (isDirectoryAt_makeWay sound isMade noSlashLater isMade))
                  simp only [inLater]
                  exact ih sound isMade noSlashLater made keeps

theorem written_makeDirectories (sound : tree.IsSound) (parent : Text) :
    Written path tree (tree.makeDirectories parent).1 :=
  written_makeWay sound (sound.isDirectoryAt_startOf parent)
    fun _ => Path.not_mem_slash_of_mem_segments

theorem makeDirectories_again (sound : tree.IsSound) {parent : Text}
    (made : (tree.makeDirectories parent).2 = true) {later : FileTree}
    (sameHome : later.home = tree.home)
    (keeps : ∀ place, (tree.makeDirectories parent).1.isDirectoryAt place = true →
      later.isDirectoryAt place = true) : later.makeDirectories parent = (later, true) := by
  rw [makeDirectories, sameHome]
  exact makeWay_again sound (sound.isDirectoryAt_startOf parent)
    (fun _ => Path.not_mem_slash_of_mem_segments) made keeps

/-! ## Writing texts -/

/-- A way that can be followed ends at a place of names in a directory. -/
theorem follow?_inDirectory (sound : tree.IsSound) {start : Place} {segments : List Text}
    (noSlash : ∀ segment ∈ segments, '/' ∉ segment)
    (named : ∀ name ∈ start, Path.IsName name)
    (inDirectory : tree.isDirectoryAt start.dropLast = true)
    (followed : tree.follow? start segments = some place) :
    (∀ name ∈ place, Path.IsName name) ∧ tree.isDirectoryAt place.dropLast = true := by
  induction segments generalizing start with
  | nil =>
      cases followed
      exact ⟨named, inDirectory⟩
  | cons segment segments ih =>
      have later : ∀ other ∈ segments, '/' ∉ other :=
        fun other member => noSlash other (List.mem_cons_of_mem segment member)
      rw [follow?] at followed
      split at followed
      · cases followed
      · rename_i isDirectory
        simp only [Bool.not_eq_true, Bool.not_eq_false'] at isDirectory
        split at followed
        · exact ih later named inDirectory followed
        · rename_i notVoid
          split at followed
          · apply ih later _ _ followed
            · exact fun name member => named name (List.dropLast_subset _ member)
            · exact sound.isDirectoryAt_dropLast (isDirectoryAt_iff.mp inDirectory)
          · rename_i notUp
            apply ih later _ _ followed
            · exact isName_concat sound isDirectory (noSlash segment List.mem_cons_self)
                notVoid notUp
            · simpa using isDirectory

theorem placeOf?_inDirectory (sound : tree.IsSound) (found : tree.placeOf? path = some place) :
    (∀ name ∈ place, Path.IsName name) ∧ tree.isDirectoryAt place.dropLast = true := by
  have start := isDirectoryAt_iff.mp (sound.isDirectoryAt_startOf path)
  exact follow?_inDirectory sound (fun _ => Path.not_mem_slash_of_mem_segments)
    (sound.isName start) (sound.isDirectoryAt_dropLast start) (placeOf?_eq_some_iff.mp found).2

theorem writeText?_eq_some_iff {text : Text} {after : FileTree} :
    tree.writeText? path text = some after ↔
      ∃ place, tree.placeOf? path = some place ∧ tree.isDirectoryAt place = false ∧
        tree.put place (.file (.text text)) = after := by
  simp [writeText?, Option.bind_eq_some_iff]

/-- Writing a text is one step. -/
theorem writeStep_writeText? (sound : tree.IsSound) {text : Text} {after : FileTree}
    (written : tree.writeText? path text = some after) : WriteStep path tree after := by
  rcases writeText?_eq_some_iff.mp written with ⟨place, isPlace, noDirectory, rfl⟩
  rcases placeOf?_inDirectory sound isPlace with ⟨named, inDirectory⟩
  exact .ofText text (target?_of_placeOf? isPlace) noDirectory named inDirectory

theorem entryAt?_of_writeText? {text : Text} {after : FileTree} (sound : tree.IsSound)
    (written : tree.writeText? path text = some after) :
    ∃ place, after.placeOf? path = some place ∧
      after.entryAt? place = some (.file (.text text)) := by
  have step := writeStep_writeText? sound written
  rcases writeText?_eq_some_iff.mp written with ⟨place, isPlace, noDirectory, rfl⟩
  refine ⟨place, placeOf?_mono step.home_eq (fun _ => step.isDirectoryAt) isPlace, ?_⟩
  rw [entryAt?_put _ (ne_nil_of_noDirectory noDirectory), if_pos rfl]

/-- A text that was written can be written again, and changes nothing. -/
theorem writeText?_again {text : Text} {after : FileTree} (sound : tree.IsSound)
    (written : tree.writeText? path text = some after) :
    after.writeText? path text = some after := by
  rcases entryAt?_of_writeText? sound written with ⟨place, isPlace, found⟩
  have noDirectory : after.isDirectoryAt place = false := by
    simp [isDirectoryAt, found]
  exact writeText?_eq_some_iff.mpr
    ⟨place, isPlace, noDirectory, put_eq_self (ne_nil_of_noDirectory noDirectory) found⟩

end FileTree

end UtilityCss
