import UtilityCss.Proofs.Files.Walk
import UtilityCss.Proofs.Project.Scan

/-!
# What a scan selects

A scan lists every file below the root that the patterns select, once, and nothing else, in the
order of the components of the paths, where components are compared by their bytes. So the list
depends on what stands in the tree and not on how it came there: each walk of the tree gives it,
whatever order the names in the directories are read in.
-/

namespace UtilityCss

namespace Path

/-- The bytes of a component, as a path shows it. -/
def Component.bytes : Component → List UInt8
  | .root => Glob.bytes ['/']
  | .here => Glob.bytes ['.']
  | .up => Glob.bytes ['.', '.']
  | .name text => Glob.bytes text

/-- What paths are ordered by: the components one after the other, each by its bytes. -/
def componentBytes (path : Text) : List (List UInt8) :=
  (components path).map Component.bytes

end Path

namespace Discovery

variable {tree : FileTree} {root : Text} {manifest : Manifest} {inputs excludes : PatternSet}

/-- The patterns select the file that names lead to from the root, and it is not the output. -/
def IsWanted (root : Text) (manifest : Manifest) (inputs excludes : PatternSet)
    (names : List Text) : Prop :=
  inputs.isMatch (Text.join ['/'] names) = true ∧
    excludes.isMatch (Text.join ['/'] names) = false ∧
    Path.components (pathBelow root names) ≠ Path.components (manifest.outputPath root)

theorem isSource_iff {names : List Text} :
    isSource root (manifest.outputPath root) inputs excludes names = true ↔
      IsWanted root manifest inputs excludes names := by
  simp only [isSource, IsWanted, Bool.and_eq_true, decide_eq_true_eq, Bool.not_eq_true']
  constructor
  · rintro ⟨⟨different, notExcluded⟩, included⟩
    exact ⟨included, notExcluded, different⟩
  · rintro ⟨included, notExcluded, different⟩
    exact ⟨⟨different, notExcluded⟩, included⟩

theorem scan_of_directory (isDirectory : tree.lookup? root = some .directory)
    (isInputs : PatternSet.ofPatterns manifest.input = .ok inputs)
    (isExcludes : PatternSet.ofPatterns manifest.excludes = .ok excludes) :
    ∃ start, tree.placeOf? root = some start ∧ tree.entryAt? start = some .directory ∧
      scan tree root manifest = .ok (((tree.filesBelow start).filter
        (isSource root (manifest.outputPath root) inputs excludes)).map (pathBelow root)) := by
  rcases Option.bind_eq_some_iff.mp isDirectory with ⟨start, isPlace, found⟩
  refine ⟨start, isPlace, found, scan_eq_ok_iff.mpr ⟨inputs, excludes, isInputs, isExcludes, ?_⟩⟩
  rw [FileTree.contains, isDirectory, Option.isSome_some, if_pos rfl, isPlace, Option.map_some,
    Option.getD_some]

theorem componentBytes_pathBelow (nonempty : root ≠ []) {names : List Text}
    (named : ∀ name ∈ names, Path.IsName name) :
    Path.componentBytes (pathBelow root names) =
      Path.componentBytes root ++ names.map Glob.bytes := by
  rw [Path.componentBytes, components_pathBelow nonempty named, List.map_append, List.map_map]
  rfl

/-- Paths below the root are ordered as the names that lead to them. -/
theorem pairwise_map_pathBelow (nonempty : root ≠ []) {files : List (List Text)}
    (ordered : files.Pairwise (· < ·))
    (named : ∀ names ∈ files, ∀ name ∈ names, Path.IsName name) :
    (files.map (pathBelow root)).Pairwise fun first second =>
      Path.componentBytes first < Path.componentBytes second := by
  rw [List.pairwise_map]
  apply ordered.imp_of_mem
  intro first second inFirst inSecond before
  rw [componentBytes_pathBelow nonempty (named first inFirst),
    componentBytes_pathBelow nonempty (named second inSecond)]
  exact List.append_left_lt (Glob.map_bytes_lt before)

/-- A scan of an existing root lists the wanted files below it, each one once, in the order of their
components. That is the list of every walk with the wanted files kept, and the list in every tree
with the same working directory that holds the same at every place. -/
theorem scan_sources (rooted : tree.IsRooted) (isDirectory : tree.lookup? root = some .directory)
    (isInputs : PatternSet.ofPatterns manifest.input = .ok inputs)
    (isExcludes : PatternSet.ofPatterns manifest.excludes = .ok excludes) :
    ∃ start files, tree.placeOf? root = some start ∧ scan tree root manifest = .ok files ∧
      (∀ file, file ∈ files ↔ ∃ names content,
        tree.entryAt? (start ++ names) = some (.file content) ∧
          IsWanted root manifest inputs excludes names ∧ file = pathBelow root names) ∧
      files.Nodup ∧
      (files.Pairwise fun first second =>
        Path.componentBytes first < Path.componentBytes second) ∧
      (∀ names, tree.IsListing names → (∃ found, FileTree.Walk tree names start found) ∧
        ∀ found, FileTree.Walk tree names start found →
          files = (found.filter
            (isSource root (manifest.outputPath root) inputs excludes)).map (pathBelow root)) ∧
      ∀ other : FileTree, other.IsRooted → other.home = tree.home →
        (∀ place, other.entryAt? place = tree.entryAt? place) →
          scan other root manifest = .ok files := by
  rcases scan_of_directory isDirectory isInputs isExcludes with ⟨start, isPlace, found, scanned⟩
  have nonempty : root ≠ [] := (FileTree.placeOf?_eq_some_iff.mp isPlace).1
  have named : ∀ names ∈ (tree.filesBelow start).filter
      (isSource root (manifest.outputPath root) inputs excludes),
      ∀ name ∈ names, Path.IsName name := by
    intro names member name inNames
    rcases rooted.mem_filesBelow_iff.mp (List.mem_filter.mp member).1 with ⟨content, stands⟩
    exact rooted.toIsSound.isName stands name (List.mem_append_right start inNames)
  have increasing := pairwise_map_pathBelow nonempty
    ((tree.pairwise_filesBelow start).filter _) named
  refine ⟨start, _, isPlace, scanned, ?_, ?_, increasing, ?_, ?_⟩
  · intro file
    simp only [List.mem_map, List.mem_filter, rooted.mem_filesBelow_iff, isSource_iff]
    constructor
    · rintro ⟨names, ⟨⟨content, stands⟩, wanted⟩, rfl⟩
      exact ⟨names, content, stands, wanted, rfl⟩
    · rintro ⟨names, content, stands, wanted, rfl⟩
      exact ⟨names, ⟨⟨content, stands⟩, wanted⟩, rfl⟩
  · apply increasing.imp
    rintro first _ before rfl
    exact List.lt_irrefl _ before
  · intro names listing
    refine ⟨⟨_, FileTree.walk_filesBelow rooted listing found⟩, ?_⟩
    intro files walk
    rw [walk.eq_filesBelow listing rooted]
  · intro other otherRooted sameHome same
    rw [rooted.eq_of_entryAt?_eq otherRooted sameHome same, scanned]

/-- A directory beside a file and a directory whose names start with its name, an excluded file and
the output, planted in no order. -/
theorem scan_sources_sample :
    let blank := FileEntry.file (.text [])
    let tree := ((((FileTree.empty.plant "a.html".toList blank).plant
      "a/out.html".toList blank).plant "a-b/c.html".toList blank).plant
      "a/b.html".toList blank).plant "a/b/x.html".toList blank
    let manifest : Manifest := { output := "./a//out.html".toList, excludes := ["**/x*".toList] }
    ∃ files, scan tree ['.'] manifest = .ok files ∧
      files = ["./a/b.html".toList, "./a-b/c.html".toList, "./a.html".toList] ∧
      (files.Pairwise fun first second =>
        Path.componentBytes first < Path.componentBytes second) ∧
      ∃ found, FileTree.Walk tree tree.namesIn [] found := by
  intro blank tree manifest
  have rooted : tree.IsRooted :=
    ⟨⟨by decide +kernel, by decide +kernel, by decide +kernel⟩, by decide +kernel⟩
  have isDirectory : tree.lookup? ['.'] = some .directory := by decide +kernel
  have isPlace : tree.placeOf? ['.'] = some [] := by decide +kernel
  have listed : (scan tree ['.'] manifest).toOption =
      some ["./a/b.html".toList, "./a-b/c.html".toList, "./a.html".toList] := by
    decide +kernel
  have compiles : (PatternSet.ofPatterns manifest.input).toOption.any (fun _ => true) = true ∧
      (PatternSet.ofPatterns manifest.excludes).toOption.any (fun _ => true) = true := by
    decide +kernel
  rcases exists_eq_ok_of_any compiles.1 with ⟨inputs, isInputs, _⟩
  rcases exists_eq_ok_of_any compiles.2 with ⟨excludes, isExcludes, _⟩
  rcases scan_sources rooted isDirectory isInputs isExcludes with
    ⟨start, files, leads, scanned, _, _, increasing, walks, _⟩
  rw [isPlace] at leads
  cases leads
  rw [scanned] at listed
  exact ⟨files, scanned, Option.some.inj listed, increasing,
    (walks _ tree.isListing_namesIn).1⟩

end Discovery

end UtilityCss
