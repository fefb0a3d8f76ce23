import UtilityCss.Proofs.Files.Writing
import UtilityCss.Proofs.Project.Rebuild

/-!
# Scans of a file tree

A scan lists the files below the root that the manifest selects. It leaves out one path, the output
path of the manifest. What is written elsewhere comes into the list when it is selected; what is
written at a place that is not selected changes nothing, and the listed files read as before.
-/

namespace UtilityCss

namespace Discovery

/-- The patterns of a manifest select the file that names lead to from the root, and it is not the
output of the manifest. -/
def Selects (root : Text) (manifest : Manifest) (names : List Text) : Prop :=
  ∃ inputs excludes, PatternSet.ofPatterns manifest.input = .ok inputs ∧
    PatternSet.ofPatterns manifest.excludes = .ok excludes ∧
    isSource root (manifest.outputPath root) inputs excludes names = true

theorem selects_of_any {root : Text} {manifest : Manifest} {names : List Text}
    (checked : ((PatternSet.ofPatterns manifest.input).toOption.any fun inputs =>
      (PatternSet.ofPatterns manifest.excludes).toOption.any fun excludes =>
        isSource root (manifest.outputPath root) inputs excludes names) = true) :
    Selects root manifest names := by
  rcases exists_eq_ok_of_any checked with ⟨inputs, isInputs, others⟩
  rcases exists_eq_ok_of_any others with ⟨excludes, isExcludes, selected⟩
  exact ⟨inputs, excludes, isInputs, isExcludes, selected⟩

/-- The root exists, or no file lies where it would be. -/
def IsSettled (tree : FileTree) (root : Text) : Prop :=
  tree.contains root = true ∨
    ∀ place, Path.target? tree.home root = some place → tree.filesBelow place = []

theorem Selects.components_ne {root : Text} {manifest : Manifest} {names : List Text}
    (selects : Selects root manifest names) :
    Path.components (pathBelow root names) ≠ Path.components (manifest.outputPath root) := by
  rcases selects with ⟨inputs, excludes, _, _, isSelected⟩
  simp only [isSource, Bool.and_eq_true, decide_eq_true_eq] at isSelected
  exact isSelected.1.1

/-! ## Paths of sources -/

theorem components_pathBelow {root : Text} (nonempty : root ≠ []) {names : List Text}
    (named : ∀ name ∈ names, Path.IsName name) :
    Path.components (pathBelow root names) = Path.components root ++ names.map .name := by
  rw [pathBelow]
  induction names generalizing root with
  | nil => simp
  | cons name names ih =>
      have isName := named name List.mem_cons_self
      have isLater : Path.laterComponents (Path.segments name) = [.name name] := by
        rw [isName.segments_eq, Path.laterComponents_cons, isName.isVoid_eq,
          isName.componentOf_eq]
        rfl
      rw [List.foldl_cons, ih (Path.join_ne_nil nonempty isName.not_isAbsolute)
        fun other member => named other (List.mem_cons_of_mem name member),
        Path.components_join nonempty isName.not_isAbsolute, isLater]
      simp

theorem pathBelow_ne_nil {root : Text} (nonempty : root ≠ []) {names : List Text}
    (named : ∀ name ∈ names, Path.IsName name) : pathBelow root names ≠ [] := by
  rw [pathBelow]
  induction names generalizing root with
  | nil => exact nonempty
  | cons name names ih =>
      exact ih (Path.join_ne_nil nonempty (named name List.mem_cons_self).not_isAbsolute)
        fun other member => named other (List.mem_cons_of_mem name member)

/-- The path of a file below the root leads where its names lead from the root. -/
theorem target?_pathBelow {home start : Place} {root : Text}
    (leads : Path.target? home root = some start) {names : List Text}
    (named : ∀ name ∈ names, Path.IsName name) :
    Path.target? home (pathBelow root names) = some (start ++ names) := by
  rcases Path.target?_eq_some_iff.mp leads with ⟨nonempty, isStart⟩
  rw [Path.target?_of_ne_nil home (pathBelow_ne_nil nonempty named),
    components_pathBelow nonempty named, Path.lead_append, isStart, Path.lead_names]

/-! ## Scans -/

theorem scan_eq_ok_iff {tree : FileTree} {root : Text} {manifest : Manifest} {files : List Text} :
    scan tree root manifest = .ok files ↔
      ∃ inputs excludes, PatternSet.ofPatterns manifest.input = .ok inputs ∧
        PatternSet.ofPatterns manifest.excludes = .ok excludes ∧
        files = if tree.contains root then
          ((((tree.placeOf? root).map tree.filesBelow).getD []).filter
            (isSource root (manifest.outputPath root) inputs excludes)).map (pathBelow root)
        else [] := by
  simp only [scan, bind_eq_ok_iff]
  constructor
  · rintro ⟨inputs, isInputs, excludes, isExcludes, result⟩
    refine ⟨inputs, excludes, isInputs, isExcludes, ?_⟩
    split at result <;> simp_all [pure, Except.pure]
  · rintro ⟨inputs, excludes, isInputs, isExcludes, rfl⟩
    refine ⟨inputs, isInputs, excludes, isExcludes, ?_⟩
    split <;> rfl

/-- The files that a scan lists. -/
theorem mem_scan_iff {tree : FileTree} {root : Text} {manifest : Manifest} {files : List Text}
    (scanned : scan tree root manifest = .ok files) {file : Text} :
    file ∈ files ↔ ∃ start names content, tree.contains root = true ∧
      tree.placeOf? root = some start ∧ (start ++ names, .file content) ∈ tree.entries ∧
      Selects root manifest names ∧ pathBelow root names = file := by
  rcases scan_eq_ok_iff.mp scanned with ⟨inputs, excludes, isInputs, isExcludes, rfl⟩
  have selects : ∀ names, Selects root manifest names ↔
      isSource root (manifest.outputPath root) inputs excludes names = true := by
    intro names
    simp [Selects, isInputs, isExcludes]
  by_cases present : tree.contains root = true
  · rw [if_pos present]
    cases isPlace : tree.placeOf? root with
    | none => simp
    | some start =>
        simp only [Option.map_some, Option.getD_some, List.mem_map, List.mem_filter,
          FileTree.mem_filesBelow, ← selects]
        constructor
        · rintro ⟨names, ⟨⟨content, member⟩, selected⟩, isFile⟩
          exact ⟨start, names, content, present, rfl, member, selected, isFile⟩
        · rintro ⟨_, names, content, _, same, member, selected, isFile⟩
          cases same
          exact ⟨names, ⟨⟨content, member⟩, selected⟩, isFile⟩
  · simp [present]

/-- A file that is listed leads where selected names lead from the root. -/
theorem exists_names_of_mem_scan {tree : FileTree} (sound : tree.IsSound) {root : Text}
    {manifest : Manifest} {files : List Text} (scanned : scan tree root manifest = .ok files)
    {file : Text} (member : file ∈ files) :
    ∃ start names, Path.target? tree.home root = some start ∧
      Path.target? tree.home file = some (start ++ names) ∧
      (∀ name ∈ names, Path.IsName name) ∧ Selects root manifest names ∧
      pathBelow root names = file := by
  rcases (mem_scan_iff scanned).mp member with
    ⟨start, names, content, _, isPlace, isEntry, selected, rfl⟩
  have leads := FileTree.target?_of_placeOf? isPlace
  have named : ∀ name ∈ names, Path.IsName name :=
    fun name inNames => sound.named _ isEntry name (List.mem_append_right start inNames)
  exact ⟨start, names, leads, target?_pathBelow leads named, named, selected, rfl⟩

/-- What is written at a path that is not selected does not matter to a scan. -/
theorem scan_of_written {path root : Text} {manifest : Manifest} {tree later : FileTree}
    (written : FileTree.Written path tree later) (settled : IsSettled tree root)
    (apart : ∀ start names, Path.target? tree.home root = some start →
      Path.target? tree.home path = some (start ++ names) → ¬Selects root manifest names)
    {files : List Text} (scanned : scan tree root manifest = .ok files) :
    scan later root manifest = .ok files := by
  rcases scan_eq_ok_iff.mp scanned with ⟨inputs, excludes, isInputs, isExcludes, rfl⟩
  refine scan_eq_ok_iff.mpr ⟨inputs, excludes, isInputs, isExcludes, ?_⟩
  have sameSources : ∀ start, Path.target? tree.home root = some start →
      (later.filesBelow start).filter
          (isSource root (manifest.outputPath root) inputs excludes) =
        (tree.filesBelow start).filter
          (isSource root (manifest.outputPath root) inputs excludes) := by
    intro start leads
    apply written.filter_filesBelow
    intro names isTarget
    apply Bool.eq_false_iff.mpr
    intro selected
    exact apart start names leads isTarget ⟨inputs, excludes, isInputs, isExcludes, selected⟩
  cases present : tree.contains root with
  | true =>
      rw [if_pos rfl, if_pos (written.contains_eq present)]
      rcases FileTree.contains_iff.mp present with ⟨start, entry, isPlace, _⟩
      simp only [isPlace, written.placeOf?_eq isPlace, Option.map_some, Option.getD_some,
        sameSources start (FileTree.target?_of_placeOf? isPlace)]
  | false =>
      rcases settled with contained | noFiles
      · rw [present] at contained
        cases contained
      · rw [if_neg (by simp)]
        split
        · cases isPlace : later.placeOf? root with
          | none => rfl
          | some start =>
              have leads := FileTree.target?_of_placeOf? isPlace
              rw [written.home_eq] at leads
              simp [sameSources start leads, noFiles start leads]
        · rfl

theorem run_of_written {path root manifestPath : Text} {tree later : FileTree}
    {discovery : Discovery} (found : run tree root manifestPath = .ok discovery)
    (written : FileTree.Written path tree later)
    (sameManifest : later.lookup? manifestPath = tree.lookup? manifestPath)
    (settled : IsSettled tree root)
    (apart : ∀ start names, Path.target? tree.home root = some start →
      Path.target? tree.home path = some (start ++ names) →
        ¬Selects root discovery.manifest names) :
    run later root manifestPath = .ok discovery := by
  rcases run_eq_ok_iff.mp found with ⟨manifest, read, files, scanned, rfl⟩
  have readAgain : Manifest.loadOrStandard later manifestPath = .ok manifest := by
    rw [Manifest.loadOrStandard_congr sameManifest, read]
  have sameContains : later.contains manifestPath = tree.contains manifestPath := by
    rw [FileTree.contains, FileTree.contains, sameManifest]
  exact run_eq_ok_iff.mpr
    ⟨manifest, readAgain, files, scan_of_written written settled apart scanned,
      by rw [sameContains]⟩

theorem classListsOf_of_written {path : Text} {tree later : FileTree}
    (written : FileTree.Written path tree later) {files lists : List Text}
    (apart : ∀ file ∈ files, Path.target? tree.home path ≠ Path.target? tree.home file)
    (read : classListsOf tree files = .ok lists) : classListsOf later files = .ok lists := by
  induction files generalizing lists with
  | nil => exact read
  | cons file files ih =>
      rw [classListsOf] at read ⊢
      split at read
      · cases read
      · rename_i source isSource
        rw [written.readText?_eq (apart file List.mem_cons_self) isSource]
        cases others : classListsOf tree files with
        | error error => simp [others, Except.map] at read
        | ok more =>
            have again := ih (fun other member => apart other (List.mem_cons_of_mem file member))
              others
            simpa [others, again] using read

end Discovery

end UtilityCss
