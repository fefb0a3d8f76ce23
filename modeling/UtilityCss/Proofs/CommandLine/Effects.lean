import UtilityCss.CommandLine.Run
import UtilityCss.Proofs.Project.Sources

/-!
# What commands change

A command writes at most one file, and it writes it last: whatever can fail before has not touched a
file, at most made directories on the way to the stylesheet. So the files before and behind a
command are compared place by place, one place left out, and directories only have to stay.
-/

namespace UtilityCss

namespace FileTree

variable {tree before between after : FileTree} {owned : Option Place} {place : Place}

/-- What the file at a place holds, if a file stands there. -/
def contentAt? (tree : FileTree) (place : Place) : Option Content :=
  match tree.entryAt? place with
  | some (.file content) => some content
  | _ => none

/-- The second tree holds the directories and the files of the first one, but for the file at the
owned place, and no file more, and its working directory is the same. -/
structure ChangesAtMost (owned : Option Place) (before after : FileTree) : Prop where
  home : after.home = before.home
  files : ∀ place, owned ≠ some place → after.contentAt? place = before.contentAt? place
  directories : ∀ place, before.isDirectoryAt place = true → after.isDirectoryAt place = true

namespace ChangesAtMost

theorem refl (tree : FileTree) : ChangesAtMost owned tree tree :=
  ⟨rfl, fun _ _ => rfl, fun _ stood => stood⟩

theorem trans (first : ChangesAtMost owned before between)
    (second : ChangesAtMost owned between after) : ChangesAtMost owned before after := by
  constructor
  · exact second.home.trans first.home
  · intro place apart
    rw [second.files place apart, first.files place apart]
  · intro place stood
    exact second.directories place (first.directories place stood)

theorem weaken (changes : ChangesAtMost none before after) : ChangesAtMost owned before after := by
  constructor
  · exact changes.home
  · intro place _
    exact changes.files place (by simp)
  · exact changes.directories

theorem placeOf?_eq (changes : ChangesAtMost owned before after) {path : Text}
    (found : before.placeOf? path = some place) : after.placeOf? path = some place :=
  placeOf?_mono changes.home changes.directories found

end ChangesAtMost

/-! ## Steps of writing -/

theorem changesAtMost_put_directory (free : tree.entryAt? place = none) :
    ChangesAtMost none tree (tree.put place .directory) := by
  constructor
  · exact home_put tree place .directory
  · intro other _
    by_cases same : other = place
    · simp [contentAt?, entryAt?_put tree (ne_nil_of_free free), same, free]
    · simp [contentAt?, entryAt?_put tree (ne_nil_of_free free), same]
  · intro other stood
    rw [isDirectoryAt_iff] at stood ⊢
    rw [entryAt?_put tree (ne_nil_of_free free)]
    split
    · rfl
    · exact stood

theorem changesAtMost_put_file (noDirectory : tree.isDirectoryAt place = false)
    (content : Content) : ChangesAtMost (some place) tree (tree.put place (.file content)) := by
  have nonempty := ne_nil_of_noDirectory noDirectory
  constructor
  · exact home_put tree place (.file content)
  · intro other apart
    have different : other ≠ place := by
      rintro rfl
      exact apart rfl
    rw [contentAt?, contentAt?, entryAt?_put tree nonempty, if_neg different]
  · intro other stood
    have different : other ≠ place := by
      rintro rfl
      rw [stood] at noDirectory
      cases noDirectory
    rw [isDirectoryAt_iff] at stood ⊢
    rw [entryAt?_put tree nonempty, if_neg different, stood]

/-- Directories are made only where nothing stands, however far it gets. -/
theorem changesAtMost_makeWay (tree : FileTree) (start : Place) (segments : List Text) :
    ChangesAtMost none tree (tree.makeWay start segments).1 := by
  induction segments generalizing tree start with
  | nil => exact .refl tree
  | cons segment segments ih =>
      rw [makeWay]
      split
      · exact ih tree start
      · split
        · exact ih tree start.dropLast
        · split
          · exact ih tree (start ++ [segment])
          · exact .refl tree
          · rename_i free
            apply (changesAtMost_put_directory free).trans
            exact ih _ (start ++ [segment])

theorem changesAtMost_makeDirectories (tree : FileTree) (path : Text) :
    ChangesAtMost none tree (tree.makeDirectories path).1 :=
  changesAtMost_makeWay tree _ _

/-- A text that could be written stands where its path leads, and nothing else changed. -/
theorem changesAtMost_writeText {path text : Text}
    (written : tree.writeText? path text = some after) :
    ∃ place, tree.placeOf? path = some place ∧ ChangesAtMost (some place) tree after ∧
      after.contentAt? place = some (.text text) := by
  rcases writeText?_eq_some_iff.mp written with ⟨place, isPlace, noDirectory, rfl⟩
  refine ⟨place, isPlace, changesAtMost_put_file noDirectory _, ?_⟩
  rw [contentAt?, entryAt?_put tree (ne_nil_of_noDirectory noDirectory), if_pos rfl]

end FileTree

namespace Project

open FileTree (ChangesAtMost)

/-! ## Writing the stylesheet -/

theorem changesAtMost_makeParent (tree : FileTree) (path : Text) :
    ChangesAtMost none tree (makeParent tree path).2 := by
  rw [makeParent]
  split
  · exact .refl tree
  · rename_i parent _
    split
    · exact .refl tree
    · have changes := FileTree.changesAtMost_makeDirectories tree parent
      split
      · rename_i made result
        rwa [result] at changes
      · rename_i made result
        rwa [result] at changes

theorem changesAtMost_writeStylesheet_error {tree after : FileTree} {path css : Text}
    {error : Error} (fails : writeStylesheet tree path css = (.error error, after)) :
    ChangesAtMost none tree after := by
  have changes := changesAtMost_makeParent tree path
  rw [writeStylesheet] at fails
  split at fails
  · rename_i made result
    cases fails
    rwa [result] at changes
  · rename_i made result
    split at fails
    · cases fails
    · cases fails
      rwa [result] at changes

theorem changesAtMost_writeStylesheet_ok {tree after : FileTree} {path css : Text}
    (succeeds : writeStylesheet tree path css = (.ok (), after)) :
    ∃ place, after.placeOf? path = some place ∧ ChangesAtMost (some place) tree after ∧
      after.contentAt? place = some (.text css) := by
  rcases writeStylesheet_eq_ok succeeds with ⟨made, isMade, isWritten⟩
  have way := changesAtMost_makeParent tree path
  rw [isMade] at way
  rcases FileTree.changesAtMost_writeText isWritten with ⟨place, isPlace, changes, holds⟩
  exact ⟨place, changes.placeOf?_eq isPlace, way.weaken.trans changes, holds⟩

/-! ## Building -/

theorem changesAtMost_build_error {project : Project} {tree : FileTree} {error : Error}
    (fails : (project.build tree).outcome = .error error) :
    ChangesAtMost none tree (project.build tree).tree := by
  cases read : project.discovery.classLists tree with
  | error unread =>
      simp only [build, read]
      exact .refl tree
  | ok lists =>
      rcases result : writeStylesheet tree project.outputPath
        (project.built lists).engine.stylesheet with ⟨outcome, after⟩
      have isBuild : project.build tree =
          ⟨outcome.map fun _ => (project.built lists).summary, project.built lists, after⟩ := by
        simp only [built, outputPath] at result
        simp only [build, read, outputPath, result]
        rfl
      rw [isBuild] at fails ⊢
      cases outcome with
      | error unwritten => exact changesAtMost_writeStylesheet_error result
      | ok _ => cases fails

theorem changesAtMost_build_ok {project : Project} {tree : FileTree} {summary : BuildSummary}
    (succeeds : (project.build tree).outcome = .ok summary) :
    let step := project.build tree
    ∃ place, step.tree.placeOf? step.project.outputPath = some place ∧
      ChangesAtMost (some place) tree step.tree ∧
      step.tree.contentAt? place = some (.text step.project.engine.stylesheet) := by
  rcases build_eq_ok succeeds with ⟨lists, after, read, written⟩
  rw [build_of_classLists read written]
  exact changesAtMost_writeStylesheet_ok written

end Project

namespace CommandLine

open FileTree (ChangesAtMost)

/-! ## Commands -/

theorem tree_runCheck (classes : List Text) (manifestPath : Text) (tree : FileTree) :
    (runCheck classes manifestPath tree).tree = tree := by
  rw [runCheck]
  split <;> rfl

/-- Either nothing happened, or the manifest was written where it may be written. -/
theorem runInit_cases (root : Text) (force : Bool) (tree : FileTree) :
    let path := Discovery.defaultManifestPath root
    (∃ error, runInit root force tree = .failed error [] tree) ∨
    ∃ after, (force = false → tree.contains path = false) ∧
      tree.writeText? path starterManifest = some after ∧
      runInit root force tree = ⟨none, [], Printer.line "Created".toList path, after⟩ := by
  intro path
  rw [runInit]
  split
  · exact Or.inl ⟨_, rfl⟩
  · rename_i allowed
    have noOther : force = false → tree.contains path = false := by
      rintro rfl
      simpa using allowed
    split
    · exact Or.inl ⟨_, rfl⟩
    · rename_i after written
      exact Or.inr ⟨after, noOther, written, rfl⟩

theorem changesAtMost_runInit_failed {root : Text} {force : Bool} {tree : FileTree} {error : Error}
    (failed : (runInit root force tree).failure = some error) :
    ChangesAtMost none tree (runInit root force tree).tree := by
  rcases runInit_cases root force tree with ⟨_, isOutcome⟩ | ⟨after, _, _, isOutcome⟩
  · rw [isOutcome]
    exact .refl tree
  · rw [isOutcome] at failed
    cases failed

theorem changesAtMost_runInit_done {root : Text} {force : Bool} {tree : FileTree}
    (done : (runInit root force tree).failure = none) :
    (force = false → tree.contains (Discovery.defaultManifestPath root) = false) ∧
      ∃ place, tree.placeOf? (Discovery.defaultManifestPath root) = some place ∧
        ChangesAtMost (some place) tree (runInit root force tree).tree := by
  rcases runInit_cases root force tree with ⟨_, isOutcome⟩ | ⟨after, noOther, written, isOutcome⟩
  · rw [isOutcome] at done
    cases done
  · rw [isOutcome]
    rcases FileTree.changesAtMost_writeText written with ⟨place, isPlace, changes, _⟩
    exact ⟨noOther, place, isPlace, changes⟩

/-- Either the project cannot be loaded, and nothing happened, or its build decides. -/
theorem runBuild_cases (arguments : ProjectArguments) (tree : FileTree) :
    let outcome := runBuild arguments tree
    (∃ error, outcome.failure = some error ∧ outcome.tree = tree) ∨
    ∃ project, Project.load tree arguments = .ok project ∧
      outcome.tree = (project.build tree).tree ∧
      ((∃ error, outcome.failure = some error ∧ (project.build tree).outcome = .error error) ∨
        ∃ summary, outcome.failure = none ∧ (project.build tree).outcome = .ok summary) := by
  intro outcome
  simp only [outcome, runBuild]
  split
  · exact Or.inl ⟨_, rfl, rfl⟩
  · rename_i project loaded
    refine Or.inr ⟨project, loaded, ?_⟩
    split
    · rename_i error fails
      exact ⟨rfl, Or.inl ⟨error, rfl, fails⟩⟩
    · rename_i summary succeeds
      exact ⟨rfl, Or.inr ⟨summary, rfl, succeeds⟩⟩

theorem changesAtMost_runBuild_failed {arguments : ProjectArguments} {tree : FileTree}
    {error : Error} (failed : (runBuild arguments tree).failure = some error) :
    ChangesAtMost none tree (runBuild arguments tree).tree := by
  rcases runBuild_cases arguments tree with ⟨_, _, same⟩ | ⟨project, _, same, ended⟩
  · rw [same]
    exact .refl tree
  · rw [same]
    rcases ended with ⟨_, _, fails⟩ | ⟨_, succeeded, _⟩
    · exact Project.changesAtMost_build_error fails
    · rw [succeeded] at failed
      cases failed

theorem changesAtMost_runBuild_done {arguments : ProjectArguments} {tree : FileTree}
    (done : (runBuild arguments tree).failure = none) :
    ∃ project place, Project.load tree arguments = .ok project ∧
      let outcome := runBuild arguments tree
      let built := (project.build tree).project
      outcome.tree.placeOf? built.outputPath = some place ∧
        ChangesAtMost (some place) tree outcome.tree ∧
        outcome.tree.contentAt? place = some (.text built.engine.stylesheet) := by
  rcases runBuild_cases arguments tree with ⟨_, failed, _⟩ | ⟨project, loaded, same, ended⟩
  · rw [failed] at done
    cases done
  · rcases ended with ⟨_, failed, _⟩ | ⟨_, _, succeeds⟩
    · rw [failed] at done
      cases done
    · rcases Project.changesAtMost_build_ok succeeds with ⟨place, isPlace, changes, holds⟩
      refine ⟨project, place, loaded, ?_⟩
      simp only [same]
      exact ⟨isPlace, changes, holds⟩

/-- A command changes only the file it owns, whatever it is asked to do. A build that fails changes
no file; one that succeeds changes at most the stylesheet of the project it loads, which then holds
what the engine emits. A check changes nothing, not even a directory. An init that fails changes no
file; one that succeeds changes at most the manifest at its root, and without force nothing stood
there before. -/
theorem commands_change_own_file (tree : FileTree) :
    (∀ arguments, let outcome := (Command.build arguments false).run tree
      (∀ error, outcome.failure = some error → ChangesAtMost none tree outcome.tree) ∧
      (outcome.failure = none → ∃ project place, Project.load tree arguments = .ok project ∧
        let built := (project.build tree).project
        outcome.tree.placeOf? built.outputPath = some place ∧
          ChangesAtMost (some place) tree outcome.tree ∧
          outcome.tree.contentAt? place = some (.text built.engine.stylesheet))) ∧
    (∀ classes manifestPath, ((Command.check classes manifestPath).run tree).tree = tree) ∧
    (∀ root force, let outcome := (Command.init root force).run tree
      let path := Discovery.defaultManifestPath root
      (∀ error, outcome.failure = some error → ChangesAtMost none tree outcome.tree) ∧
      (outcome.failure = none → (force = false → tree.contains path = false) ∧
        ∃ place, tree.placeOf? path = some place ∧
          ChangesAtMost (some place) tree outcome.tree)) := by
  refine ⟨?_, ?_, ?_⟩
  · intro arguments outcome
    exact ⟨fun _ => changesAtMost_runBuild_failed, changesAtMost_runBuild_done⟩
  · intro classes manifestPath
    exact tree_runCheck classes manifestPath tree
  · intro root force outcome path
    exact ⟨fun _ => changesAtMost_runInit_failed, changesAtMost_runInit_done⟩

/-- Four commands on one project: a build writes the stylesheet into a new directory; a build whose
output lies below a file fails and leaves an empty directory; an init meets the manifest, and
replaces it by force. -/
theorem commands_change_own_file_sample :
    let manifest := "property: \x7bp: padding\x7d\n".toList
    let tree := (FileTree.empty.plant "atomcss.yaml".toList (.file (.text manifest))).plant
      "a.html".toList (.file (.text "<i class='p-1px'></i>".toList))
    let writing : ProjectArguments := { output := some "dist/out.css".toList }
    let failing : ProjectArguments := { output := some "dist/../a.html/out.css".toList }
    Command.read? ["build".toList, "-odist/out.css".toList] = some (.build writing false) ∧
      (∃ project place, Project.load tree writing = .ok project ∧
        let outcome := (Command.build writing false).run tree
        let built := (project.build tree).project
        outcome.tree.placeOf? built.outputPath = some place ∧
          ChangesAtMost (some place) tree outcome.tree ∧
          outcome.tree.contentAt? place = some (.text built.engine.stylesheet)) ∧
      Command.read? ["build".toList, "--output".toList, "dist/../a.html/out.css".toList] =
        some (.build failing false) ∧
      ChangesAtMost none tree ((Command.build failing false).run tree).tree ∧
      ((Command.build failing false).run tree).tree.isDirectoryAt ["dist".toList] = true ∧
      Command.read? ["init".toList] = some (.init ['.'] false) ∧
      ChangesAtMost none tree ((Command.init ['.'] false).run tree).tree ∧
      Command.read? ["init".toList, "--force".toList] = some (.init ['.'] true) ∧
      ∃ place, tree.placeOf? "./atomcss.yaml".toList = some place ∧
        ChangesAtMost (some place) tree ((Command.init ['.'] true).run tree).tree := by
  intro manifest tree writing failing
  rcases commands_change_own_file tree with ⟨build, _, init⟩
  have writes : ((Command.build writing false).run tree).failure = none := by decide +kernel
  have fails : ((Command.build failing false).run tree).failure =
      some (.unwritable .outputDirectory "dist/../a.html".toList) := by decide +kernel
  have meets : ((Command.init ['.'] false).run tree).failure = some .manifestExists := by
    decide +kernel
  have replaces : ((Command.init ['.'] true).run tree).failure = none := by decide +kernel
  refine ⟨rfl, (build writing).2 writes, rfl, (build failing).1 _ fails, ?_, rfl,
    (init ['.'] false).1 _ meets, rfl, ((init ['.'] true).2 replaces).2⟩
  decide +kernel

end CommandLine

end UtilityCss
