import UtilityCss.Proofs.Project.Scan
import UtilityCss.Proofs.Project.Settings

/-!
# Sources and the stylesheet

A project that writes its stylesheet to the output path of its manifest never has that path among
its sources. A project with an override writes elsewhere, and then nothing but the patterns keeps
the stylesheet from being a source of the next scan. The same holds without an override when the
output path is spelled unlike the paths of the sources, say as an absolute path below a root that is
given as a relative one: the scan compares components, and the two lead to one place all the same.

When the place of the stylesheet is not selected, builds and rescans settle at once. A build changes
the tree only by directories and by its own file, so a rescan finds the sources of before; they read
as before, and the next build writes what is there.
-/

namespace UtilityCss

namespace Project

/-- Seen from a working directory, the manifest in force does not select the place that the
stylesheet is written to. -/
def KeepsApart (project : Project) (home : Place) : Prop :=
  ∀ start names, Path.target? home project.root = some start →
    Path.target? home project.outputPath = some (start ++ names) →
      ¬Discovery.Selects project.root project.discovery.manifest names

/-- The output of the manifest in force is spelled as sources are: it does not lead up, and it is a
relative path unless the root is an absolute one that does not lead up either. -/
def HasPlainOutput (project : Project) : Prop :=
  ['.', '.'] ∉ Path.segments project.discovery.manifest.output ∧
    (Path.isAbsolute project.discovery.manifest.output = true →
      Path.isAbsolute project.root = true ∧ ['.', '.'] ∉ Path.segments project.root)

/-- The stylesheet is among the sources. -/
def ListsStylesheet (project : Project) : Prop :=
  ∃ file ∈ project.discovery.files,
    Path.components file = Path.components project.outputPath

/-- Seen from a working directory, a source leads to the place of the stylesheet, however the two
are spelled. -/
def ReadsStylesheet (project : Project) (home : Place) : Prop :=
  ∃ file ∈ project.discovery.files, Path.target? home file = Path.target? home project.outputPath

/-! ## Writing the stylesheet -/

theorem written_makeParent {tree : FileTree} (sound : tree.IsSound) (path : Text) :
    FileTree.Written path tree (makeParent tree path).2 := by
  rw [makeParent]
  split
  · exact .refl
  · rename_i parent _
    split
    · exact .refl
    · have made : FileTree.Written path tree (tree.makeDirectories parent).1 :=
        FileTree.written_makeDirectories sound parent
      rcases result : tree.makeDirectories parent with ⟨way, succeeds⟩
      rw [result] at made
      cases succeeds <;> exact made

theorem isSound_of_makeParent {tree made : FileTree} {path : Text} (sound : tree.IsSound)
    (isMade : makeParent tree path = (.ok (), made)) : made.IsSound := by
  have way := written_makeParent sound path
  rw [isMade] at way
  exact way.isSound sound

theorem writeStylesheet_eq_ok {tree after : FileTree} {path css : Text}
    (written : writeStylesheet tree path css = (.ok (), after)) :
    ∃ made, makeParent tree path = (.ok (), made) ∧ made.writeText? path css = some after := by
  rw [writeStylesheet] at written
  split at written
  · cases written
  · rename_i made isMade
    split at written
    · rename_i result isWritten
      cases written
      exact ⟨made, isMade, isWritten⟩
    · cases written

theorem written_writeStylesheet {tree : FileTree} (sound : tree.IsSound) (path css : Text) :
    FileTree.Written path tree (writeStylesheet tree path css).2 := by
  have made := written_makeParent sound path
  rw [writeStylesheet]
  split
  · rename_i error way result
    rw [result] at made
    exact made
  · rename_i way result
    rw [result] at made
    split
    · rename_i after isWritten
      have step := FileTree.writeStep_writeText? (made.isSound sound) isWritten
      exact made.tail step
    · exact made

theorem makeParent_again {tree made later : FileTree} (sound : tree.IsSound) {path : Text}
    (isMade : makeParent tree path = (.ok (), made)) (sameHome : later.home = tree.home)
    (keeps : ∀ place, made.isDirectoryAt place = true → later.isDirectoryAt place = true) :
    makeParent later path = (.ok (), later) := by
  rw [makeParent] at isMade ⊢
  split
  · rfl
  · rename_i parent isParent
    rw [isParent] at isMade
    simp only at isMade
    split
    · rfl
    · rename_i nonempty
      rw [if_neg nonempty] at isMade
      have again : later.makeDirectories parent = (later, true) := by
        split at isMade
        · rename_i way result
          cases isMade
          apply FileTree.makeDirectories_again sound
          · rw [result]
          · exact sameHome
          · rw [result]
            exact keeps
        · cases isMade
      rw [again]

/-- A stylesheet that was written can be written again, and changes nothing. -/
theorem writeStylesheet_again {tree after : FileTree} {path css : Text} (sound : tree.IsSound)
    (written : writeStylesheet tree path css = (.ok (), after)) :
    writeStylesheet after path css = (.ok (), after) := by
  rcases writeStylesheet_eq_ok written with ⟨made, isMade, isWritten⟩
  have soundMade := isSound_of_makeParent sound isMade
  have step := FileTree.writeStep_writeText? soundMade isWritten
  have written := written_makeParent sound path
  rw [isMade] at written
  have way : makeParent after path = (.ok (), after) :=
    makeParent_again sound isMade (step.home_eq.trans written.home_eq) fun _ => step.isDirectoryAt
  rw [writeStylesheet, way]
  simp only [FileTree.writeText?_again soundMade isWritten]

/-! ## Builds and rescans -/

/-- A build changes the tree only by writing at the output path. -/
theorem written_build {tree : FileTree} (sound : tree.IsSound) (project : Project) :
    FileTree.Written project.outputPath tree (project.build tree).tree := by
  rw [build]
  split
  · exact .refl
  · exact written_writeStylesheet sound _ _

/-- A project whose engine holds what a build makes of class lists. -/
def built (project : Project) (lists : List Text) : Project :=
  { project with engine := lists.foldl Engine.process project.freshEngine }

theorem freshEngine_built (project : Project) (lists : List Text) :
    (project.built lists).freshEngine = project.freshEngine := by
  have sameReset : (project.built lists).engine.reset = project.engine.reset :=
    (Engine.reset_foldl_process project.freshEngine lists).trans project.reset_freshEngine
  rw [freshEngine, freshEngine, sameReset]

theorem built_built (project : Project) (lists : List Text) :
    (project.built lists).built lists = project.built lists := by
  rw [built, freshEngine_built]
  rfl

theorem build_of_classLists {project : Project} {tree after : FileTree} {lists : List Text}
    (read : project.discovery.classLists tree = .ok lists)
    (written : writeStylesheet tree project.outputPath (project.built lists).engine.stylesheet =
      (.ok (), after)) :
    project.build tree = ⟨.ok (project.built lists).summary, project.built lists, after⟩ := by
  simp only [built, outputPath] at written
  simp only [build, read, outputPath, written]
  rfl

/-- A successful build reads all sources and writes the stylesheet. -/
theorem build_eq_ok {project : Project} {tree : FileTree} {summary : BuildSummary}
    (succeeds : (project.build tree).outcome = .ok summary) :
    ∃ lists after, project.discovery.classLists tree = .ok lists ∧
      writeStylesheet tree project.outputPath (project.built lists).engine.stylesheet =
        (.ok (), after) := by
  cases read : project.discovery.classLists tree with
  | error error => simp [build, read] at succeeds
  | ok lists =>
      refine ⟨lists, ?_⟩
      rcases result : writeStylesheet tree project.outputPath
        (project.built lists).engine.stylesheet with ⟨outcome, after⟩
      cases outcome with
      | ok _ => exact ⟨after, rfl, rfl⟩
      | error error =>
          simp only [built, outputPath] at result
          simp [build, read, outputPath, result, Except.map] at succeeds

/-- A build behind a successful one has the same outcome and changes nothing, as long as the
stylesheet is none of the sources. -/
theorem build_again {project : Project} {tree : FileTree} (sound : tree.IsSound)
    (apart : ∀ file ∈ project.discovery.files,
      Path.target? tree.home project.outputPath ≠ Path.target? tree.home file)
    {summary : BuildSummary} (succeeds : (project.build tree).outcome = .ok summary) :
    (project.build tree).project.build (project.build tree).tree = project.build tree := by
  rcases build_eq_ok succeeds with ⟨lists, after, read, isWritten⟩
  have isBuilt := build_of_classLists read isWritten
  have written : FileTree.Written project.outputPath tree after := by
    have result := written_build sound project
    rwa [isBuilt] at result
  have readAgain : (project.built lists).discovery.classLists after = .ok lists :=
    Discovery.classListsOf_of_written written apart read
  have writtenAgain : writeStylesheet after (project.built lists).outputPath
      ((project.built lists).built lists).engine.stylesheet = (.ok (), after) := by
    rw [built_built]
    exact writeStylesheet_again sound isWritten
  rw [isBuilt]
  simp only
  rw [build_of_classLists readAgain writtenAgain, built_built]

/-- The sources lie apart from a stylesheet whose place is not selected. -/
theorem KeepsApart.target?_ne {project : Project} {tree : FileTree}
    (apart : project.KeepsApart tree.home) (sound : tree.IsSound)
    (found : Discovery.run tree project.root project.manifestPath = .ok project.discovery) :
    ∀ file ∈ project.discovery.files,
      Path.target? tree.home project.outputPath ≠ Path.target? tree.home file := by
  intro file member sameTarget
  rcases Discovery.run_eq_ok_iff.mp found with ⟨manifest, _, files, scanned, isResult⟩
  rw [← isResult] at member
  rcases Discovery.exists_names_of_mem_scan sound scanned member with
    ⟨start, names, leads, isTarget, _, selected, _⟩
  apply apart start names leads (sameTarget.trans isTarget)
  rw [← isResult]
  exact selected

/-- A source never has the output path of the manifest. -/
theorem components_ne_of_mem_files {project : Project} (discovered : project.IsDiscovered) :
    ∀ file ∈ project.discovery.files,
      Path.components file ≠ Path.components project.discovery.outputPath := by
  rcases discovered with ⟨tree, found⟩
  rcases Discovery.run_eq_ok_iff.mp found with ⟨manifest, _, files, scanned, isResult⟩
  rw [← isResult]
  intro file member
  rcases (Discovery.mem_scan_iff scanned).mp member with ⟨_, names, _, _, _, _, selected, rfl⟩
  exact selected.components_ne

/-- Without an override the scan leaves out a stylesheet that is spelled as sources are. -/
theorem keepsApart_of_noOverride {project : Project} (discovered : project.IsDiscovered)
    (noOverride : project.outputOverride = none) (plain : project.HasPlainOutput) (home : Place) :
    project.KeepsApart home := by
  rcases plain with ⟨noUp, ofAbsolute⟩
  intro start names leads isTarget selects
  rcases Path.target?_eq_some_iff.mp leads with ⟨nonempty, isStart⟩
  have isPath : project.outputPath =
      Path.join project.root project.discovery.manifest.output := by
    rw [outputPath, noOverride, Option.getD_none, Discovery.outputPath, discovered.root_eq]
    rfl
  rw [isPath] at isTarget
  have isPlace := (Path.target?_eq_some_iff.mp isTarget).2
  apply selects.components_ne
  rw [Manifest.outputPath]
  cases absolute : Path.isAbsolute project.discovery.manifest.output with
  | false =>
      rw [Path.components_join nonempty absolute, Path.laterComponents_of_noUp noUp] at isPlace ⊢
      rw [Path.lead_append, isStart, Path.lead_names] at isPlace
      rw [← List.append_cancel_left isPlace, Discovery.components_pathBelow nonempty
        fun name => Path.isName_of_mem_names noUp]
  | true =>
      rcases ofAbsolute absolute with ⟨rootAbsolute, rootNoUp⟩
      have isWhole : Path.join project.root project.discovery.manifest.output =
          project.discovery.manifest.output := by
        rw [Path.join, if_pos absolute]
      have isRoot : Path.names project.root = start := by
        rw [Path.components_of_absolute rootAbsolute, Path.laterComponents_of_noUp rootNoUp,
          Path.lead, Path.lead_names] at isStart
        exact isStart
      have isOutput : Path.names project.discovery.manifest.output = start ++ names := by
        rw [isWhole, Path.components_of_absolute absolute, Path.laterComponents_of_noUp noUp,
          Path.lead, Path.lead_names] at isPlace
        exact isPlace
      have named : ∀ name ∈ names, Path.IsName name := by
        intro name member
        apply Path.isName_of_mem_names noUp
        rw [isOutput]
        exact List.mem_append_right start member
      rw [isWhole, Discovery.components_pathBelow nonempty named,
        Path.components_of_absolute rootAbsolute, Path.components_of_absolute absolute,
        Path.laterComponents_of_noUp rootNoUp, Path.laterComponents_of_noUp noUp, isRoot, isOutput,
        List.map_append, List.cons_append]

/-! ## Histories without edits -/

namespace Site

/-- A site that builds and rescans of a project have led to: the sources are as they were, and files
were written at the output path only. -/
structure IsSteady (start site : Site) : Prop where
  alike : site.project.IsAlike start.project
  discovery : site.project.discovery = start.project.discovery
  written : FileTree.Written start.project.outputPath start.tree site.tree

/-- What keeps builds and rescans steady: the tree is sound, the sources are those of the tree, and
the stylesheet is written apart from them. -/
structure StartsSteady (start : Site) : Prop where
  sound : start.tree.IsSound
  found : Discovery.run start.tree start.project.root start.project.manifestPath =
    .ok start.project.discovery
  settled : Discovery.IsSettled start.tree start.project.root
  apart : start.project.KeepsApart start.tree.home

theorem IsSteady.refl (start : Site) : IsSteady start start :=
  ⟨.refl start.project, rfl, .refl⟩

theorem IsSteady.outputPath_eq {start site : Site} (steady : IsSteady start site) :
    site.project.outputPath = start.project.outputPath := by
  rw [outputPath, outputPath, steady.alike.outputOverride, steady.discovery]

theorem IsSteady.rescan_eq {start site : Site} (starts : start.StartsSteady)
    (steady : IsSteady start site)
    (sameManifest : site.tree.lookup? start.project.manifestPath =
      start.tree.lookup? start.project.manifestPath) :
    site.project.rescan site.tree = .ok site.project := by
  have found := Discovery.run_of_written starts.found steady.written sameManifest starts.settled
    starts.apart
  rw [← steady.alike.root, ← steady.alike.manifestPath] at found
  apply rescan_eq_ok_iff.mpr ⟨_, found, _⟩
  rw [← steady.discovery]

theorem IsSteady.build {start site : Site} (starts : start.StartsSteady)
    (steady : IsSteady start site) : IsSteady start (site.after .build) := by
  have alike := site.project.isAlike_build site.tree
  refine ⟨⟨alike.root.trans steady.alike.root, alike.manifestPath.trans steady.alike.manifestPath,
    alike.outputOverride.trans steady.alike.outputOverride,
    alike.engine.trans steady.alike.engine⟩, ?_, ?_⟩
  · rw [after, discovery_build, steady.discovery]
  · have more := written_build (steady.written.isSound starts.sound) site.project
    rw [steady.outputPath_eq] at more
    exact Relation.ReflTransGen.trans steady.written more

/-- Builds, and rescans that meet the manifest as it was at first, keep a site steady. -/
theorem IsSteady.run {start site : Site} (starts : start.StartsSteady)
    (steady : IsSteady start site) {events : List Event}
    (noEdit : ∀ change, .edit change ∉ events)
    (keeps : KeepsManifest start.project.manifestPath
      (start.tree.lookup? start.project.manifestPath) site events) :
    IsSteady start (site.run events) := by
  induction events generalizing site with
  | nil => exact steady
  | cons event events ih =>
      have noEditLater : ∀ change, .edit change ∉ events :=
        fun change member => noEdit change (List.mem_cons_of_mem event member)
      cases event with
      | edit change => exact absurd List.mem_cons_self (noEdit change)
      | build => exact ih (steady.build starts) noEditLater keeps
      | rescan =>
          have same : site.after .rescan = site := by
            rw [after, steady.rescan_eq starts keeps.1]
          have later := keeps.2
          rw [same] at later
          have isRun : site.run (.rescan :: events) = site.run events := by
            rw [Site.run, List.foldl_cons, same]
            rfl
          rw [isRun]
          exact ih steady noEditLater later

end Site

/-! ## Stylesheets that are sources -/

/-- The sources after a rescan are those that the manifest now in force selects. -/
theorem scan_of_rescan {project rescanned : Project} {tree : FileTree}
    (isRescan : project.rescan tree = .ok rescanned) :
    Discovery.scan tree project.root rescanned.discovery.manifest =
        .ok rescanned.discovery.files ∧
      rescanned.root = project.root ∧ rescanned.outputOverride = project.outputOverride := by
  rcases rescan_eq_ok isRescan with ⟨manifest, files, _, scanned, rfl⟩
  exact ⟨scanned, rfl, rfl⟩

/-- The text that a successful build wrote stands where the output path leads. -/
theorem exists_stylesheet {project : Project} {tree : FileTree} (sound : tree.IsSound)
    {summary : BuildSummary} (succeeds : (project.build tree).outcome = .ok summary) :
    ∃ place text, Path.target? tree.home project.outputPath = some place ∧
      (place, .file (.text text)) ∈ (project.build tree).tree.entries := by
  have sameHome := (written_build sound project).home_eq
  rcases build_eq_ok succeeds with ⟨lists, after, read, isWritten⟩
  rcases writeStylesheet_eq_ok isWritten with ⟨made, isMade, isText⟩
  have soundMade := isSound_of_makeParent sound isMade
  rcases FileTree.entryAt?_of_writeText? soundMade isText with ⟨place, isPlace, stands⟩
  have someName : place ≠ [] := by
    rintro rfl
    cases stands
  rw [build_of_classLists read isWritten] at sameHome ⊢
  have target := FileTree.target?_of_placeOf? isPlace
  rw [sameHome] at target
  exact ⟨place, _, target, FileTree.mem_entries_of_entryAt? someName stands⟩

/-- A scan after a build lists the stylesheet when its place is that of selected names. -/
theorem pathBelow_mem_scan {project : Project} {tree : FileTree} (sound : tree.IsSound)
    (present : tree.contains project.root = true)
    {summary : BuildSummary} (succeeds : (project.build tree).outcome = .ok summary)
    {manifest : Manifest} {files : List Text}
    (scanned : Discovery.scan (project.build tree).tree project.root manifest = .ok files)
    {start : Place} {names : List Text}
    (leads : Path.target? tree.home project.root = some start)
    (target : Path.target? tree.home project.outputPath = some (start ++ names))
    (selected : Discovery.Selects project.root manifest names) :
    (∀ name ∈ names, Path.IsName name) ∧ Discovery.pathBelow project.root names ∈ files := by
  have written := written_build sound project
  rcases exists_stylesheet sound succeeds with ⟨place, text, isTarget, isEntry⟩
  have isBelow : start ++ names = place := Option.some.inj (target.symm.trans isTarget)
  rw [← isBelow] at isEntry
  rcases FileTree.contains_iff.mp (written.contains_eq present) with ⟨place, entry, isRoot, _⟩
  have isStart := FileTree.target?_of_placeOf? isRoot
  rw [written.home_eq, leads] at isStart
  rw [← Option.some.inj isStart] at isRoot
  constructor
  · exact fun name inNames =>
      (written.isSound sound).named _ isEntry name (List.mem_append_right start inNames)
  · exact (Discovery.mem_scan_iff scanned).mpr
      ⟨start, names, .text text, written.contains_eq present, isRoot, isEntry, selected, rfl⟩

/-- After a build to an override and a rescan, the stylesheet is among the sources exactly when the
override is the path of a file below the root that the manifest selects. -/
theorem lists_override_iff {project rescanned : Project} {tree : FileTree} (sound : tree.IsSound)
    (present : tree.contains project.root = true) {override : Text}
    (isOverride : project.outputOverride = some override)
    {summary : BuildSummary} (succeeds : (project.build tree).outcome = .ok summary)
    (isRescan : (project.build tree).project.rescan (project.build tree).tree = .ok rescanned) :
    rescanned.ListsStylesheet ↔ ∃ names, (∀ name ∈ names, Path.IsName name) ∧
      Path.components (Discovery.pathBelow project.root names) = Path.components override ∧
      Discovery.Selects project.root rescanned.discovery.manifest names := by
  have alike := project.isAlike_build tree
  have written := written_build sound project
  have isOutput : project.outputPath = override := by
    rw [outputPath, isOverride, Option.getD_some]
  rcases scan_of_rescan isRescan with ⟨scanned, _, sameOverride⟩
  rw [alike.root] at scanned
  have isLater : rescanned.outputPath = override := by
    rw [outputPath, sameOverride, alike.outputOverride, isOverride, Option.getD_some]
  rw [ListsStylesheet, isLater]
  constructor
  · rintro ⟨file, member, same⟩
    rcases Discovery.exists_names_of_mem_scan (written.isSound sound) scanned member with
      ⟨_, names, _, _, named, selected, rfl⟩
    exact ⟨names, named, same, selected⟩
  · rintro ⟨names, named, isBelow, selected⟩
    rcases FileTree.contains_iff.mp present with ⟨start, entry, isRoot, _⟩
    have leads := FileTree.target?_of_placeOf? isRoot
    have target : Path.target? tree.home project.outputPath = some (start ++ names) := by
      rw [isOutput, ← Path.target?_congr tree.home isBelow,
        Discovery.target?_pathBelow leads named]
    exact ⟨_, (pathBelow_mem_scan sound present succeeds scanned leads target selected).2, isBelow⟩

/-- After a build and a rescan that finds the output path as it was, a source leads to the place of
the stylesheet exactly when the manifest selects that place. -/
theorem readsStylesheet_iff {project rescanned : Project} {tree : FileTree} (sound : tree.IsSound)
    (present : tree.contains project.root = true)
    {summary : BuildSummary} (succeeds : (project.build tree).outcome = .ok summary)
    (isRescan : (project.build tree).project.rescan (project.build tree).tree = .ok rescanned)
    (sameOutput : rescanned.outputPath = project.outputPath) :
    rescanned.ReadsStylesheet tree.home ↔ ¬rescanned.KeepsApart tree.home := by
  have alike := project.isAlike_build tree
  have written := written_build sound project
  rcases scan_of_rescan isRescan with ⟨scanned, sameRoot, _⟩
  rw [alike.root] at scanned sameRoot
  rw [ReadsStylesheet, KeepsApart, sameOutput, sameRoot]
  constructor
  · rintro ⟨file, member, same⟩ apart
    rcases Discovery.exists_names_of_mem_scan (written.isSound sound) scanned member with
      ⟨start, names, leads, isTarget, _, selected, _⟩
    rw [written.home_eq] at leads isTarget
    exact apart start names leads (same.symm.trans isTarget) selected
  · intro notApart
    simp only [not_forall, not_not] at notApart
    rcases notApart with ⟨start, names, leads, target, selected⟩
    rcases pathBelow_mem_scan sound present succeeds scanned leads target selected with
      ⟨named, member⟩
    exact ⟨_, member, by rw [Discovery.target?_pathBelow leads named, target]⟩

/-- A loaded project and its stylesheet. After any history, edits included, no source has the output
path of the manifest, so a project without override does not have its output path among its sources.
A project with an override has it there after a build and a rescan exactly when the override is the
path of a file that the manifest selects.

What counts for the next build is the place of the stylesheet. After a build and a rescan that finds
the output path as it was, a source leads to that place exactly when the manifest selects it.
Without override the manifest never does if its output is plain: it does not lead up, and it is
relative or the root is an absolute path that does not lead up. A project whose manifest does not
select the place settles: with no edits and the manifest as it was, its sources stay and the
stylesheet is none of them; a rescan after a successful build changes nothing, and building again
has the same outcome, the same rules and the same files. -/
theorem sources_and_stylesheet {tree : FileTree} {arguments : ProjectArguments}
    {project : Project} (loaded : load tree arguments = .ok project) :
    (∀ events, let site := Site.run ⟨project, tree⟩ events
      (∀ file ∈ site.project.discovery.files,
          Path.components file ≠ Path.components site.project.discovery.outputPath) ∧
        (arguments.output = none → ¬site.project.ListsStylesheet)) ∧
    (∀ events override, arguments.output = some override →
      let site := Site.run ⟨project, tree⟩ events
      let step := site.project.build site.tree
      site.tree.IsSound → site.tree.contains project.root = true →
      ∀ summary rescanned, step.outcome = .ok summary →
        step.project.rescan step.tree = .ok rescanned →
        (rescanned.ListsStylesheet ↔ ∃ names, (∀ name ∈ names, Path.IsName name) ∧
          Path.components (Discovery.pathBelow project.root names) = Path.components override ∧
          Discovery.Selects project.root rescanned.discovery.manifest names)) ∧
    (∀ events, let site := Site.run ⟨project, tree⟩ events
      let step := site.project.build site.tree
      let home := site.tree.home
      site.tree.IsSound → site.tree.contains project.root = true →
      ∀ summary rescanned, step.outcome = .ok summary →
        step.project.rescan step.tree = .ok rescanned →
        rescanned.outputPath = site.project.outputPath →
        (rescanned.ReadsStylesheet home ↔ ¬rescanned.KeepsApart home)) ∧
    (arguments.output = none → project.HasPlainOutput → ∀ home, project.KeepsApart home) ∧
    (tree.IsSound → Discovery.IsSettled tree project.root → project.KeepsApart tree.home →
      ∀ events, (∀ change, .edit change ∉ events) →
      Site.KeepsManifest project.manifestPath (tree.lookup? project.manifestPath)
        ⟨project, tree⟩ (events ++ [.build, .rescan]) →
      let site := Site.run ⟨project, tree⟩ events
      let step := site.project.build site.tree
      site.project.discovery = project.discovery ∧ ¬site.project.ListsStylesheet ∧
        ∀ summary, step.outcome = .ok summary →
          step.project.rescan step.tree = .ok step.project ∧
          step.project.build step.tree = step) := by
  refine ⟨?_, ?_, ?_, ?_, ?_⟩
  · intro events site
    have discovered : site.project.IsDiscovered :=
      Site.isDiscovered_run (isDiscovered_of_load loaded) events
    have alike : site.project.IsAlike project := Site.isAlike_run (.refl project) events
    refine ⟨components_ne_of_mem_files discovered, ?_⟩
    rintro noOverride ⟨file, member, same⟩
    have isOutput : site.project.outputPath = site.project.discovery.outputPath := by
      rw [outputPath, alike.outputOverride, outputOverride_of_load loaded, noOverride,
        Option.getD_none]
    rw [isOutput] at same
    exact components_ne_of_mem_files discovered file member same
  · intro events override isOverride site step sound present summary rescanned succeeds isRescan
    have alike : site.project.IsAlike project := Site.isAlike_run (.refl project) events
    have isSiteOverride : site.project.outputOverride = some override := by
      rw [alike.outputOverride, outputOverride_of_load loaded, isOverride]
    rw [← alike.root] at present ⊢
    exact lists_override_iff sound present isSiteOverride succeeds isRescan
  · intro events site step home sound present summary rescanned succeeds isRescan sameOutput
    have alike : site.project.IsAlike project := Site.isAlike_run (.refl project) events
    rw [← alike.root] at present
    exact readsStylesheet_iff sound present succeeds isRescan sameOutput
  · intro noOverride
    exact keepsApart_of_noOverride (isDiscovered_of_load loaded)
      ((outputOverride_of_load loaded).trans noOverride)
  · intro sound settled apart events noEdit keeps site step
    have found := run_eq_of_load loaded
    have starts : Site.StartsSteady ⟨project, tree⟩ := ⟨sound, found, settled, apart⟩
    have steady : Site.IsSteady ⟨project, tree⟩ site :=
      Site.IsSteady.run starts (.refl _) noEdit keeps.of_append.1
    have steadyBuilt : Site.IsSteady ⟨project, tree⟩ ⟨step.project, step.tree⟩ :=
      steady.build starts
    have sameManifest : step.tree.lookup? project.manifestPath =
        tree.lookup? project.manifestPath := keeps.of_append.2.1
    have sources : ∀ file ∈ site.project.discovery.files,
        Path.target? site.tree.home site.project.outputPath ≠
          Path.target? site.tree.home file := by
      rw [steady.written.home_eq, steady.outputPath_eq, steady.discovery]
      exact apart.target?_ne sound found
    refine ⟨steady.discovery, ?_, ?_⟩
    · rintro ⟨file, member, same⟩
      exact sources file member (Path.target?_congr site.tree.home same.symm)
    · intro summary succeeds
      have rescan := steadyBuilt.rescan_eq starts sameManifest
      exact ⟨rescan, build_again (steady.written.isSound sound) sources succeeds⟩

/-- Three projects of one tree. One writes to the output path of its manifest, which its patterns
match, and settles. One writes to a path that the patterns select, and finds it. The third one has
an absolute output below a root that is given as a relative one; it reads its stylesheet as a source
of another path. -/
theorem sources_and_stylesheet_sample :
    let manifest := "property: \x7bp: padding\x7d\noutput: all.html\n".toList
    let absolute := "property: \x7bp: padding\x7d\noutput: /w/out.html\n".toList
    let tree := (((FileTree.ofHome ["w".toList]).plant "atomcss.yaml".toList
      (.file (.text manifest))).plant "absolute.yaml".toList (.file (.text absolute))).plant
      "a.html".toList (.file (.text "<i class='p-1px'></i>".toList))
    let events : List Event := [.build, .rescan]
    ∃ project, load tree {} = .ok project ∧
      (let site := Site.run ⟨project, tree⟩ events
        let step := site.project.build site.tree
        project.discovery.files = ["./a.html".toList] ∧
          site.project.discovery = project.discovery ∧
          step.outcome.toOption = some ⟨1, 1, 0⟩ ∧
          step.project.rescan step.tree = .ok step.project ∧
          step.project.build step.tree = step) ∧
      ∃ other rescanned, load tree { output := some "./out.html".toList } = .ok other ∧
        (other.build tree).project.rescan (other.build tree).tree = .ok rescanned ∧
        rescanned.ListsStylesheet ∧
        ∃ third later, load tree { manifestPath := some "absolute.yaml".toList } = .ok third ∧
          let step := third.build tree
          step.project.rescan step.tree = .ok later ∧ later.outputPath = "/w/out.html".toList ∧
            later.discovery.files = ["./a.html".toList, "./out.html".toList] ∧
            later.ReadsStylesheet tree.home ∧ ¬later.ListsStylesheet := by
  intro manifest absolute tree events
  have sound : tree.IsSound := ⟨by decide +kernel, by decide +kernel, by decide +kernel⟩
  have settles : (load tree {}).toOption.any (fun project =>
      let site := Site.run ⟨project, tree⟩ events
      let step := site.project.build site.tree
      let output := project.discovery.manifest.output
      project.discovery.files = ["./a.html".toList] && tree.contains project.root &&
        ['.', '.'] ∉ Path.segments output && !Path.isAbsolute output &&
        (project.build tree).tree.lookup? project.manifestPath =
          tree.lookup? project.manifestPath &&
        step.tree.lookup? project.manifestPath = tree.lookup? project.manifestPath &&
        step.outcome.toOption.any fun summary => summary = ⟨1, 1, 0⟩) = true := by
    decide +kernel
  have finds : (load tree { output := some "./out.html".toList }).toOption.any (fun other =>
      let step := other.build tree
      tree.contains other.root && step.outcome.toOption.isSome &&
        Path.components "./out.html".toList =
          Path.components (Discovery.pathBelow other.root ["out.html".toList]) &&
        (step.project.rescan step.tree).toOption.any fun rescanned =>
          let found := rescanned.discovery.manifest
          (PatternSet.ofPatterns found.input).toOption.any fun inputs =>
            (PatternSet.ofPatterns found.excludes).toOption.any fun excludes =>
              Discovery.isSource other.root (found.outputPath other.root) inputs excludes
                ["out.html".toList]) = true := by
    decide +kernel
  have reads : (load tree { manifestPath := some "absolute.yaml".toList }).toOption.any
      (fun third =>
      let step := third.build tree
      tree.contains third.root && step.outcome.toOption.isSome &&
        third.outputPath = "/w/out.html".toList &&
        (step.project.rescan step.tree).toOption.any fun later =>
          let found := later.discovery.manifest
          later.outputPath = "/w/out.html".toList &&
            later.discovery.files = ["./a.html".toList, "./out.html".toList] &&
            Path.target? tree.home later.root = some ["w".toList] &&
            (PatternSet.ofPatterns found.input).toOption.any fun inputs =>
              (PatternSet.ofPatterns found.excludes).toOption.any fun excludes =>
                Discovery.isSource later.root (found.outputPath later.root) inputs excludes
                  ["out.html".toList]) = true := by
    decide +kernel
  rcases exists_eq_ok_of_any settles with ⟨project, loaded, facts⟩
  rcases exists_eq_ok_of_any finds with ⟨other, otherLoaded, otherFacts⟩
  rcases exists_eq_ok_of_any reads with ⟨third, thirdLoaded, thirdFacts⟩
  simp only [Bool.and_eq_true, decide_eq_true_eq, Bool.not_eq_true'] at facts otherFacts thirdFacts
  rcases facts with ⟨⟨⟨⟨⟨⟨files, present⟩, noUp⟩, relative⟩, sameBefore⟩, sameBehind⟩, counted⟩
  rcases otherFacts with ⟨⟨⟨otherPresent, built⟩, isBelow⟩, rescans⟩
  rcases thirdFacts with ⟨⟨⟨thirdPresent, thirdBuilt⟩, isOutput⟩, thirdRescans⟩
  rcases exists_eq_ok_of_any counted with ⟨summary, succeeds, isSummary⟩
  rcases exists_eq_ok_of_any rescans with ⟨rescanned, isRescan, selected⟩
  rcases exists_eq_ok_of_any thirdRescans with ⟨later, isLater, laterFacts⟩
  simp only [Bool.and_eq_true, decide_eq_true_eq] at laterFacts
  rcases laterFacts with ⟨⟨⟨laterOutput, laterFiles⟩, leads⟩, laterSelected⟩
  refine ⟨project, loaded, ?_, other, rescanned, otherLoaded, isRescan, ?_, third, later,
    thirdLoaded, isLater, laterOutput, laterFiles, ?_⟩
  · rcases sources_and_stylesheet loaded with ⟨_, _, _, apart, settled⟩
    have plain : project.HasPlainOutput := ⟨noUp, by simp [relative]⟩
    have noEdit : ∀ change, .edit change ∉ events := by simp [events]
    have keeps : Site.KeepsManifest project.manifestPath (tree.lookup? project.manifestPath)
        ⟨project, tree⟩ (events ++ [.build, .rescan]) := ⟨sameBefore, sameBehind, trivial⟩
    rcases settled sound (Or.inl present) (apart rfl plain tree.home) events noEdit keeps with
      ⟨discovery, _, again⟩
    rcases again summary succeeds with ⟨rescan, build⟩
    have outcome := congrArg Except.toOption succeeds
    rw [of_decide_eq_true isSummary] at outcome
    exact ⟨files, discovery, outcome, rescan, build⟩
  · rcases sources_and_stylesheet otherLoaded with ⟨_, listed, _, _, _⟩
    rcases exists_eq_ok_of_isSome built with ⟨otherSummary, otherSucceeds⟩
    have named : ∀ name ∈ ["out.html".toList], Path.IsName name := by decide
    have isListed := listed [] "./out.html".toList rfl sound otherPresent otherSummary rescanned
      otherSucceeds isRescan
    exact isListed.mpr
      ⟨["out.html".toList], named, isBelow.symm, Discovery.selects_of_any selected⟩
  · rcases sources_and_stylesheet thirdLoaded with ⟨unlisted, _, isRead, _, _⟩
    rcases exists_eq_ok_of_isSome thirdBuilt with ⟨thirdSummary, thirdSucceeds⟩
    constructor
    · have readIff := isRead [] sound thirdPresent thirdSummary later thirdSucceeds isLater
        (laterOutput.trans isOutput.symm)
      apply readIff.mpr
      intro apart
      have target : Path.target? tree.home later.outputPath =
          some (["w".toList] ++ ["out.html".toList]) := by
        rw [laterOutput]
        rfl
      exact apart _ _ leads target (Discovery.selects_of_any laterSelected)
    · have isSite : (Site.run ⟨third, tree⟩ [.build, .rescan]).project = later := by
        simp [Site.run, Site.after, isLater]
      rw [← isSite]
      exact (unlisted [.build, .rescan]).2 rfl

/-- A project with an override counts its own stylesheet among its sources: after a build and a
rescan there is one source more, and the next build reads it. -/
theorem override_becomes_source :
    let tree := (FileTree.empty.plant "atomcss.yaml".toList
      (.file (.text "property: \x7bp: padding\x7d\n".toList))).plant
      "a.html".toList (.file (.text "<i class='p-1px'></i>".toList))
    ∃ project rescanned, load tree { output := some "./out.html".toList } = .ok project ∧
      let step := project.build tree
      step.outcome.toOption = some ⟨1, 1, 0⟩ ∧
        step.project.rescan step.tree = .ok rescanned ∧
        rescanned.outputPath = "./out.html".toList ∧
        rescanned.discovery.files = ["./a.html".toList, "./out.html".toList] ∧
        (rescanned.build step.tree).outcome.toOption = some ⟨2, 1, 0⟩ := by
  intro tree
  have checked : (load tree { output := some "./out.html".toList }).toOption.any (fun project =>
      let step := project.build tree
      (step.project.rescan step.tree).toOption.any fun rescanned =>
        step.outcome.toOption = some ⟨1, 1, 0⟩ && rescanned.outputPath = "./out.html".toList &&
          rescanned.discovery.files = ["./a.html".toList, "./out.html".toList] &&
          (rescanned.build step.tree).outcome.toOption = some ⟨2, 1, 0⟩) = true := by
    decide +kernel
  rcases exists_eq_ok_of_any checked with ⟨project, loaded, rescans⟩
  rcases exists_eq_ok_of_any rescans with ⟨rescanned, isRescan, facts⟩
  simp only [Bool.and_eq_true, decide_eq_true_eq] at facts
  rcases facts with ⟨⟨⟨first, output⟩, files⟩, second⟩
  exact ⟨project, rescanned, loaded, first, isRescan, output, files, second⟩

end Project

end UtilityCss
