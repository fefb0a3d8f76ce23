import UtilityCss.Proofs.Project.Rebuild

/-!
# Settings after a rescan

A rescan discovers the sources anew, and that includes the manifest: the patterns and the output
path in force are those of the manifest as it reads at the rescan. The engine is kept, so its
vocabulary is still that of the manifest at the time of loading. The two stem from one manifest as
long as no rescan meets a changed manifest file.
-/

namespace UtilityCss

namespace Project

/-- The sources of a project were discovered at some time, at its root and with its manifest. -/
def IsDiscovered (project : Project) : Prop :=
  ∃ tree, Discovery.run tree project.root project.manifestPath = .ok project.discovery

theorem IsDiscovered.root_eq {project : Project} (discovered : project.IsDiscovered) :
    project.discovery.root = project.root := by
  rcases discovered with ⟨tree, found⟩
  rcases Discovery.run_eq_ok_iff.mp found with ⟨manifest, _, files, _, result⟩
  rw [← result]

theorem run_eq_of_load {tree : FileTree} {arguments : ProjectArguments} {project : Project}
    (loaded : load tree arguments = .ok project) :
    Discovery.run tree project.root project.manifestPath = .ok project.discovery := by
  rcases load_eq_ok_iff.mp loaded with ⟨discovery, found, engine, _, rfl⟩
  exact found

theorem isDiscovered_of_load {tree : FileTree} {arguments : ProjectArguments} {project : Project}
    (loaded : load tree arguments = .ok project) : project.IsDiscovered :=
  ⟨tree, run_eq_of_load loaded⟩

theorem outputOverride_of_load {tree : FileTree} {arguments : ProjectArguments}
    {project : Project} (loaded : load tree arguments = .ok project) :
    project.outputOverride = arguments.output := by
  rcases load_eq_ok_iff.mp loaded with ⟨_, _, _, _, rfl⟩
  rfl

@[simp]
theorem discovery_build (project : Project) (tree : FileTree) :
    (project.build tree).project.discovery = project.discovery := by
  rw [build]
  split <;> rfl

/-- A successful rescan: the manifest as it reads now, the sources that it selects now, and the rest
of the project as it was. -/
theorem rescan_eq_ok {project rescanned : Project} {tree : FileTree}
    (isRescan : project.rescan tree = .ok rescanned) :
    ∃ manifest files, Manifest.loadOrStandard tree project.manifestPath = .ok manifest ∧
      Discovery.scan tree project.root manifest = .ok files ∧
      rescanned = { project with
        discovery := ⟨project.root, manifest, tree.contains project.manifestPath, files⟩ } := by
  rcases rescan_eq_ok_iff.mp isRescan with ⟨discovery, found, rfl⟩
  rcases Discovery.run_eq_ok_iff.mp found with ⟨manifest, loaded, files, scanned, rfl⟩
  exact ⟨manifest, files, loaded, scanned, rfl⟩

namespace Site

theorem isDiscovered_after {site : Site} (discovered : site.project.IsDiscovered)
    (event : Event) : (site.after event).project.IsDiscovered := by
  cases event with
  | edit change => exact discovered
  | rescan =>
      rw [after]
      split
      · rename_i project rescanned
        rcases rescan_eq_ok_iff.mp rescanned with ⟨discovery, found, rfl⟩
        exact ⟨site.tree, found⟩
      · exact discovered
  | build =>
      rcases discovered with ⟨tree, found⟩
      have alike := site.project.isAlike_build site.tree
      refine ⟨tree, ?_⟩
      rw [after, alike.root, alike.manifestPath, discovery_build]
      exact found

theorem isDiscovered_run {site : Site} (discovered : site.project.IsDiscovered)
    (events : List Event) : (site.run events).project.IsDiscovered := by
  induction events generalizing site with
  | nil => exact discovered
  | cons event events ih => exact ih (isDiscovered_after discovered event)

theorem run_concat (site : Site) (events : List Event) (event : Event) :
    site.run (events ++ [event]) = (site.run events).after event := by
  simp [run]

/-- At every rescan of a history the path of the manifest leads to a given entry. -/
def KeepsManifest (path : Text) (entry : Option FileEntry) : Site → List Event → Prop
  | _, [] => True
  | site, .rescan :: events =>
    site.tree.lookup? path = entry ∧ KeepsManifest path entry (site.after .rescan) events
  | site, event :: events => KeepsManifest path entry (site.after event) events

theorem KeepsManifest.of_append {path : Text} {entry : Option FileEntry} {site : Site}
    {events more : List Event} (keeps : KeepsManifest path entry site (events ++ more)) :
    KeepsManifest path entry site events ∧ KeepsManifest path entry (site.run events) more := by
  induction events generalizing site with
  | nil => exact ⟨trivial, keeps⟩
  | cons event events ih =>
      cases event with
      | edit change => exact ih keeps
      | build => exact ih keeps
      | rescan => exact ⟨⟨keeps.1, (ih keeps.2).1⟩, (ih keeps.2).2⟩

/-- When every rescan meets the entry that the manifest in force was read from, that manifest stays
in force. -/
theorem manifest_run {path : Text} {entry : Option FileEntry} {manifest : Manifest} {site : Site}
    (reads : ∀ tree : FileTree, tree.lookup? path = entry →
      Manifest.loadOrStandard tree path = .ok manifest)
    (isPath : site.project.manifestPath = path)
    (inForce : site.project.discovery.manifest = manifest) {events : List Event}
    (keeps : KeepsManifest path entry site events) :
    (site.run events).project.discovery.manifest = manifest := by
  induction events generalizing site with
  | nil => exact inForce
  | cons event events ih =>
      cases event with
      | edit change => refine ih ?_ ?_ keeps <;> assumption
      | build =>
          have alike := site.project.isAlike_build site.tree
          refine ih (alike.manifestPath.trans isPath) ?_ keeps
          rw [after, discovery_build, inForce]
      | rescan =>
          refine ih ?_ ?_ keeps.2
          · exact (isAlike_after (.refl site.project) .rescan).manifestPath.trans isPath
          · rw [after]
            split
            · rename_i rescanned isRescan
              rcases rescan_eq_ok isRescan with ⟨now, files, read, _, rfl⟩
              rw [isPath, reads site.tree keeps.1] at read
              exact (Except.ok.inj read).symm
            · exact inForce

end Site

/-- The vocabulary of an engine is that of the manifest that the project was loaded with. -/
theorem config_of_isAlike {tree : FileTree} {arguments : ProjectArguments}
    {project other : Project} (loaded : load tree arguments = .ok project)
    (alike : other.IsAlike project) :
    other.engine.config = project.discovery.manifest.config := by
  rcases load_eq_ok_iff.mp loaded with ⟨discovery, _, engine, started, rfl⟩
  calc
    other.engine.config = other.engine.reset.config := rfl
    _ = engine.reset.config := congrArg Engine.config alike.engine
    _ = engine.config := rfl
    _ = discovery.manifest.config := (Engine.reflects_of_start started).config_eq

theorem outputPath_of_isAlike {tree : FileTree} {arguments : ProjectArguments}
    {project other : Project} (loaded : load tree arguments = .ok project)
    (alike : other.IsAlike project) (discovered : other.IsDiscovered) :
    other.outputPath =
      arguments.output.getD (other.discovery.manifest.outputPath project.root) := by
  rw [outputPath, Discovery.outputPath, discovered.root_eq, alike.root, alike.outputOverride,
    outputOverride_of_load loaded]

theorem loadOrStandard_of_load {tree other : FileTree} {arguments : ProjectArguments}
    {project : Project} (loaded : load tree arguments = .ok project)
    (same : other.lookup? project.manifestPath = tree.lookup? project.manifestPath) :
    Manifest.loadOrStandard other project.manifestPath = .ok project.discovery.manifest := by
  rcases Discovery.run_eq_ok_iff.mp (run_eq_of_load loaded) with
    ⟨first, readFirst, _, _, isResult⟩
  rw [Manifest.loadOrStandard_congr same, readFirst, ← isResult]

/-- A successful rescan after any history of a loaded project. The manifest in force is the one that
is read now; the sources are those that it selects; the engine stays, with the vocabulary of the
manifest that was loaded. The output path stays exactly when an override is given or the manifest
read now has the output path of the one before. As long as every rescan, this one included, meets
the manifest file that was loaded, all settings are still those of the loaded manifest. -/
theorem rescan_settings {tree : FileTree} {arguments : ProjectArguments}
    {project rescanned : Project} (loaded : load tree arguments = .ok project)
    (events : List Event)
    (isRescan : (Site.run ⟨project, tree⟩ events).project.rescan
      (Site.run ⟨project, tree⟩ events).tree = .ok rescanned) :
    let site := Site.run ⟨project, tree⟩ events
    ∃ now, Manifest.loadOrStandard site.tree project.manifestPath = .ok now ∧
      rescanned.discovery.manifest = now ∧
      Discovery.scan site.tree project.root now = .ok rescanned.discovery.files ∧
      rescanned.engine = site.project.engine ∧
      rescanned.engine.config = project.discovery.manifest.config ∧
      (rescanned.outputPath = site.project.outputPath ↔
        arguments.output ≠ none ∨ now.outputPath project.root =
          site.project.discovery.manifest.outputPath project.root) ∧
      (Site.KeepsManifest project.manifestPath (tree.lookup? project.manifestPath)
          ⟨project, tree⟩ (events ++ [.rescan]) →
        now = project.discovery.manifest ∧ rescanned.outputPath = project.outputPath ∧
          site.project.outputPath = project.outputPath) := by
  intro site
  have isLater : (Site.run ⟨project, tree⟩ (events ++ [.rescan])).project = rescanned := by
    rw [Site.run_concat, Site.after, isRescan]
  have alike : ∀ history, (Site.run ⟨project, tree⟩ history).project.IsAlike project :=
    Site.isAlike_run (.refl project)
  have output : ∀ history, (Site.run ⟨project, tree⟩ history).project.outputPath =
      arguments.output.getD
        ((Site.run ⟨project, tree⟩ history).project.discovery.manifest.outputPath
          project.root) :=
    fun history => outputPath_of_isAlike loaded (alike history)
      (Site.isDiscovered_run (isDiscovered_of_load loaded) history)
  rcases rescan_eq_ok isRescan with ⟨now, files, read, scanned, isResult⟩
  have isNow : rescanned.discovery.manifest = now := by rw [isResult]
  have keptEngine : rescanned.engine = site.project.engine := by rw [isResult]
  have laterPath : rescanned.outputPath = arguments.output.getD (now.outputPath project.root) := by
    rw [← isNow, ← isLater, output]
  rw [(alike events).manifestPath] at read
  rw [(alike events).root] at scanned
  refine ⟨now, read, isNow, isResult ▸ scanned, keptEngine, ?_, ?_, ?_⟩
  · rw [keptEngine, config_of_isAlike loaded (alike events)]
  · rw [laterPath, output events]
    cases arguments.output with
    | none => simp [site]
    | some override => simp
  · intro keeps
    have stays := Site.manifest_run (fun _ => loadOrStandard_of_load loaded) rfl rfl keeps
    have stayed :=
      Site.manifest_run (fun _ => loadOrStandard_of_load loaded) rfl rfl keeps.of_append.1
    have firstPath := output []
    rw [isLater, isNow] at stays
    refine ⟨stays, ?_, ?_⟩
    · rw [laterPath, stays]
      exact firstPath.symm
    · rw [output events, stayed]
      exact firstPath.symm

/-- A manifest that changes between builds, but is as it was at first when the project is rescanned:
the new file is found and the settings stay. -/
theorem rescan_settings_sample :
    let manifest := "property: \x7bp: padding\x7d\noutput: a.css\n".toList
    let tree := FileTree.empty.plant "atomcss.yaml".toList (.file (.text manifest))
    let events : List Event := [.edit (·.uproot "atomcss.yaml".toList), .build,
      .edit (·.plant "atomcss.yaml".toList (.file (.text manifest))),
      .edit (·.plant "a.html".toList (.file (.text "<i class='p-1px'>".toList)))]
    ∃ project rescanned, load tree {} = .ok project ∧
      let site := Site.run ⟨project, tree⟩ events
      site.project.rescan site.tree = .ok rescanned ∧
        rescanned.discovery.files = ["./a.html".toList] ∧
        site.project.outputPath = "./a.css".toList ∧
        rescanned.outputPath = site.project.outputPath ∧
        rescanned.engine.config = rescanned.discovery.manifest.config := by
  intro manifest tree events
  have checked : (load tree {}).toOption.any (fun project =>
      let site := Site.run ⟨project, tree⟩ events
      (site.project.rescan site.tree).toOption.any fun rescanned =>
        site.tree.lookup? project.manifestPath = tree.lookup? project.manifestPath &&
          site.project.outputPath = "./a.css".toList &&
          rescanned.discovery.files = ["./a.html".toList]) = true := by
    decide +kernel
  rcases exists_eq_ok_of_any checked with ⟨project, loaded, rescans⟩
  rcases exists_eq_ok_of_any rescans with ⟨rescanned, isRescan, facts⟩
  simp only [Bool.and_eq_true, decide_eq_true_eq] at facts
  rcases facts with ⟨⟨sameManifest, output⟩, files⟩
  rcases rescan_settings loaded events isRescan with
    ⟨now, _, isNow, _, _, vocabulary, _, stays⟩
  rcases stays ⟨sameManifest, trivial⟩ with ⟨isLoaded, laterPath, formerPath⟩
  exact ⟨project, rescanned, loaded, isRescan, files, output,
    laterPath.trans formerPath.symm, by rw [vocabulary, isNow, isLoaded]⟩

/-- The manifest is changed and the project rescanned: the output path follows the manifest, and the
patterns, the output path and the vocabulary are no longer those of one manifest. -/
theorem rescan_follows_manifest :
    let tree := (FileTree.empty.plant "atomcss.yaml".toList
      (.file (.text "property: \x7bp: padding\x7d\noutput: a.css\n".toList))).plant
      "a.html".toList (.file (.text "<i class='p-1px'></i>".toList))
    let changed := tree.plant "atomcss.yaml".toList
      (.file (.text "property: \x7bp: margin\x7d\noutput: b.css\ninput: []\n".toList))
    ∃ project rescanned, load tree {} = .ok project ∧
      project.rescan changed = .ok rescanned ∧
        project.outputPath = "./a.css".toList ∧ rescanned.outputPath = "./b.css".toList ∧
        (Discovery.scan changed project.root project.discovery.manifest).toOption =
          some ["./a.html".toList] ∧
        rescanned.discovery.files = [] ∧
        rescanned.engine.config ≠ rescanned.discovery.manifest.config := by
  intro tree changed
  have checked : (load tree {}).toOption.any (fun project =>
      (project.rescan changed).toOption.any fun rescanned =>
        project.outputPath = "./a.css".toList && rescanned.outputPath = "./b.css".toList &&
          (Discovery.scan changed project.root project.discovery.manifest).toOption =
            some ["./a.html".toList] &&
          rescanned.discovery.files = [] &&
          rescanned.engine.config ≠ rescanned.discovery.manifest.config) = true := by
    decide +kernel
  rcases exists_eq_ok_of_any checked with ⟨project, loaded, rescans⟩
  rcases exists_eq_ok_of_any rescans with ⟨rescanned, isRescan, facts⟩
  simp only [Bool.and_eq_true, decide_eq_true_eq] at facts
  rcases facts with ⟨⟨⟨⟨output, later⟩, selected⟩, files⟩, apart⟩
  exact ⟨project, rescanned, loaded, isRescan, output, later, selected, files, apart⟩

end Project

end UtilityCss
