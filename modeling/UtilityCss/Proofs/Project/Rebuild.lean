import UtilityCss.Project.Basic
import UtilityCss.Proofs.Engine.Run

/-!
# Rebuilding a project

A project is kept while its files change: it is built, it scans its root anew, and either may fail.
Its engine collects rules all the time, and its list of sources may be out of date. Still a rescan
and a build give what a project that is loaded now would give. The reason is that a build starts
from the engine without its rules, and that neither builds nor rescans touch the rest of it.

Nothing is assumed about the changes of files but that the path of the manifest leads in the end to
what it led to at first. That some build writes its stylesheet there is thereby excluded, too.
-/

namespace UtilityCss

universe u

theorem bind_eq_ok_iff {ε α β : Type u} {first : Except ε α} {next : α → Except ε β} {result : β} :
    first >>= next = .ok result ↔ ∃ value, first = .ok value ∧ next value = .ok result := by
  cases first with
  | error error => simp [bind, Except.bind]
  | ok value => simp [bind, Except.bind]

theorem exists_eq_ok_of_any {ε α : Type u} {result : Except ε α} {test : α → Bool}
    (checked : result.toOption.any test = true) :
    ∃ value, result = .ok value ∧ test value = true := by
  cases result with
  | error error => cases checked
  | ok value => exact ⟨value, rfl, checked⟩

theorem exists_eq_ok_of_isSome {ε α : Type u} {result : Except ε α}
    (isSome : result.toOption.isSome = true) : ∃ value, result = .ok value := by
  cases result with
  | error error => cases isSome
  | ok value => exact ⟨value, rfl⟩

namespace Engine

theorem reset_process (engine : Engine) (classList : Text) :
    (engine.process classList).reset = engine.reset := by
  rw [process]
  induction Text.words classList generalizing engine with
  | nil => rfl
  | cons className names ih => exact ih (engine.processName className)

theorem reset_foldl_process (engine : Engine) (lists : List Text) :
    (lists.foldl process engine).reset = engine.reset := by
  induction lists generalizing engine with
  | nil => rfl
  | cons classList lists ih => exact (ih _).trans (engine.reset_process classList)

theorem Reflects.foldl_process {config : Config} {names : List Text} {engine : Engine}
    (reflects : Reflects config names engine) (lists : List Text) :
    Reflects config (names ++ lists.flatMap Text.words)
      (lists.foldl Engine.process engine) := by
  induction lists generalizing names engine with
  | nil => simpa using reflects
  | cons classList lists ih => simpa using ih (reflects.process classList)

end Engine

/-! ## Manifests and sources of changed files -/

theorem Manifest.loadOrStandard_congr {tree other : FileTree} {path : Text}
    (same : other.lookup? path = tree.lookup? path) :
    loadOrStandard other path = loadOrStandard tree path := by
  have sameText : other.readText? path = tree.readText? path := by
    rw [FileTree.readText?, FileTree.readText?, same]
  rw [loadOrStandard, loadOrStandard, load, load, sameText, FileTree.contains, FileTree.contains,
    same]

namespace Discovery

theorem exists_scan_eq_ok {tree : FileTree} {root : Text} {manifest : Manifest} {files : List Text}
    (scanned : scan tree root manifest = .ok files) (other : FileTree) :
    ∃ now, scan other root manifest = .ok now := by
  -- a scan can fail only for a pattern of the manifest, and these patterns have passed before
  simp only [scan, bind_eq_ok_iff] at scanned ⊢
  rcases scanned with ⟨inputs, isInputs, excludes, isExcludes, _⟩
  by_cases present : other.contains root
  · exact ⟨_, inputs, isInputs, excludes, isExcludes, if_pos present⟩
  · exact ⟨_, inputs, isInputs, excludes, isExcludes, if_neg present⟩

theorem run_eq_ok_iff {tree : FileTree} {root manifestPath : Text} {discovery : Discovery} :
    run tree root manifestPath = .ok discovery ↔
      ∃ manifest, Manifest.loadOrStandard tree manifestPath = .ok manifest ∧
        ∃ files, scan tree root manifest = .ok files ∧
          ⟨root, manifest, tree.contains manifestPath, files⟩ = discovery := by
  simp only [run, bind_eq_ok_iff, pure, Except.pure, Except.ok.injEq]

/-- With the manifest as it was, sources are discovered as before, whatever the files are now. -/
theorem exists_run_eq_ok {tree other : FileTree} {root manifestPath : Text} {discovery : Discovery}
    (found : run tree root manifestPath = .ok discovery)
    (same : other.lookup? manifestPath = tree.lookup? manifestPath) :
    ∃ now, run other root manifestPath = .ok now ∧ now.manifest = discovery.manifest := by
  rcases run_eq_ok_iff.mp found with ⟨manifest, loaded, files, scanned, rfl⟩
  rcases exists_scan_eq_ok scanned other with ⟨others, scannedNow⟩
  rw [← Manifest.loadOrStandard_congr same] at loaded
  exact ⟨_, run_eq_ok_iff.mpr ⟨manifest, loaded, others, scannedNow, rfl⟩, rfl⟩

end Discovery

namespace Project

theorem load_eq_ok_iff {tree : FileTree} {arguments : ProjectArguments} {project : Project} :
    load tree arguments = .ok project ↔
      ∃ discovery,
        Discovery.run tree arguments.root
          (arguments.manifestPath.getD (Discovery.defaultManifestPath arguments.root)) =
            .ok discovery ∧
        ∃ engine, discovery.engine = .ok engine ∧
          ⟨arguments.root,
            arguments.manifestPath.getD (Discovery.defaultManifestPath arguments.root),
            arguments.output, discovery, engine⟩ = project := by
  simp only [load, bind_eq_ok_iff, pure, Except.pure, Except.ok.injEq]

/-- Two projects that differ at most in their sources and in what their engines collected. -/
structure IsAlike (first second : Project) : Prop where
  root : first.root = second.root
  manifestPath : first.manifestPath = second.manifestPath
  outputOverride : first.outputOverride = second.outputOverride
  engine : first.engine.reset = second.engine.reset

theorem IsAlike.refl (project : Project) : project.IsAlike project :=
  ⟨rfl, rfl, rfl, rfl⟩

theorem reset_freshEngine (project : Project) :
    project.freshEngine.reset = project.engine.reset :=
  Engine.reset_process ..

/-- The rules that an engine collected before do not matter to a build. -/
theorem IsAlike.build_eq {first second : Project} (alike : first.IsAlike second)
    (discovery : first.discovery = second.discovery) (tree : FileTree) :
    first.build tree = second.build tree := by
  rcases first with ⟨root, manifestPath, outputOverride, found, engine⟩
  rcases second with ⟨other, otherPath, otherOverride, otherFound, otherEngine⟩
  rcases alike with ⟨rfl, rfl, rfl, sameReset⟩
  have sameFound : found = otherFound := discovery
  have sameEngine : engine.reset = otherEngine.reset := sameReset
  subst sameFound
  simp only [build, freshEngine, sameEngine]

/-- A build changes nothing in a project but what the engine collected, be it successful or not. -/
theorem isAlike_build (project : Project) (tree : FileTree) :
    (project.build tree).project.IsAlike project := by
  rw [build]
  split
  · exact ⟨rfl, rfl, rfl, project.reset_freshEngine⟩
  · rename_i lists _
    refine ⟨rfl, rfl, rfl, ?_⟩
    exact (Engine.reset_foldl_process project.freshEngine lists).trans project.reset_freshEngine

theorem rescan_eq_ok_iff {project rescanned : Project} {tree : FileTree} :
    project.rescan tree = .ok rescanned ↔
      ∃ discovery, Discovery.run tree project.root project.manifestPath = .ok discovery ∧
        rescanned = { project with discovery } := by
  rw [rescan]
  cases Discovery.run tree project.root project.manifestPath with
  | error error => simp [Except.map]
  | ok discovery => simp [Except.map, eq_comm]

/-- What can happen to a project and its files. -/
inductive Event where
  | edit (change : FileTree → FileTree)
  | rescan
  | build

/-- A project and the files that it stands among. -/
structure Site where
  project : Project
  tree : FileTree

namespace Site

/-- A rescan that fails leaves the project as it was; a build that fails leaves what it has done. -/
def after (site : Site) : Event → Site
  | .edit change => { site with tree := change site.tree }
  | .rescan =>
    match site.project.rescan site.tree with
    | .ok project => { site with project }
    | .error _ => site
  | .build =>
    let step := site.project.build site.tree
    ⟨step.project, step.tree⟩

def run (site : Site) (events : List Event) : Site :=
  events.foldl after site

theorem isAlike_after {loaded : Project} {site : Site} (alike : site.project.IsAlike loaded)
    (event : Event) : (site.after event).project.IsAlike loaded := by
  cases event with
  | edit change => exact alike
  | rescan =>
      rw [after]
      split
      · rename_i project rescanned
        rcases rescan_eq_ok_iff.mp rescanned with ⟨discovery, _, rfl⟩
        exact ⟨alike.root, alike.manifestPath, alike.outputOverride, alike.engine⟩
      · exact alike
  | build =>
      have built := site.project.isAlike_build site.tree
      exact ⟨built.root.trans alike.root, built.manifestPath.trans alike.manifestPath,
        built.outputOverride.trans alike.outputOverride, built.engine.trans alike.engine⟩

theorem isAlike_run {loaded : Project} {site : Site} (alike : site.project.IsAlike loaded)
    (events : List Event) : (site.run events).project.IsAlike loaded := by
  induction events generalizing site with
  | nil => exact alike
  | cons event events ih => exact ih (isAlike_after alike event)

end Site

/-- When the sources can be read, a build leaves in the engine what the reserved classes and the
class lists stand for, whatever the engine held before. -/
theorem reflects_build {project : Project} {tree : FileTree} {config : Config} {before : List Text}
    (reflects : Engine.Reflects config before project.engine) {lists : List Text}
    (read : project.discovery.classLists tree = .ok lists) :
    Engine.Reflects config (config.reservedNames ++ lists.flatMap Text.words)
      (project.build tree).project.engine := by
  have fresh : Engine.Reflects config config.reservedNames project.freshEngine :=
    reflects.reset.processReserved
  rw [build, read]
  exact fresh.foldl_process lists

/-- After any history of a loaded project that leaves the manifest as it was at first, a rescan
succeeds and loading the project anew does, and both projects build the same: the outcome, the
project with its rules and reports, and the files. Then the engine holds what the reserved classes
and the class lists of the sources make of the configuration, and nothing from before. -/
theorem build_rescan_eq_build_load {tree : FileTree} {arguments : ProjectArguments}
    {project : Project} (loaded : load tree arguments = .ok project) (events : List Event)
    (sameManifest : (Site.run ⟨project, tree⟩ events).tree.lookup? project.manifestPath =
      tree.lookup? project.manifestPath) :
    let site := Site.run ⟨project, tree⟩ events
    ∃ rescanned fresh, site.project.rescan site.tree = .ok rescanned ∧
      load site.tree arguments = .ok fresh ∧
      rescanned.build site.tree = fresh.build site.tree ∧
      ∀ lists, fresh.discovery.classLists site.tree = .ok lists →
        let config := fresh.discovery.manifest.config
        let names := config.reservedNames ++ lists.flatMap Text.words
        let built := (rescanned.build site.tree).project.engine
        built.styles.listing = (config.styled names).eraseDups.map (fun className =>
            (config.keyOf className, (config.declarationsOf className).eraseDups)) ∧
          built.diagnostics = names.flatMap config.warningsOf := by
  intro site
  have alike : site.project.IsAlike project := Site.isAlike_run (.refl project) events
  rcases load_eq_ok_iff.mp loaded with ⟨discovery, found, engine, started, rfl⟩
  rcases Discovery.exists_run_eq_ok found sameManifest with ⟨now, foundNow, manifest⟩
  have startedNow : now.engine = .ok engine := by
    rw [Discovery.engine, manifest]
    exact started
  have rescanned := rescan_eq_ok_iff.mpr ⟨now, by rwa [alike.root, alike.manifestPath], rfl⟩
  have freshLoad := load_eq_ok_iff.mpr ⟨now, foundNow, engine, startedNow, rfl⟩
  -- a build drops the only thing in which the two projects may differ
  have alikeNow : { site.project with discovery := now }.IsAlike
      ⟨arguments.root, _, arguments.output, now, engine⟩ :=
    ⟨alike.root, alike.manifestPath, alike.outputOverride, alike.engine⟩
  have sameBuild := alikeNow.build_eq rfl site.tree
  refine ⟨_, _, rescanned, freshLoad, sameBuild, ?_⟩
  intro lists read config names built
  have ofEngine : Engine.Reflects config config.reservedNames engine :=
    Engine.reflects_of_start startedNow
  have reflects : Engine.Reflects config names built := by
    rw [show built = _ from congrArg (·.project.engine) sameBuild]
    exact reflects_build ofEngine read
  exact ⟨reflects.listing_eq, reflects.diagnostics_eq⟩

/-- A source is removed after a build, so that the next build fails; another one is written then.
The class of the removed source leaves no rule. -/
theorem build_rescan_eq_build_load_sample :
    let manifest := "property: \x7bp: padding\x7d".toList
    let tree := (FileTree.empty.plant "atomcss.yaml".toList (.file (.text manifest))).plant
      "a.html".toList (.file (.text "<i class='p-1px'>".toList))
    let events : List Event := [.build, .edit (·.uproot "a.html".toList), .build,
      .edit (·.plant "b.html".toList (.file (.text "<i class='p-2px'>".toList)))]
    ∃ project rescanned fresh, load tree {} = .ok project ∧
      let site := Site.run ⟨project, tree⟩ events
      let step := rescanned.build site.tree
      (site.project.build site.tree).outcome.isOk = false ∧
        site.project.rescan site.tree = .ok rescanned ∧
        load site.tree {} = .ok fresh ∧ step = fresh.build site.tree ∧
        step.outcome.toOption = some ⟨1, 1, 0⟩ ∧
        step.project.engine.styles.listing =
          [(.plain "p-2px".toList, [⟨"padding".toList, "2px".toList⟩])] := by
  intro manifest tree events
  have checked : (load tree {}).toOption.any (fun project =>
      let site := Site.run ⟨project, tree⟩ events
      site.tree.lookup? project.manifestPath = tree.lookup? project.manifestPath &&
        !(site.project.build site.tree).outcome.isOk &&
        (site.project.rescan site.tree).toOption.any fun rescanned =>
          let step := rescanned.build site.tree
          step.outcome.toOption = some ⟨1, 1, 0⟩ &&
            step.project.engine.styles.listing =
              [(.plain "p-2px".toList, [⟨"padding".toList, "2px".toList⟩])]) = true := by
    decide +kernel
  cases loaded : load tree {} with
  | error error => simp [loaded, Except.toOption] at checked
  | ok project =>
      rw [loaded] at checked
      simp only [Except.toOption, Option.any_some, Bool.and_eq_true, decide_eq_true_eq] at checked
      rcases checked with ⟨⟨sameManifest, fails⟩, evaluated⟩
      rcases build_rescan_eq_build_load loaded events sameManifest with
        ⟨rescanned, fresh, isRescan, isLoad, sameBuild, _⟩
      rw [isRescan] at evaluated
      simp only [Option.any_some, Bool.and_eq_true, decide_eq_true_eq] at evaluated
      exact ⟨project, rescanned, fresh, rfl, by simpa using fails, isRescan, isLoad, sameBuild,
        of_decide_eq_true evaluated.1, evaluated.2⟩

end Project

end UtilityCss
