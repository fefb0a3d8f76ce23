import UtilityCss.Project.Discovery

/-!
# Projects

A project keeps what was discovered at its root and one engine. A build starts from an engine
without rules, processes the reserved classes and then the class lists of the sources, and writes
the stylesheet. A rescan discovers the sources anew and keeps the engine.
-/

namespace UtilityCss

/-- What a project is loaded with. -/
structure ProjectArguments where
  root : Text := ['.']
  manifestPath : Option Text := none
  output : Option Text := none

/-- A loaded project. -/
structure Project where
  root : Text
  manifestPath : Text
  outputOverride : Option Text
  discovery : Discovery
  engine : Engine

/-- The counts of a build. -/
structure BuildSummary where
  files : Nat
  rules : Nat
  skipped : Nat
  deriving DecidableEq

namespace Project

/-- Loads a project: discovers its sources and starts its engine. -/
def load (tree : FileTree) (arguments : ProjectArguments) : Except Error Project := do
  let manifestPath :=
    arguments.manifestPath.getD (Discovery.defaultManifestPath arguments.root)
  let discovery ← Discovery.run tree arguments.root manifestPath
  let engine ← discovery.engine
  return ⟨arguments.root, manifestPath, arguments.output, discovery, engine⟩

/-- Where the stylesheet is written: the override, else the path of the manifest. -/
def outputPath (project : Project) : Text :=
  project.outputOverride.getD project.discovery.outputPath

/-- Discovers the sources anew, and keeps the engine. -/
def rescan (project : Project) (tree : FileTree) : Except Error Project :=
  (Discovery.run tree project.root project.manifestPath).map fun discovery =>
    { project with discovery }

/-- The engine of a project before a build: without rules but those of the reserved classes. -/
def freshEngine (project : Project) : Engine :=
  project.engine.reset.processReserved

/-- The outcome of a step that changes the project and the files, whether it succeeds or not. -/
structure Step (α : Type) where
  outcome : Except Error α
  project : Project
  tree : FileTree

/-- Makes the directory of an output file, unless it is the working directory. -/
def makeParent (tree : FileTree) (path : Text) : Except Error Unit × FileTree :=
  match Path.parent? path with
  | none => (.ok (), tree)
  | some parent =>
    if parent.isEmpty then
      (.ok (), tree)
    else
      match tree.makeDirectories parent with
      | (made, true) => (.ok (), made)
      | (made, false) => (.error (.unwritable .outputDirectory parent), made)

/-- Writes a stylesheet, with the directories on the way to it. -/
def writeStylesheet (tree : FileTree) (path css : Text) : Except Error Unit × FileTree :=
  match makeParent tree path with
  | (.error error, made) => (.error error, made)
  | (.ok (), made) =>
    match made.writeText? path css with
    | some written => (.ok (), written)
    | none => (.error (.unwritable .stylesheet path), made)

/-- The counts of a project whose engine holds the rules of a build. -/
def summary (project : Project) : BuildSummary where
  files := project.discovery.files.length
  rules := project.engine.ruleCount
  skipped := project.engine.diagnostics.length

/-- Builds the stylesheet from scratch and writes it. -/
def build (project : Project) (tree : FileTree) : Step BuildSummary :=
  match project.discovery.classLists tree with
  | .error error => ⟨.error error, { project with engine := project.freshEngine }, tree⟩
  | .ok lists =>
    let built := { project with engine := lists.foldl Engine.process project.freshEngine }
    let (outcome, written) := writeStylesheet tree built.outputPath built.engine.stylesheet
    ⟨outcome.map fun _ => built.summary, built, written⟩

end Project

end UtilityCss
