import UtilityCss.CommandLine.Arguments
import UtilityCss.CommandLine.Starter
import UtilityCss.Report.Printer

/-!
# Running commands

A command turns the files into new files, and reports what it did. Only the stylesheet of a check
goes to the standard output; status lines go to the standard error output.
-/

namespace UtilityCss

namespace CommandLine

/-- What a command leaves behind. -/
structure Outcome where
  failure : Option Error
  stdout : Text
  stderr : Text
  tree : FileTree

namespace Outcome

/-- A failure that comes after some status lines. -/
def failed (error : Error) (stderr : Text) (tree : FileTree) : Outcome :=
  ⟨some error, [], stderr, tree⟩

end Outcome

def generatedLine (summary : BuildSummary) (output : Text) : Text :=
  Printer.line "Generated".toList
    (Printer.plural summary.rules "rule".toList "rules".toList ++ " from ".toList ++
      Printer.plural summary.files "file".toList "files".toList ++ " -> ".toList ++ output)

/-- Builds a project once. To go on with every change is left to whoever sees the changes. -/
def runBuild (arguments : ProjectArguments) (tree : FileTree) : Outcome :=
  let scanning := Printer.line "Scanning".toList arguments.root
  match Project.load tree arguments with
  | .error error => .failed error scanning tree
  | .ok project =>
    let loaded := scanning ++ Printer.report project.engine.warnings
    let step := project.build tree
    match step.outcome with
    | .error error => .failed error loaded step.tree
    | .ok summary =>
      let built := loaded ++ Printer.report step.project.engine.diagnostics
      ⟨none, [], built ++ generatedLine summary step.project.outputPath, step.tree⟩

/-- The engine of a check: the manifest's engine with nothing but the rules of the given classes. -/
def checkEngine (classes : List Text) (manifestPath : Text) (tree : FileTree) :
    Except Error Engine := do
  let manifest ← Manifest.loadOrStandard tree manifestPath
  let engine ← Engine.start manifest.config
  return engine.reset.process (Text.join [' '] classes)

/-- Writes the rules of class names to the standard output. -/
def runCheck (classes : List Text) (manifestPath : Text) (tree : FileTree) : Outcome :=
  match checkEngine classes manifestPath tree with
  | .error error => .failed error [] tree
  | .ok engine =>
    let css := engine.stylesheet
    let nothing :=
      if css.isEmpty then
        Printer.line Severity.warning.label "no class name produced a rule".toList
      else
        []
    ⟨none, css, Printer.report engine.diagnostics ++ nothing, tree⟩

/-- Writes a starter manifest; an existing one is only overwritten by force. -/
def runInit (root : Text) (force : Bool) (tree : FileTree) : Outcome :=
  let path := Discovery.defaultManifestPath root
  if tree.contains path && !force then
    .failed .manifestExists [] tree
  else
    match tree.writeText? path starterManifest with
    | none => .failed (.unwritable .manifest path) [] tree
    | some written => ⟨none, [], Printer.line "Created".toList path, written⟩

/-- Runs a command on the files below the working directory. -/
def Command.run : Command → FileTree → Outcome
  | build arguments _ => runBuild arguments
  | check classes manifestPath => runCheck classes manifestPath
  | init root force => runInit root force

end CommandLine

end UtilityCss
