import UtilityCss.CommandLine.Run

/-!
# The program

The program reads the files below the working directory, and what its arguments name elsewhere, into
a tree, runs the command that the arguments ask for, writes what the command changed, and prints
what it reports. A failure ends with code 1, and arguments that ask for no command with code 2. All
decisions are the command's.
-/

namespace UtilityCss

namespace Program

def usage : String :=
  "Usage: atomcss [-v] build [-c FILE] [-o FILE] [-w] [PATH]\n" ++
  "       atomcss [-v] check [-c FILE] CLASS...\n" ++
  "       atomcss [-v] init [--force] [PATH]\n"

/-- The deepest nesting of directories that is read. -/
def depthLimit : Nat := 255

def pathOf (place : Place) : String :=
  "/" ++ String.ofList (Text.join ['/'] place)

/-- A place as an entry of the root directory. -/
def rootEntryOf (place : Place) : IO.FS.DirEntry :=
  ⟨"/", String.ofList (Text.join ['/'] place)⟩

/-- Reads what stands at a place, and all that lies below it, into a tree. A file that cannot be
read counts as one without text. -/
def readPlace : (depth : Nat) → FileTree → Place → IO FileTree
  | 0, tree, _ => return tree
  | depth + 1, tree, place => do
    let path := (rootEntryOf place).path
    if ← path.isDir then
      let names := (← path.readDir).map fun entry => entry.fileName.toList
      names.foldlM (fun read name => readPlace depth read (place ++ [name]))
        (tree.makeWay [] place).1
    else if ← path.pathExists then
      let content ←
        try
          pure (Content.ofBytes (← IO.FS.readBinFile path))
        catch _ =>
          pure (Content.binary [])
      return (tree.makeWay [] place.dropLast).1.put place (.file content)
    else
      return tree

/-- The paths that a command is given. -/
def pathsOf : CommandLine.Command → List Text
  | .build arguments _ =>
    arguments.root :: (arguments.manifestPath.toList ++ arguments.output.toList)
  | .check _ manifestPath => [manifestPath]
  | .init root _ => [root]

/-- Reads the working directory, and the places elsewhere that paths lead to. -/
def readTree (paths : List Text) : IO FileTree := do
  let home := Path.names (← IO.currentDir).toString.toList
  let elsewhere := (paths.filterMap (Path.target? home)).filter (!home.isPrefixOf ·)
  (home :: elsewhere).foldlM (readPlace depthLimit) (.ofHome home)

/-- Makes the directories and writes the text files by which the second tree differs. -/
def writeChanges (before after : FileTree) : IO Unit := do
  for (place, entry) in after.entries do
    if entry == .directory && !before.isDirectoryAt place then
      IO.FS.createDirAll (pathOf place)
  for (place, content) in before.textsNewIn after do
    IO.FS.writeFile (pathOf place) (String.ofList content)

def failureDiagnostic (error : Error) : Diagnostic where
  severity := .error
  code := error.family.code
  message := error.message
  help := error.help

def run (command : CommandLine.Command) : IO UInt32 := do
  let before ← readTree (pathsOf command)
  let outcome := command.run before
  writeChanges before outcome.tree
  IO.print (String.ofList outcome.stdout)
  IO.eprint (String.ofList outcome.stderr)
  match outcome.failure with
  | none => return 0
  | some error =>
    IO.eprint (String.ofList (Printer.diagnosticLines (failureDiagnostic error)))
    return 1

end Program

end UtilityCss

/-- Runs the command that the arguments ask for. -/
def main (arguments : List String) : IO UInt32 := do
  match UtilityCss.CommandLine.Command.read? (arguments.map String.toList) with
  | some command => UtilityCss.Program.run command
  | none =>
    IO.eprint UtilityCss.Program.usage
    return 2
