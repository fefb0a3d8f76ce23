import UtilityCss.Config.FromJson
import UtilityCss.Files.Tree
import UtilityCss.Manifest.Basic
import UtilityCss.Report.Error

/-!
# Documents in files

Configurations and manifests are read from the text of a document or from a file. A configuration
file is JSON when its extension says so and YAML otherwise.
-/

namespace UtilityCss

namespace Config

def parseYaml (text : Text) : Except Error Config :=
  match readYaml text with
  | .ok config => .ok config
  | .error _ => .error (.malformed .yamlConfig)

def parseJson (text : Text) : Except Error Config :=
  match readJson? text with
  | some config => .ok config
  | none => .error (.malformed .jsonConfig)

def load (tree : FileTree) (path : Text) : Except Error Config :=
  match tree.readText? path with
  | none => .error (.unreadable .config path)
  | some text =>
    if Path.extension? path = some "json".toList then parseJson text else parseYaml text

end Config

namespace Manifest

def parse (text : Text) : Except Error Manifest :=
  match readYaml text with
  | .ok manifest => .ok manifest
  | .error _ => .error (.malformed .manifest)

def load (tree : FileTree) (path : Text) : Except Error Manifest :=
  match tree.readText? path with
  | none => .error (.unreadable .manifest path)
  | some text => parse text

/-- Reads a manifest file if there is one; without it the standard manifest holds. -/
def loadOrStandard (tree : FileTree) (path : Text) : Except Error Manifest :=
  if tree.contains path then load tree path else .ok standard

end Manifest

end UtilityCss
