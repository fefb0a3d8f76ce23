import UtilityCss.Config.FromYaml
import UtilityCss.Files.Path

/-!
# Manifests

A manifest is the document of a project: which files to scan, where to write the stylesheet, and the
configuration, whose fields stand beside the settings. The settings are read as they are expected;
everything else is read as data first, whether it is known or not, and the configuration from these
data.
-/

namespace UtilityCss

/-- The settings of a project and its configuration. -/
structure Manifest where
  input : List Text := ["**/*.html".toList]
  output : Text := "dist/styles.css".toList
  excludes : List Text := []
  config : Config := .empty

namespace Manifest

instance : Inhabited Manifest := ⟨{}⟩

/-- The manifest of a project that has none. -/
def standard : Manifest where

/-- Where the stylesheet of the project at `root` is written. -/
def outputPath (manifest : Manifest) (root : Text) : Text :=
  Path.join root manifest.output

def settingNames : List Text :=
  ["input".toList, "output".toList, "excludes".toList]

/-- Reads the entries beside the settings as data; a field of the configuration may be given once.
-/
def readData (entries : List (Text × Yaml.Node)) : Yaml.Read (List (Text × Datum)) := do
  let data ← entries.mapM fun (name, node) => do
    return (name, ← Yaml.Read.datum (Yaml.depthLimit - 1) node)
  let known := data.filter fun (name, _) => Config.fieldNames.contains name
  if (known.map Prod.fst).Nodup then return known else Yaml.Read.fail .unexpectedShape

/-- Reads a manifest from the root of its document. -/
def ofNode (root : Yaml.Node) : Yaml.Read Manifest := do
  let keyed ← (← Yaml.Read.entries root).mapM fun (key, node) => do
    return (← Yaml.Read.text key, node)
  let settings := keyed.filter fun (name, _) => settingNames.contains name
  unless (settings.map Prod.fst).Nodup do Yaml.Read.fail .unexpectedShape
  let input ← Yaml.Read.field (some standard.input) Yaml.Read.texts "input".toList settings
  let output ← Yaml.Read.field (some standard.output) Yaml.Read.text "output".toList settings
  let excludes ← Yaml.Read.field (some []) Yaml.Read.texts "excludes".toList settings
  let data ← readData (keyed.filter fun (name, _) => !settingNames.contains name)
  let config ← Yaml.Read.expect (Config.ofFields? data)
  return { input, output, excludes, config }

/-- Reads a manifest from the text of its document. A blank document is the standard manifest. -/
def readYaml (text : Text) : Yaml.Outcome Manifest :=
  if text.all isBlank then .ok standard else Yaml.Document.readWith ofNode text

end Manifest

end UtilityCss
