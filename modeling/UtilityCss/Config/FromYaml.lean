import UtilityCss.Config.FromDatum
import UtilityCss.Yaml.Reading

/-!
# Configurations from YAML

A configuration is a YAML mapping of its fields. Names, aliases and class lists are taken as text,
whatever they would mean; literals and property entries are read as data first. Unknown fields are
left unread. A blank document is the empty configuration.
-/

namespace UtilityCss

namespace Yaml

/-- The deepest nesting of collections that are read. -/
def depthLimit : Nat := 128

namespace Read

/-- A literal value below `levels` collections. -/
def literal (levels : Nat) (node : Node) : Read Text := do
  expect (← datum (depthLimit - levels) node).asLiteral?

/-- A property entry, which stands below two collections. -/
def entry (node : Node) : Read PropertyEntry := do
  expect (← datum (depthLimit - 2) node).asProperty?

def breakpoint (node : Node) : Read Breakpoint := do
  let known ← fields ["name".toList, "min".toList, "max".toList] (← entries node)
  let name ← field none text "name".toList known
  let min ← field (some none) width "min".toList known
  let max ← field (some none) width "max".toList known
  return ⟨name, min, max⟩

def breakpoints (node : Node) : Read (List Breakpoint) := do
  (← items node).mapM breakpoint

def config (node : Node) : Read Config := do
  let known ← fields Config.fieldNames (← entries node)
  let property ← field (some ∅) (mapping entry) "property".toList known
  let values ← field (some ∅) (mapping (literal 2)) "values".toList known
  let classes ← field (some ∅) (mapping (mapping (literal 3))) "classes".toList known
  let aliases ← field (some ∅) (mapping text) "aliases".toList known
  let breakpoints ← field (some []) breakpoints "breakpoints".toList known
  let reserved ← field (some []) texts "reserveClass".toList known
  return { property, values, classes, aliases, breakpoints, reserved }

end Read

end Yaml

namespace Config

/-- Reads a configuration from the text of a YAML document. -/
def readYaml (text : Text) : Yaml.Outcome Config :=
  if text.all isBlank then .ok empty else Yaml.Document.readWith Yaml.Read.config text

end Config

end UtilityCss
