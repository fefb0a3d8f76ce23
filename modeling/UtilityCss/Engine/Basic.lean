import UtilityCss.Config.Validation
import UtilityCss.Expansion.Resolution
import UtilityCss.Report.Error
import UtilityCss.Style.Sheet

/-!
# The engine

An engine holds a configuration that validation accepts, the rules collected so far, and reports on
what could not be resolved. Class names go in through `process`; the stylesheet comes out of
`stylesheet`. Starting an engine processes the reserved classes.
-/

namespace UtilityCss

/-- An accepted configuration, the rules collected with it, and the reports. -/
structure Engine where
  config : Config
  grammar : Grammar
  styles : StyleStore
  warnings : Diagnostics
  diagnostics : Diagnostics

namespace Engine

/-- The warning about a class name that could not be resolved. -/
def skipWarning (skip : Skip) : Diagnostic where
  severity := .warning
  code := "atomcss::value::unknown".toList
  message :=
    "Skipped ".toList ++ Text.quoted skip.name ++ ": ".toList ++
      (Error.unknownValue skip.cause.name).message
  help := some ("Register ".toList ++ Text.quoted skip.cause.name ++ " under `values`".toList)

def processName (engine : Engine) (className : Text) : Engine :=
  let resolution := Resolution.ofName engine.config engine.grammar className
  { engine with
    styles := engine.styles.add (engine.config.ruleKey className resolution.scope)
      resolution.expansion.declarations
    diagnostics := engine.diagnostics ++ resolution.expansion.skipped.map skipWarning }

/-- Collects what the class names of a class list stand for, from left to right. -/
def process (engine : Engine) (classList : Text) : Engine :=
  (Text.words classList).foldl processName engine

def processReserved (engine : Engine) : Engine :=
  engine.process (Text.join [' '] engine.config.reserved)

/-- Forgets the collected rules and the reports on class names. -/
def reset (engine : Engine) : Engine :=
  { engine with styles := ∅, diagnostics := [] }

/-- The engine of a configuration before any class name is processed. -/
def fresh (config : Config) : Engine where
  config := config
  grammar := Grammar.ofTypes config.property.keys
  styles := ∅
  warnings := config.validate
  diagnostics := []

/-- Starts an engine, unless validation finds an error. -/
def start (config : Config) : Except Error Engine :=
  if Diagnostics.hasErrors config.validate then
    .error (.invalidConfig (Diagnostics.errors config.validate))
  else
    .ok (fresh config).processReserved

def stylesheet (engine : Engine) : Text :=
  Stylesheet.render engine.styles

def ruleCount (engine : Engine) : Nat :=
  engine.styles.size

end Engine

end UtilityCss
