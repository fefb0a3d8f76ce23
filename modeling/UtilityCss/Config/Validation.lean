import UtilityCss.Config.Basic
import UtilityCss.Report.Diagnostic

/-!
# Validation of configurations

A configuration is checked once, before an engine is built from it. The findings come in four
groups: type tokens, templates, breakpoints, aliases, and within a group in the order of the
configuration. Some findings make the configuration unusable; the others warn of entries that have
no effect.
-/

namespace UtilityCss

/-- What can be wrong with a configuration. -/
inductive Finding where
  | emptyType
  | invalidType (token : Text)
  | emptyTemplate (token : Text)
  | constantTemplate (token : Text)
  | duplicateBreakpoint (name : Text)
  | unboundedBreakpoint (name : Text)
  | emptyBreakpoint (name : Text) (min max : UInt32)
  | emptyAlias (name : Text)
  | shadowedClass (name : Text)
  | nestedAlias (name used : Text)
  deriving DecidableEq

namespace Finding

/-- The findings that make a configuration unusable are errors. -/
def severity : Finding → Severity
  | emptyType | invalidType _ | emptyTemplate _ | unboundedBreakpoint _ => .error
  | _ => .warning

def codeName : Finding → Text
  | emptyType => "empty-type".toList
  | invalidType _ => "invalid-type".toList
  | emptyTemplate _ => "empty-template".toList
  | constantTemplate _ => "constant-template".toList
  | duplicateBreakpoint _ => "duplicate-breakpoint".toList
  | unboundedBreakpoint _ => "unbounded-breakpoint".toList
  | emptyBreakpoint .. => "empty-breakpoint".toList
  | emptyAlias _ => "empty-alias".toList
  | shadowedClass _ => "alias-shadows-class".toList
  | nestedAlias .. => "nested-alias".toList

/-- What a finding says. -/
def message : Finding → Text
  | emptyType => "Empty type token in `property`".toList
  | invalidType token =>
    "Type token ".toList ++ Text.quoted token ++
      " contains whitespace or one of `: [ ] /`".toList
  | emptyTemplate token =>
    "Templated property ".toList ++ Text.quoted token ++ " lists no CSS properties".toList
  | constantTemplate token =>
    "Template for ".toList ++ Text.quoted token ++ " never uses the class value".toList
  | duplicateBreakpoint name =>
    "Breakpoint ".toList ++ Text.quoted name ++
      " is defined more than once; the first wins".toList
  | unboundedBreakpoint name =>
    "Breakpoint ".toList ++ Text.quoted name ++ " has neither `min` nor `max`".toList
  | emptyBreakpoint name min max =>
    "Breakpoint ".toList ++ Text.quoted name ++ " has min ".toList ++ Text.ofNat min.toNat ++
      "px above max ".toList ++ Text.ofNat max.toNat ++ "px and never matches".toList
  | emptyAlias name => "Alias ".toList ++ Text.quoted name ++ " has an empty body".toList
  | shadowedClass name =>
    "Alias ".toList ++ Text.quoted name ++ " shadows a custom class of the same name".toList
  | nestedAlias name used =>
    "Alias ".toList ++ Text.quoted name ++ " references ".toList ++ Text.quoted used ++
      ", which is not expanded inside aliases".toList

def help : Finding → Option Text
  | emptyType => some "Give every property entry a non-empty key".toList
  | invalidType _ =>
    some "Type tokens are matched literally at the start of a class name".toList
  | emptyTemplate _ => some "Add at least one name to `property`".toList
  | constantTemplate _ =>
    some "Use \x7b0\x7d for the value and \x7b1\x7d for the value after `/`".toList
  | unboundedBreakpoint _ => some "Set `min`, `max`, or both (in pixels)".toList
  | nestedAlias .. => some "List the shorthand classes directly in the alias body".toList
  | _ => none

def diagnostic (finding : Finding) : Diagnostic where
  severity := finding.severity
  code := "atomcss::config::".toList ++ finding.codeName
  message := finding.message
  help := finding.help

end Finding

namespace Config

/-- The characters that no type token may hold, blank characters aside. -/
def reservedTypeChars : List Char :=
  [':', '[', ']', '/']

def typeFindings (token : Text) : List Finding :=
  if token.isEmpty then
    [.emptyType]
  else if token.any fun c => isBlank c || reservedTypeChars.contains c then
    [.invalidType token]
  else
    []

/-- What is wrong with the template of an entry. -/
def templateFindings : Text × PropertyEntry → List Finding
  | (_, .simple _) => []
  | (token, .templated properties template) =>
    (if properties.isEmpty then [.emptyTemplate token] else []) ++
      (if Text.occursIn ['{', '0', '}'] template then [] else [.constantTemplate token])

/-- What is wrong with the bounds of a breakpoint. -/
def boundFindings (breakpoint : Breakpoint) : List Finding :=
  match breakpoint.min, breakpoint.max with
  | none, none => [.unboundedBreakpoint breakpoint.name]
  | some min, some max => if max < min then [.emptyBreakpoint breakpoint.name min max] else []
  | _, _ => []

/-- What is wrong with breakpoints that come after breakpoints of the names in `seen`. -/
def breakpointFindings (seen : List Text) : List Breakpoint → List Finding
  | [] => []
  | breakpoint :: rest =>
    (if seen.contains breakpoint.name then [.duplicateBreakpoint breakpoint.name] else []) ++
      boundFindings breakpoint ++ breakpointFindings (breakpoint.name :: seen) rest

/-- Whether some property group gives a class of that name a value. -/
def namesClass (config : Config) (name : Text) : Bool :=
  config.classes.values.any fun names => names.contains name

/-- Whether a class name is itself an alias or a semantic class. -/
def namesAliasOrClass (config : Config) (name : Text) : Bool :=
  config.aliases.contains name || config.namesClass name

def aliasFindings (config : Config) : Text × Text → List Finding
  | (name, body) =>
    (if Text.isAllBlank body then [.emptyAlias name] else []) ++
      (if config.namesClass name then [.shadowedClass name] else []) ++
      ((Text.words body).filter config.namesAliasOrClass).map (.nestedAlias name)

/-- All findings about a configuration, in order. -/
def findings (config : Config) : List Finding :=
  config.property.keys.flatMap typeFindings ++
    config.property.entries.flatMap templateFindings ++
    breakpointFindings [] config.breakpoints ++
    config.aliases.entries.flatMap config.aliasFindings

def validate (config : Config) : Diagnostics :=
  config.findings.map Finding.diagnostic

end Config

end UtilityCss
