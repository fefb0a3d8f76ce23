import UtilityCss.Expansion.Basic
import UtilityCss.Style.Store

/-!
# Resolution of class names

A class name may carry a scope in front of a colon. What stands behind the scope is tried as an
alias and then as a semantic class; else the grammar reads the whole name. The outcome depends on
the configuration and the name alone, never on what was resolved before.
-/

namespace UtilityCss

/-- What a class name stands for: its scope, its declarations and the names that failed. A class
name that stands for nothing has no declarations and no failures. -/
structure Resolution where
  scope : Option Text
  expansion : Expansion
  deriving DecidableEq

namespace Resolution

/-- A class name cut into its scope and the rest. -/
def splitScope (className : Text) : Option Text × Text :=
  match Grammar.splitScope? className with
  | some (scope, bare) => (some scope, bare)
  | none => (none, className)

/-- Names a failure inside an alias by the name in the body and the alias. -/
def labelInAlias (aliasName : Text) (skip : Skip) : Skip :=
  { skip with name := skip.name ++ " (in alias ".toList ++ Text.quoted aliasName ++ ")".toList }

/-- What a class name stands for when it is neither an alias nor a semantic class. -/
def ofShorthand (config : Config) (grammar : Grammar) (className : Text) : Resolution where
  scope := (grammar.read? className).bind ClassToken.scope
  expansion := Expansion.ofShorthand config grammar className

/-- What a class name stands for. -/
def ofName (config : Config) (grammar : Grammar) (className : Text) : Resolution :=
  let (scope, bare) := splitScope className
  match config.alias? grammar bare with
  | some expansion =>
    ⟨scope, { expansion with skipped := expansion.skipped.map (labelInAlias bare) }⟩
  | none =>
    match config.customClass? bare with
    | some declarations => ⟨scope, ⟨declarations, []⟩⟩
    | none => ofShorthand config grammar className

end Resolution

/-- The key under which the declarations of a class are collected: a scope that names a breakpoint
puts the rule into the media query of that breakpoint; any other scope is a pseudo-class. -/
def Config.ruleKey (config : Config) (className : Text) (scope : Option Text) : RuleKey :=
  match scope.bind config.breakpoint? with
  | some breakpoint => .ofMedia breakpoint.mediaCondition className
  | none => .ofClass className scope

end UtilityCss
