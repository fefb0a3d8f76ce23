import UtilityCss.ClassName.Grammar
import UtilityCss.Expansion.Shorthand

/-!
# Semantic classes and aliases

A semantic class takes one declaration from each property group that gives it a value. An alias
stands for the declarations of all class names in its body; these are read by the grammar only, so
an alias inside a body is not expanded, and scopes inside a body have no effect.
-/

namespace UtilityCss

namespace Config

/-- The declarations of a semantic class, one for each group that knows it, in group order. -/
def classDeclarations (config : Config) (name : Text) : List Declaration :=
  config.classes.entries.filterMap fun (group, names) =>
    (names.get? name).map fun value => ⟨PropertyName.kebabCase group, value⟩

/-- The declarations of a semantic class that some group knows. -/
def customClass? (config : Config) (name : Text) : Option (List Declaration) :=
  match config.classDeclarations name with
  | [] => none
  | declarations => some declarations

end Config

/-- A class name that could not be resolved, and why. -/
structure Skip where
  name : Text
  cause : UnknownValue
  deriving DecidableEq

/-- What an alias stands for: the declarations of its body, and the names in it that failed. -/
structure Expansion where
  declarations : List Declaration
  skipped : List Skip
  deriving DecidableEq

namespace Expansion

/-- The expansion of a body without class names. -/
def empty : Expansion :=
  ⟨[], []⟩

def append (first second : Expansion) : Expansion :=
  ⟨first.declarations ++ second.declarations, first.skipped ++ second.skipped⟩

/-- What one class name stands for as a shorthand class; a name that the grammar refuses, or whose
type is unknown, stands for nothing. -/
def ofShorthand (config : Config) (grammar : Grammar) (name : Text) : Expansion :=
  match grammar.read? name with
  | none => empty
  | some token =>
    match Shorthand.resolve config token with
    | .ok (some shorthand) => ⟨shorthand.declarations, []⟩
    | .ok none => empty
    | .error cause => ⟨[], [⟨name, cause⟩]⟩

/-- What the class names of a body stand for, one after another. -/
def ofNames (config : Config) (grammar : Grammar) (names : List Text) : Expansion :=
  names.foldr (fun name rest => (ofShorthand config grammar name).append rest) empty

end Expansion

namespace Config

/-- What an alias stands for. -/
def alias? (config : Config) (grammar : Grammar) (name : Text) : Option Expansion :=
  (config.aliases.get? name).map fun body =>
    Expansion.ofNames config grammar (Text.words body)

end Config

end UtilityCss
