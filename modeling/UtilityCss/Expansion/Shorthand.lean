import UtilityCss.ClassName.Token
import UtilityCss.Style.PropertyName
import UtilityCss.Expansion.Value
import UtilityCss.Style.Declaration

/-!
# Shorthand classes

A shorthand class writes one value to the properties of its type. A registered type token names its
properties, with a template if it has one; a bracketed type lists properties, each looked up among
the type tokens first and otherwise taken as a property name.
-/

namespace UtilityCss

namespace Template

/-- Writes `filling` for every occurrence of the slot with the given digit. -/
def fillSlot (digit : Char) (filling : Text) : Text → Text
  | '{' :: d :: '}' :: rest =>
    if d = digit then
      filling ++ fillSlot digit filling rest
    else
      '{' :: fillSlot digit filling (d :: '}' :: rest)
  | c :: rest => c :: fillSlot digit filling rest
  | [] => []

/-- Fills slot `0` with the primary and then slot `1` with the secondary value. -/
def fill (template primary secondary : Text) : Text :=
  fillSlot '1' secondary (fillSlot '0' primary template)

end Template

/-- What a shorthand class stands for: its declarations, and the primary value before any template.
-/
structure Shorthand where
  declarations : List Declaration
  value : Text
  deriving DecidableEq

namespace Shorthand

def resolveQuantity (config : Config) (quantity : Quantity) : Except UnknownValue Text :=
  Value.resolve config.values quantity.value quantity.unit

/-- The CSS text of an optional quantity; a missing one is empty. -/
def resolveSecondary (config : Config) : Option Quantity → Except UnknownValue Text
  | some quantity => resolveQuantity config quantity
  | none => .ok []

/-- The items of a bracketed list of properties: trimmed, blank ones dropped. -/
def listedItems (kind : Text) : List Text :=
  ((Text.pieces (· == ',') (Text.inner kind)).map Text.trim).filter fun item => !item.isEmpty

/-- The CSS properties that an item of a bracketed list stands for. -/
def itemProperties (config : Config) (item : Text) : List Text :=
  match config.property.get? item with
  | some entry => entry.propertyNames
  | none => [PropertyName.kebabCase item]

/-- One declaration of the value for each listed property. -/
def listedDeclarations (config : Config) (kind value : Text) : List Declaration :=
  ((listedItems kind).flatMap (itemProperties config)).map fun property => ⟨property, value⟩

def entryDeclarations (config : Config) (entry : PropertyEntry) (secondary : Option Quantity)
    (value : Text) : Except UnknownValue (List Declaration) :=
  match entry with
  | .simple property => .ok [⟨property, value⟩]
  | .templated properties template =>
    (resolveSecondary config secondary).map fun second =>
      let filled := Template.fill template value second
      properties.map fun property => ⟨property, filled⟩

/-- What a token stands for; nothing when its type is neither registered nor a bracketed list. -/
def resolve (config : Config) (token : ClassToken) : Except UnknownValue (Option Shorthand) :=
  if token.isBracketKind then
    (resolveQuantity config token.primary).map fun value =>
      some ⟨listedDeclarations config token.kind value, value⟩
  else
    match config.property.get? token.kind with
    | none => .ok none
    | some entry =>
      (resolveQuantity config token.primary).bind fun value =>
        (entryDeclarations config entry token.secondary value).map fun declarations =>
          some ⟨declarations, value⟩

end Shorthand

end UtilityCss
