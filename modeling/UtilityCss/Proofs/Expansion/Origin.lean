import UtilityCss.Expansion.Resolution
import UtilityCss.Proofs.ClassName.Scope
import UtilityCss.Proofs.Config.Acceptance

/-!
# Origins of declarations

A class name gets its declarations from an alias, from a semantic class or as a shorthand class, and
the first of the three that knows it decides. The origin of a class name says which of them it was
and what that one gave. It leaves out the scope, and a failed shorthand class appears by its cause
only, without the class name that the report repeats.

The two readers of scopes agree under an accepted configuration, so a scope in front of a class name
leaves its origin as it is.
-/

namespace UtilityCss

/-- Where the declarations of a class name come from, and what they are. -/
inductive Origin where
  | aliased (expansion : Expansion)
  | semantic (declarations : List Declaration)
  | shorthand (result : Shorthand)
  | failed (cause : UnknownValue)
  | unknown

namespace Origin

def ofToken (config : Config) (token : ClassToken) : Origin :=
  match Shorthand.resolve config token with
  | .ok (some result) => .shorthand result
  | .ok none => .unknown
  | .error cause => .failed cause

/-- The expansion of a class name with an origin. -/
def expansion (className : Text) : Origin → Expansion
  | aliased expansion => expansion
  | semantic declarations => ⟨declarations, []⟩
  | shorthand result => ⟨result.declarations, []⟩
  | failed cause => ⟨[], [⟨className, cause⟩]⟩
  | unknown => .empty

/-- The class name matters for the report on a failure only. -/
theorem declarations_expansion (origin : Origin) (first second : Text) :
    (origin.expansion first).declarations = (origin.expansion second).declarations := by
  cases origin <;> rfl

theorem causes_expansion (origin : Origin) (first second : Text) :
    (origin.expansion first).skipped.map Skip.cause =
      (origin.expansion second).skipped.map Skip.cause := by
  cases origin <;> rfl

end Origin

theorem Resolution.splitScope_of_scope {scope bare : Text}
    (isScope : Text.IsRun Grammar.isScopeChar scope) :
    splitScope (scope ++ ':' :: bare) = (some scope, bare) := by
  rw [splitScope, Grammar.splitScope?_eq_some_iff.mpr ⟨rfl, isScope⟩]

namespace Config

def grammar (config : Config) : Grammar :=
  Grammar.ofTypes config.property.keys

/-- The origin of a class name: what stands behind its scope is looked up as an alias and then as a
semantic class, and else the whole name is read. -/
def origin (config : Config) (className : Text) : Origin :=
  let bare := (Resolution.splitScope className).2
  match config.alias? config.grammar bare with
  | some expansion =>
    .aliased { expansion with
      skipped := expansion.skipped.map (Resolution.labelInAlias bare) }
  | none =>
    match config.customClass? bare with
    | some declarations => .semantic declarations
    | none => ((config.grammar.read? className).map (Origin.ofToken config)).getD .unknown

theorem IsAccepted.noColon {config : Config} (accepted : config.IsAccepted) :
    ∀ type ∈ config.property.keys, ':' ∉ type :=
  fun _ registered => (accepted.isTypeToken registered).not_mem_colon

theorem IsAccepted.read?_of_list {config : Config} (accepted : config.IsAccepted) {kind : Text}
    (shape : ValueForm.Shape .bracket kind) (values : Text) :
    config.grammar.read? (kind ++ '-' :: values) =
      (Grammar.readValues? values).map fun (primary, secondary) =>
        ⟨none, kind, primary, secondary⟩ := by
  apply Grammar.read?_of_list _ shape
  intro type registered
  have isType := accepted.isTypeToken registered
  exact ⟨isType.nonempty, isType.not_mem_bracket⟩

theorem ofShorthand_eq_expansion (config : Config) (className : Text) :
    Expansion.ofShorthand config config.grammar className =
      (((config.grammar.read? className).map (Origin.ofToken config)).getD .unknown).expansion
        className := by
  cases read : config.grammar.read? className with
  | none => simp [Expansion.ofShorthand, read, Origin.expansion]
  | some token =>
      simp only [Expansion.ofShorthand, read, Option.map_some, Option.getD_some, Origin.ofToken]
      rcases Shorthand.resolve config token with cause | result
      · rfl
      · cases result <;> rfl

/-- The expansion that a class name is resolved to is the one of its origin. -/
theorem expansion_ofName (config : Config) (className : Text) :
    (Resolution.ofName config config.grammar className).expansion =
      (config.origin className).expansion className := by
  rcases split : Resolution.splitScope className with ⟨scope, bare⟩
  simp only [Resolution.ofName, origin, split]
  cases config.alias? config.grammar bare with
  | some expansion => rfl
  | none =>
      cases config.customClass? bare with
      | some declarations => rfl
      | none => exact config.ofShorthand_eq_expansion className

/-- A class name that stands for declarations is scoped as it is split. -/
theorem scope_ofName {config : Config} (accepted : config.IsAccepted) {className : Text}
    (nonempty : (Resolution.ofName config config.grammar className).expansion.declarations ≠ []) :
    (Resolution.ofName config config.grammar className).scope =
      (Resolution.splitScope className).1 := by
  rcases split : Resolution.splitScope className with ⟨scope, bare⟩
  simp only [Resolution.ofName, split] at nonempty ⊢
  cases isAlias : config.alias? config.grammar bare with
  | some expansion => rfl
  | none =>
      cases isClass : config.customClass? bare with
      | some declarations => rfl
      | none =>
          simp only [isAlias, isClass, Resolution.ofShorthand] at nonempty ⊢
          cases found : config.grammar.read? className with
          | none => simp [Expansion.ofShorthand, found, Expansion.empty] at nonempty
          | some token =>
              have isSplit : (Grammar.splitScope? className).map Prod.fst = scope := by
                rw [Resolution.splitScope] at split
                cases parts : Grammar.splitScope? className <;> simp_all
              rw [Option.bind_some, Grammar.scope_of_read? accepted.noColon found, isSplit]

/-- A scope in front of a class name leaves its origin as it is. -/
theorem origin_of_scope {config : Config} (accepted : config.IsAccepted) {scope bare : Text}
    (isScope : Text.IsRun Grammar.isScopeChar scope)
    (noScope : Grammar.splitScope? bare = none) :
    config.origin (scope ++ ':' :: bare) = config.origin bare := by
  have whole : Resolution.splitScope (scope ++ ':' :: bare) = (some scope, bare) :=
    Resolution.splitScope_of_scope isScope
  have alone : Resolution.splitScope bare = (none, bare) := by
    rw [Resolution.splitScope, noScope]
  have read : ((config.grammar.read? (scope ++ ':' :: bare)).map (Origin.ofToken config)) =
      (config.grammar.read? bare).map (Origin.ofToken config) := by
    rw [grammar, Grammar.read?_of_scope accepted.noColon isScope,
      Grammar.read?_of_noScope noScope, Option.map_map]
    rfl
  simp only [origin, whole, alone, read]

end Config

end UtilityCss
