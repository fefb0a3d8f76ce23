import UtilityCss.Proofs.Engine.Scope

/-!
# Named values in class names

A class name such as `bg-white` gives a property the literal of a registered value name. The reader
decides what is value and what is unit before any name is looked up, and the value alone is looked
up. A name is therefore found when the reader sees no unit in it; a name such as `10px` is read as a
number with a unit, and its literal is used only if the number happens to stand for the same text.
-/

namespace UtilityCss

namespace Value

/-- A quantity that is written like a registered name stands for the literal of the name: it has no
unit, or its value alone has that literal, or its value alone is not registered and stands for the
text of the literal anyway. -/
def StandsForName (values : ValueRegistry) (quantity : Quantity) (literal : Text) : Prop :=
  quantity.unit = [] ∨ values.get? quantity.value = some literal ∨
    values.get? quantity.value = none ∧
      if Text.isBetween '[' ']' quantity.value then
        resolveLiteral values (Text.inner quantity.value) = .ok literal
      else
        quantity.render = literal

theorem resolve_of_registered {values : ValueRegistry} {raw unit literal : Text}
    (registered : values.get? raw = some literal) : resolve values raw unit = .ok literal := by
  simp only [resolve]
  rw [registered]

theorem resolve_of_unregistered {values : ValueRegistry} {raw unit : Text}
    (unregistered : values.get? raw = none) (noReference : raw.head? ≠ some '$') :
    resolve values raw unit =
      if Text.isBetween '[' ']' raw then resolveLiteral values (Text.inner raw)
      else .ok (raw ++ unit) := by
  simp only [resolve, unregistered]
  split
  · exact absurd rfl noReference
  · rfl

theorem resolve_eq_ok_iff {values : ValueRegistry} {quantity : Quantity} {literal : Text}
    (named : values.get? quantity.render = some literal)
    (noUnit : quantity.value.head? = some '$' → quantity.unit = []) :
    resolve values quantity.value quantity.unit = .ok literal ↔
      StandsForName values quantity literal := by
  rw [StandsForName]
  by_cases unitless : quantity.unit = []
  · have whole : quantity.render = quantity.value := by
      rw [Quantity.render, unitless, List.append_nil]
    rw [whole] at named
    simp [resolve_of_registered named, unitless]
  · cases lookup : values.get? quantity.value with
    | some other => simp [resolve_of_registered lookup, unitless]
    | none =>
        have noReference : quantity.value.head? ≠ some '$' := mt noUnit unitless
        rw [resolve_of_unregistered lookup noReference]
        split <;> simp [Quantity.render, *]

end Value

namespace Grammar

theorem cutQuantity?_of_readValuesAs? {form : ValueForm} {text : Text} {primary : Quantity}
    (found : readValuesAs? form text = some (primary, none)) :
    cutQuantity? form text = some (primary, []) := by
  rw [readValuesAs?] at found
  split at found
  · rename_i cut
    cases found
    exact cut
  · rcases Option.map_eq_some_iff.mp found with ⟨second, _, equal⟩
    cases equal
  · cases found

/-- What is read behind a type without scope and without a second quantity is one quantity, in which
a reference has no unit. -/
theorem primary_of_read? {types : List Text} {type rest : Text} {token : ClassToken}
    (noColon : ∀ type ∈ types, ':' ∉ type)
    (read : (ofTypes types).read? (type ++ '-' :: rest) = some token)
    (hasType : token.kind = type) (noScope : token.scope = none)
    (single : token.secondary = none) :
    token.primary.render = rest ∧
      (token.primary.value.head? = some '$' → token.primary.unit = []) := by
  rw [read?_of_noScope (splitScope?_eq_none_of_read? noColon read noScope)] at read
  rcases readBare?_eq_some read with ⟨_, _, values, whole, readValues⟩
  rw [hasType, List.append_cancel_left_eq] at whole
  rw [← (List.cons.inj whole).2, single] at readValues
  rcases List.exists_of_findSome?_eq_some readValues with ⟨form, _, attempt⟩
  have cut := cutQuantity?_of_readValuesAs? attempt
  refine ⟨?_, unit_eq_nil_of_reference cut⟩
  simpa using (cutQuantity?_sound cut).2.2.symm

end Grammar

namespace Shorthand

theorem isBracketKind_of_registered {config : Config} (accepted : config.IsAccepted)
    {token : ClassToken} (registered : token.kind ∈ config.property.keys) :
    token.isBracketKind = false := by
  apply Bool.eq_false_iff.mpr
  intro bracket
  rcases Text.isBetween_iff.mp bracket with ⟨list, isList⟩
  exact (accepted.isTypeToken registered).not_mem_bracket (by simp [isList])

theorem resolve_of_simple {config : Config} (accepted : config.IsAccepted) {token : ClassToken}
    {property : Text} (registered : config.property.get? token.kind = some (.simple property)) :
    resolve config token = (resolveQuantity config token.primary).map fun value =>
      some ⟨[⟨property, value⟩], value⟩ := by
  have notBracket := isBracketKind_of_registered accepted
    (OrderedMap.mem_keys_of_get?_eq_some registered)
  rw [resolve, notBracket, registered]
  rfl

end Shorthand

namespace Config

theorem splitScope_of_read? {config : Config} (accepted : config.IsAccepted) {className : Text}
    {token : ClassToken} (read : config.grammar.read? className = some token)
    (noScope : token.scope = none) : Resolution.splitScope className = (none, className) := by
  rw [Resolution.splitScope, Grammar.splitScope?_eq_none_of_read? accepted.noColon read noScope]

/-- A class name is left to the grammar when what stands behind its scope is neither alias nor
semantic class. -/
theorem resolution_of_unnamed {config : Config} {className : Text}
    (noAlias : config.aliases.get? (Resolution.splitScope className).2 = none)
    (noClass : config.customClass? (Resolution.splitScope className).2 = none) :
    config.resolution className = Resolution.ofShorthand config config.grammar className := by
  change Resolution.ofName config config.grammar className = _
  simp only [Resolution.ofName, alias?, noAlias, Option.map_none, noClass]

/-- A class name without scope that is neither alias nor semantic class is read as a shorthand class.
-/
theorem resolution_of_read? {config : Config} (accepted : config.IsAccepted) {className : Text}
    {token : ClassToken} (noAlias : config.aliases.get? className = none)
    (noClass : config.customClass? className = none)
    (read : config.grammar.read? className = some token) (noScope : token.scope = none) :
    config.resolution className =
      ⟨none, Expansion.ofShorthand config config.grammar className⟩ := by
  have unsplit := splitScope_of_read? accepted read noScope
  rw [resolution_of_unnamed (unsplit ▸ noAlias) (unsplit ▸ noClass), Resolution.ofShorthand, read,
    Option.bind_some, noScope]

/-- Such a class name gives its value to the one property of its type. -/
theorem resolution_of_simple {config : Config} (accepted : config.IsAccepted)
    {className property : Text} {token : ClassToken}
    (registered : config.property.get? token.kind = some (.simple property))
    (noAlias : config.aliases.get? className = none)
    (noClass : config.customClass? className = none)
    (read : config.grammar.read? className = some token) (noScope : token.scope = none) :
    config.keyOf className = .ofClass className none ∧
      config.declarationsOf className =
        match Shorthand.resolveQuantity config token.primary with
        | .ok value => [⟨property, value⟩]
        | .error _ => [] := by
  have resolved := resolution_of_read? accepted noAlias noClass read noScope
  constructor
  · rw [keyOf, resolved]
    rfl
  · rw [declarationsOf, resolved, Expansion.ofShorthand, read]
    simp only [Shorthand.resolve_of_simple accepted registered]
    cases Shorthand.resolveQuantity config token.primary <;> rfl

end Config

namespace Engine

theorem words_typed_name {type name : Text} (noBlank : ∀ c ∈ type, isBlank c = false)
    (noBlankName : ∀ c ∈ name, isBlank c = false) :
    Text.words (type ++ '-' :: name) = [type ++ '-' :: name] :=
  Text.words_append_cons_of_noBlank (by decide) noBlank noBlankName

/-- Processing a type and a registered value name, after any run: the rule of the class is the
property of the type with the literal of the name exactly when the name is part of one class name
and what the reader takes as value and unit stands for the name. -/
theorem get?_process_namedValue_iff {config : Config} {engine : Engine}
    (accepted : start config = .ok engine) (steps : List Step)
    {type property name literal : Text} {token : ClassToken}
    (registered : config.property.get? type = some (.simple property))
    (named : config.values.get? name = some literal)
    (noAlias : config.aliases.get? (type ++ '-' :: name) = none)
    (noClass : config.customClass? (type ++ '-' :: name) = none)
    (read : config.grammar.read? (type ++ '-' :: name) = some token)
    (hasType : token.kind = type) (noScope : token.scope = none)
    (single : token.secondary = none) :
    ((engine.run steps).process (type ++ '-' :: name)).styles.get?
          (.ofClass (type ++ '-' :: name) none) =
        some (OrderedSet.ofList [⟨property, literal⟩]) ↔
      (∀ c ∈ name, isBlank c = false) ∧
        Value.StandsForName config.values token.primary literal := by
  have isAccepted := (start_eq_ok_iff.mp accepted).1
  have isType := isAccepted.isTypeToken (OrderedMap.mem_keys_of_get?_eq_some registered)
  rcases Grammar.primary_of_read? isAccepted.noColon read hasType noScope single with
    ⟨whole, noUnit⟩
  have resolution := Config.resolution_of_simple isAccepted (hasType.symm ▸ registered) noAlias
    noClass read noScope
  have isFor : (RuleKey.ofClass (type ++ '-' :: name) none).IsFor (type ++ '-' :: name) :=
    Or.inl ⟨none, rfl⟩
  have rule := ((reflects_run accepted steps).process (type ++ '-' :: name)).get?_of_isFor isFor
  rw [rule, resolution.1, resolution.2, Shorthand.resolveQuantity,
    ← Value.resolve_eq_ok_iff (whole.symm ▸ named) noUnit]
  have seen : type ++ '-' :: name ∈
      namesSeen config steps ++ Text.words (type ++ '-' :: name) ↔
        ∀ c ∈ name, isBlank c = false := by
    constructor
    · intro member c inName
      have noBlank : ∀ d ∈ type ++ '-' :: name, isBlank d = false := by
        rcases List.mem_append.mp member with before | isWord
        · exact noBlank_of_mem_namesSeen before
        · exact (Text.noBlank_of_mem_words isWord).2
      exact noBlank c (by simp [inName])
    · intro noBlank
      rw [words_typed_name isType.noBlank noBlank]
      simp
  cases resolved : Value.resolve config.values token.primary.value token.primary.unit with
  | error cause => simp
  | ok value => simp [seen, OrderedSet.ofList_singleton_inj]

theorem get?_process_namedValue_iff_sample :
    let engine := (fresh Config.sample).processReserved
    start Config.sample = .ok engine ∧
      ((engine.run [.reset]).process "bg-white".toList).styles.get?
          (.ofClass "bg-white".toList none) =
        some (OrderedSet.ofList [⟨"background".toList, "#fff".toList⟩]) := by
  intro engine
  have accepted : start Config.sample = .ok engine := rfl
  have read : Config.sample.grammar.read? ("bg".toList ++ '-' :: "white".toList) =
      some ⟨none, "bg".toList, ⟨"white".toList, []⟩, none⟩ := by decide
  have registered : Config.sample.property.get? "bg".toList =
      some (.simple "background".toList) := by decide
  have named : Config.sample.values.get? "white".toList = some "#fff".toList := by decide
  have stored := get?_process_namedValue_iff accepted [.reset] registered named (by decide)
    (by decide) read rfl rfl rfl
  exact ⟨accepted, stored.mpr ⟨Text.eq_false_of_any (by decide), Or.inl rfl⟩⟩

/-- A name that begins with a number is read as the number and a unit, and its literal is not used
although the whole name is registered. -/
theorem namedValue_split_into_unit :
    let config := (Config.empty.withProperty "p".toList (.simple "padding".toList)).withValue
      "10px".toList "8px".toList
    let className := "p-10px".toList
    let after := (fresh config).processReserved.process className
    start config = .ok (fresh config).processReserved ∧
      config.property.get? "p".toList = some (.simple "padding".toList) ∧
      config.values.get? "10px".toList = some "8px".toList ∧
      config.aliases.get? className = none ∧ config.customClass? className = none ∧
      config.grammar.read? className =
        some ⟨none, "p".toList, ⟨"10".toList, "px".toList⟩, none⟩ ∧
      after.styles.get? (.ofClass className none) =
        some (OrderedSet.ofList [⟨"padding".toList, "10px".toList⟩]) ∧
      after.styles.get? (.ofClass className none) ≠
        some (OrderedSet.ofList [⟨"padding".toList, "8px".toList⟩]) :=
  ⟨rfl, by decide, by decide, by decide, by decide, by decide, by decide, by decide⟩

end Engine

end UtilityCss
