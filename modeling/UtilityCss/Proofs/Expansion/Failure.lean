import UtilityCss.Proofs.Engine.NamedValue
import UtilityCss.Proofs.Expansion.Placeholder

/-!
# What a token can stand for

A token that the grammar reads under an accepted configuration has a registered type or lists its
properties, so it is never of an unknown type. Either a value that it needs holds a placeholder for
an unregistered value, and the token fails; or it stands for at least one declaration, as a template
without properties is refused by validation. The one exception is a list of properties in which all
items are blank: it stands for nothing.

A secondary quantity is needed only by a template. Other types ignore it, whatever it holds.
-/

namespace UtilityCss

universe u v w

theorem exists_bind_eq_error_iff {ε : Type u} {α : Type v} {β : Type w} {next : α → Except ε β}
    {outcome : Except ε α} :
    (∃ cause, outcome.bind next = .error cause) ↔
      (∃ cause, outcome = .error cause) ∨
        ∃ value, outcome = .ok value ∧ ∃ cause, next value = .error cause := by
  cases outcome <;> simp [Except.bind]

theorem map_eq_ok_iff {ε : Type u} {α : Type v} {β : Type w} {f : α → β} {outcome : Except ε α}
    {result : β} :
    outcome.map f = .ok result ↔ ∃ value, outcome = .ok value ∧ f value = result := by
  cases outcome <;> simp [Except.map]

theorem exists_of_bind_eq_ok {ε : Type u} {α : Type v} {β : Type w} {next : α → Except ε β}
    {outcome : Except ε α} {result : β} (done : outcome.bind next = .ok result) :
    ∃ value, outcome = .ok value ∧ next value = .ok result := by
  cases outcome with
  | error cause => cases done
  | ok value => exact ⟨value, rfl, done⟩

namespace Value

/-- A quantity needs an unregistered value: its own value is not registered and is a bracketed
literal in which, underscores being spaces, a placeholder names a value that is not registered. -/
def NeedsUnknown (values : ValueRegistry) (quantity : Quantity) : Prop :=
  values.get? quantity.value = none ∧
    ∃ literal name, quantity.value = '[' :: literal ++ [']'] ∧
      HasPlaceholder name (withSpaces literal) ∧ values.get? name = none

theorem needsUnknown_iff_of_bracket {values : ValueRegistry} {quantity : Quantity}
    {literal : Text} (unregistered : values.get? quantity.value = none)
    (bracket : quantity.value = '[' :: literal ++ [']']) :
    NeedsUnknown values quantity ↔
      ∃ name, HasPlaceholder name (withSpaces literal) ∧ values.get? name = none := by
  constructor
  · rintro ⟨_, other, name, otherwise, found⟩
    have same : literal = other := by simpa [bracket] using otherwise
    exact ⟨name, same ▸ found⟩
  · rintro ⟨name, found⟩
    exact ⟨unregistered, literal, name, bracket, found⟩

/-- A quantity is resolved unless it needs an unregistered value. -/
theorem resolve_fails_iff {values : ValueRegistry} {quantity : Quantity} :
    (∃ cause, resolve values quantity.value quantity.unit = .error cause) ↔
      NeedsUnknown values quantity := by
  cases registered : values.get? quantity.value with
  | some literal => simp [resolve_of_registered registered, NeedsUnknown, registered]
  | none =>
      by_cases reference : quantity.value.head? = some '$'
      · rcases List.head?_eq_some_iff.mp reference with ⟨name, isReference⟩
        have resolved : resolve values quantity.value quantity.unit =
            .ok (customProperty ('-' :: '-' :: name)) := by
          rw [isReference] at registered ⊢
          simp only [resolve, registered]
        rw [resolved]
        simp [NeedsUnknown, isReference]
      · rw [resolve_of_unregistered registered reference]
        by_cases bracket : Text.isBetween '[' ']' quantity.value = true
        · rcases Text.isBetween_iff.mp bracket with ⟨literal, isBracket⟩
          rw [if_pos bracket, needsUnknown_iff_of_bracket registered isBracket, isBracket,
            Text.inner_between, resolveLiteral, exists_map_eq_error_iff,
            fillPlaceholders_fails_iff]
        · rw [if_neg bracket]
          have noBracket : ∀ literal, quantity.value ≠ '[' :: literal ++ [']'] :=
            fun literal isBracket => bracket (Text.isBetween_iff.mpr ⟨literal, isBracket⟩)
          simp only [reduceCtorEq, exists_false, false_iff]
          rintro ⟨_, literal, _, isBracket, _⟩
          exact noBracket literal isBracket

end Value

/-- A token lists no property: its type is a bracketed list in which all items are blank. -/
def ClassToken.ListsNothing (token : ClassToken) : Prop :=
  ∃ list, token.kind = '[' :: list ++ [']'] ∧
    ∀ item ∈ Text.pieces (· == ',') list, Text.isAllBlank item = true

namespace Shorthand

variable {config : Config} {token : ClassToken}

/-- A token needs an unregistered value: its primary quantity does, or its type has a template and
its secondary quantity does. -/
def NeedsUnknown (config : Config) (token : ClassToken) : Prop :=
  Value.NeedsUnknown config.values token.primary ∨
    ∃ properties template secondary,
      config.property.get? token.kind = some (.templated properties template) ∧
        token.secondary = some secondary ∧ Value.NeedsUnknown config.values secondary

theorem isBracketKind_of_shape (shape : ValueForm.Shape .bracket token.kind) :
    token.isBracketKind = true := by
  rw [ClassToken.isBracketKind]
  generalize token.kind = kind at shape ⊢
  cases shape with
  | @bracket list _ => exact Text.isBetween_iff.mpr ⟨list, rfl⟩

theorem unregistered_of_bracket (accepted : config.IsAccepted)
    (bracket : token.isBracketKind = true) : config.property.get? token.kind = none := by
  cases registered : config.property.get? token.kind with
  | none => rfl
  | some entry =>
      have noBracket := isBracketKind_of_registered accepted
        (OrderedMap.mem_keys_of_get?_eq_some registered)
      rw [bracket] at noBracket
      cases noBracket

theorem exists_entry_of_mem_keys (registered : token.kind ∈ config.property.keys) :
    ∃ entry, config.property.get? token.kind = some entry :=
  Option.isSome_iff_exists.mp (OrderedMap.contains_iff_mem_keys.mpr registered)

theorem resolve_of_bracket (bracket : token.isBracketKind = true) :
    resolve config token = (resolveQuantity config token.primary).map fun value =>
      some ⟨listedDeclarations config token.kind value, value⟩ := by
  rw [resolve, if_pos bracket]

theorem resolve_of_registered (accepted : config.IsAccepted) {entry : PropertyEntry}
    (registered : config.property.get? token.kind = some entry) :
    resolve config token =
      (resolveQuantity config token.primary).bind fun value =>
        (entryDeclarations config entry token.secondary value).map fun declarations =>
          some ⟨declarations, value⟩ := by
  have noBracket := isBracketKind_of_registered accepted
    (OrderedMap.mem_keys_of_get?_eq_some registered)
  rw [resolve, noBracket, registered]
  rfl

/-! ## Failures -/

theorem resolveQuantity_fails_iff {quantity : Quantity} :
    (∃ cause, resolveQuantity config quantity = .error cause) ↔
      Value.NeedsUnknown config.values quantity :=
  Value.resolve_fails_iff

theorem entryDeclarations_fails_iff {entry : PropertyEntry} {secondary : Option Quantity}
    {value : Text} :
    (∃ cause, entryDeclarations config entry secondary value = .error cause) ↔
      ∃ properties template quantity, entry = .templated properties template ∧
        secondary = some quantity ∧ Value.NeedsUnknown config.values quantity := by
  cases entry with
  | simple property => simp [entryDeclarations]
  | templated properties template =>
      rw [entryDeclarations, exists_map_eq_error_iff]
      cases secondary with
      | none => simp [resolveSecondary]
      | some quantity => simp [resolveSecondary, resolveQuantity_fails_iff]

/-- A token that is read fails exactly when it needs an unregistered value. -/
theorem resolve_fails_iff (accepted : config.IsAccepted)
    (allowed : token.kind ∈ config.property.keys ∨ ValueForm.Shape .bracket token.kind) :
    (∃ cause, resolve config token = .error cause) ↔ NeedsUnknown config token := by
  rcases allowed with isKey | shape
  · rcases exists_entry_of_mem_keys isKey with ⟨entry, registered⟩
    rw [resolve_of_registered accepted registered, exists_bind_eq_error_iff,
      resolveQuantity_fails_iff, NeedsUnknown, registered]
    simp only [exists_map_eq_error_iff, entryDeclarations_fails_iff, Option.some.injEq]
    constructor
    · rintro (primary | ⟨_, _, secondary⟩)
      · exact Or.inl primary
      · exact Or.inr secondary
    · rintro (primary | secondary)
      · exact Or.inl primary
      · cases outcome : resolveQuantity config token.primary with
        | error cause => exact Or.inl (resolveQuantity_fails_iff.mp ⟨cause, outcome⟩)
        | ok value => exact Or.inr ⟨value, rfl, secondary⟩
  · have bracket := isBracketKind_of_shape shape
    rw [resolve_of_bracket bracket, exists_map_eq_error_iff, resolveQuantity_fails_iff,
      NeedsUnknown, unregistered_of_bracket accepted bracket]
    simp

/-! ## Declarations -/

theorem itemProperties_ne_nil (accepted : config.IsAccepted) (item : Text) :
    itemProperties config item ≠ [] := by
  rw [itemProperties]
  split
  · rename_i registered
    exact accepted.propertyNames_ne_nil registered
  · exact List.cons_ne_nil _ _

theorem listedDeclarations_eq_nil_iff (accepted : config.IsAccepted) {kind value : Text} :
    listedDeclarations config kind value = [] ↔ listedItems kind = [] := by
  constructor
  · intro noDeclaration
    apply List.eq_nil_iff_forall_not_mem.mpr
    intro item member
    rcases List.exists_mem_of_ne_nil _ (itemProperties_ne_nil accepted item) with
      ⟨property, isProperty⟩
    have listed : property ∈ (listedItems kind).flatMap (itemProperties config) :=
      List.mem_flatMap.mpr ⟨item, member, isProperty⟩
    rw [List.map_eq_nil_iff.mp noDeclaration] at listed
    cases listed
  · intro noItem
    rw [listedDeclarations, noItem]
    rfl

theorem listedItems_eq_nil_iff (bracket : token.isBracketKind = true) :
    listedItems token.kind = [] ↔ token.ListsNothing := by
  rcases Text.isBetween_iff.mp bracket with ⟨list, isList⟩
  have allBlank : listedItems token.kind = [] ↔
      ∀ item ∈ Text.pieces (· == ',') list, Text.isAllBlank item = true := by
    rw [listedItems, isList, Text.inner_between]
    simp [List.filter_eq_nil_iff, Text.trim_eq_nil_iff]
  rw [allBlank]
  constructor
  · intro blank
    exact ⟨list, isList, blank⟩
  · rintro ⟨other, isOther, blank⟩
    have same : list = other := by simpa [isList] using isOther
    exact same ▸ blank

theorem not_listsNothing_of_registered (accepted : config.IsAccepted)
    (registered : token.kind ∈ config.property.keys) : ¬ token.ListsNothing := by
  rintro ⟨list, isList, _⟩
  exact (accepted.isTypeToken registered).not_mem_bracket (by simp [isList])

theorem entryDeclarations_ne_nil (accepted : config.IsAccepted) {type value : Text}
    {entry : PropertyEntry} {secondary : Option Quantity} {declarations : List Declaration}
    (registered : config.property.get? type = some entry)
    (resolved : entryDeclarations config entry secondary value = .ok declarations) :
    declarations ≠ [] := by
  have names := accepted.propertyNames_ne_nil registered
  cases entry with
  | simple property =>
      cases resolved
      exact List.cons_ne_nil _ _
  | templated properties template =>
      rcases map_eq_ok_iff.mp resolved with ⟨second, _, rfl⟩
      exact mt List.map_eq_nil_iff.mp names

theorem exists_shorthand_of_registered (accepted : config.IsAccepted) {entry : PropertyEntry}
    (registered : config.property.get? token.kind = some entry) {result : Option Shorthand}
    (resolved : resolve config token = .ok result) :
    ∃ shorthand, result = some shorthand ∧ shorthand.declarations ≠ [] := by
  rw [resolve_of_registered accepted registered] at resolved
  rcases exists_of_bind_eq_ok resolved with ⟨value, _, mapped⟩
  rcases map_eq_ok_iff.mp mapped with ⟨declarations, declared, rfl⟩
  exact ⟨_, rfl, entryDeclarations_ne_nil accepted registered declared⟩

theorem exists_shorthand_of_bracket (bracket : token.isBracketKind = true)
    {result : Option Shorthand} (resolved : resolve config token = .ok result) :
    ∃ shorthand value, result = some shorthand ∧
      shorthand.declarations = listedDeclarations config token.kind value := by
  rw [resolve_of_bracket bracket] at resolved
  rcases map_eq_ok_iff.mp resolved with ⟨value, _, rfl⟩
  exact ⟨_, value, rfl, rfl⟩

/-- What a token is resolved to has declarations unless the token lists no property. -/
theorem exists_shorthand (accepted : config.IsAccepted)
    (allowed : token.kind ∈ config.property.keys ∨ ValueForm.Shape .bracket token.kind)
    {result : Option Shorthand} (resolved : resolve config token = .ok result) :
    ∃ shorthand, result = some shorthand ∧
      (shorthand.declarations = [] ↔ token.ListsNothing) := by
  rcases allowed with isKey | shape
  · rcases exists_entry_of_mem_keys isKey with ⟨entry, registered⟩
    rcases exists_shorthand_of_registered accepted registered resolved with
      ⟨shorthand, isResult, nonempty⟩
    have lists := not_listsNothing_of_registered accepted isKey
    exact ⟨shorthand, isResult, iff_of_false nonempty lists⟩
  · have bracket := isBracketKind_of_shape shape
    rcases exists_shorthand_of_bracket bracket resolved with
      ⟨shorthand, value, isResult, declared⟩
    refine ⟨shorthand, isResult, ?_⟩
    rw [declared, listedDeclarations_eq_nil_iff accepted, listedItems_eq_nil_iff bracket]

/-- A token that is read either needs an unregistered value and fails, or stands for declarations,
of which there is none only when the token lists no property. -/
theorem resolve_cases (accepted : config.IsAccepted)
    (allowed : token.kind ∈ config.property.keys ∨ ValueForm.Shape .bracket token.kind) :
    (NeedsUnknown config token ∧ ∃ cause, resolve config token = .error cause) ∨
      (¬ NeedsUnknown config token ∧ ∃ shorthand,
        resolve config token = .ok (some shorthand) ∧
          (shorthand.declarations = [] ↔ token.ListsNothing)) := by
  have fails := resolve_fails_iff accepted allowed
  cases resolved : resolve config token with
  | error cause => exact Or.inl ⟨fails.mp ⟨cause, resolved⟩, cause, rfl⟩
  | ok result =>
      have known : ¬ NeedsUnknown config token := by
        intro needed
        rcases fails.mpr needed with ⟨cause, failed⟩
        rw [resolved] at failed
        cases failed
      rcases exists_shorthand accepted allowed resolved with ⟨shorthand, rfl, declared⟩
      exact Or.inr ⟨known, shorthand, rfl, declared⟩

end Shorthand

end UtilityCss
