import UtilityCss.Proofs.Engine.LiteralClass
import UtilityCss.Proofs.Engine.MatchedClass

/-!
# Classes with a single placeholder

A registered value can be written behind a type by its name, as in `p-gap`, or by a placeholder in
brackets, as in `p-[{gap}]`. No longer type token reads such a class, since it would hold a bracket;
so the class is one type and one bracketed literal.

The literal is rewritten before its placeholders are looked up: underscores become spaces. The
placeholder of a name without underscore therefore stands for the value of that name, and the
placeholder of a name with underscores stands for the value that is registered with spaces in their
place.
-/

namespace UtilityCss

namespace Value

/-- A bracketed literal that is a single placeholder. -/
def placeholder (name : Text) : Text :=
  '[' :: ('{' :: name ++ ['}']) ++ [']']

theorem shape_placeholder {name : Text} (noClose : ']' ∉ name) :
    ValueForm.Shape .bracket (placeholder name) := by
  apply ValueForm.Shape.bracket
  refine ⟨by simp, ?_⟩
  intro c member
  have different : c ≠ ']' := by
    rintro rfl
    simp [noClose] at member
  simpa using different

theorem withSpaces_of_noUnderscore {text : Text} (noUnderscore : '_' ∉ text) :
    withSpaces text = text := by
  have same : ∀ c ∈ text, (if c = '_' then ' ' else c) = c := by
    intro c member
    apply if_neg
    rintro rfl
    exact noUnderscore member
  rw [withSpaces, List.map_congr_left same, List.map_id']

theorem not_mem_withSpaces {text : Text} {c : Char} (noMember : c ∉ text) (noSpace : c ≠ ' ') :
    c ∉ withSpaces text := by
  intro member
  rcases List.mem_map.mp member with ⟨d, inText, isChar⟩
  split at isChar
  · exact noSpace isChar.symm
  · exact noMember (isChar ▸ inText)

/-- The placeholder of a name stands for the value of the name with spaces for underscores, and a
value that is the name of a custom property becomes a reference to it. -/
theorem resolve_placeholder {values : ValueRegistry} {name : Text} (nonempty : name ≠ [])
    (noClose : '}' ∉ name) (unregistered : values.get? (placeholder name) = none) :
    resolve values (placeholder name) [] =
      match values.get? (withSpaces name) with
      | none => .error ⟨withSpaces name⟩
      | some literal =>
        .ok (if ['-', '-'].isPrefixOf literal then customProperty literal else literal) := by
  have noReference : (placeholder name).head? ≠ some '$' := by simp [placeholder]
  have bracket : Text.isBetween '[' ']' (placeholder name) = true :=
    Text.isBetween_iff.mpr ⟨_, rfl⟩
  have spaced : withSpaces ('{' :: name ++ ['}']) = '{' :: withSpaces name ++ '}' :: [] := by
    simp [withSpaces]
  have spacedName : withSpaces name ≠ [] := by simpa [withSpaces] using nonempty
  rw [resolve_of_unregistered unregistered noReference, if_pos bracket, placeholder,
    Text.inner_between, resolveLiteral, spaced,
    fillPlaceholders_placeholder spacedName (not_mem_withSpaces noClose (by decide))]
  cases values.get? (withSpaces name) with
  | none => rfl
  | some literal => simp [fillPlaceholders_nil, Except.map]

end Value

namespace Grammar

/-- A bracketed literal is read as one quantity without unit. -/
theorem readValues?_of_bracket {value : Text} (shape : ValueForm.Shape .bracket value) :
    readValues? value = some (⟨value, []⟩, none) := by
  have cut : ValueForm.cutBracket? value = some (value, []) := by
    simpa using ValueForm.cutBracket?_append shape []
  have earlier : ValueForm.cutNumber? value = none ∧ ValueForm.cutIdent? value = none ∧
      ValueForm.cutHex? value = none := by
    cases shape
    exact ⟨rfl, rfl, rfl⟩
  simp [readValues?, ValueForm.all, readValuesAs?, cutQuantity?, ValueForm.cut?, earlier, cut,
    ValueForm.cutWhile]

theorem isLongestReader_of_bracket {types : List Text} {type value : Text}
    (noBracket : ∀ type ∈ types, '[' ∉ type) (registered : type ∈ types)
    (shape : ValueForm.Shape .bracket value) :
    IsLongestReader types (type ++ '-' :: value) type := by
  apply isLongestReader_of_noSplit registered (by simp [readValues?_of_bracket shape])
  intro front behind isOther split
  cases shape with
  | bracket isRun =>
      cases front with
      | nil => cases (List.cons.inj split).1
      | cons c front =>
          have isBracket : '[' = c := (List.cons.inj split).1
          exact noBracket _ isOther (by simp [← isBracket])

end Grammar

namespace Config

variable {config : Config} {type name : Text}

/-- A registered type and a placeholder for a name are read as just that. -/
theorem read?_placeholder (accepted : config.IsAccepted)
    (registered : type ∈ config.property.keys) (isIdent : IsIdent name) :
    config.grammar.read? (type ++ '-' :: Value.placeholder name) =
      some ⟨none, type, ⟨Value.placeholder name, []⟩, none⟩ := by
  have noBracket : ∀ type ∈ config.property.keys, '[' ∉ type :=
    fun _ isType => (accepted.isTypeToken isType).not_mem_bracket
  have shape := Value.shape_placeholder (isIdent.not_mem (by decide) (by decide))
  have noScope : Grammar.splitScope? (type ++ '-' :: Value.placeholder name) = none := by
    apply Grammar.splitScope?_of_noColon
    have noColon : ':' ∉ name := isIdent.not_mem (by decide) (by decide)
    simp [Value.placeholder, accepted.noColon type registered, noColon]
  exact Grammar.read?_of_isLongestReader noScope
    (Grammar.isLongestReader_of_bracket noBracket registered shape)
    (Grammar.readValues?_of_bracket shape)

theorem noBlank_placeholder (accepted : config.IsAccepted)
    (registered : type ∈ config.property.keys) (isIdent : IsIdent name) :
    ∀ c ∈ type ++ '-' :: Value.placeholder name, isBlank c = false := by
  intro c member
  simp only [Value.placeholder, List.mem_append, List.mem_cons, List.not_mem_nil, or_false]
    at member
  rcases member with inType | rfl | (rfl | (rfl | inName) | rfl) | rfl
  · exact (accepted.isTypeToken registered).noBlank c inType
  · decide
  · decide
  · decide
  · exact ValueForm.noBlank_of_isLiteralChar (isIdent.isLiteralChar c inName)
  · decide
  · decide

end Config

namespace Engine

/-- Processing a type with one property and a placeholder for a name, after any run. The name of the
placeholder is the name with spaces for underscores. When it is registered, the property gets its
value and nothing is reported; when it is not, one warning is all that happens. So a placeholder for
a registered name without underscore gives the property the literal of that name. -/
theorem process_placeholder {config : Config} {engine : Engine}
    (accepted : start config = .ok engine) (steps : List Step) {type property name : Text}
    (registered : config.property.get? type = some (.simple property)) (isIdent : IsIdent name)
    (noAlias : config.aliases.get? (type ++ '-' :: Value.placeholder name) = none)
    (noClass : config.customClass? (type ++ '-' :: Value.placeholder name) = none)
    (unregistered : config.values.get? (Value.placeholder name) = none) :
    let className := type ++ '-' :: Value.placeholder name
    let before := engine.run steps
    let after := before.process className
    let stores := fun value : Text =>
      after.styles = before.styles.add (.ofClass className none) [⟨property, value⟩] ∧
        after.styles.get? (.ofClass className none) =
          some (OrderedSet.ofList [⟨property, value⟩]) ∧
        after.diagnostics = before.diagnostics
    (∀ literal, config.values.get? (Value.withSpaces name) = some literal →
        stores (if ['-', '-'].isPrefixOf literal then Value.customProperty literal
          else literal)) ∧
      (config.values.get? (Value.withSpaces name) = none →
        after.styles = before.styles ∧ ∃ warning : Diagnostic, warning.severity = .warning ∧
          after.diagnostics = before.diagnostics ++ [warning]) ∧
      ('_' ∉ name → ∀ literal, config.values.get? name = some literal →
        ['-', '-'].isPrefixOf literal = false → stores literal) := by
  intro className before after stores
  have reflects := reflects_run accepted steps
  have isAccepted := (start_eq_ok_iff.mp accepted).1
  have isKey := OrderedMap.mem_keys_of_get?_eq_some registered
  have read := Config.read?_placeholder isAccepted isKey isIdent
  have noBlank := Config.noBlank_placeholder isAccepted isKey isIdent
  have unsplit := Config.splitScope_of_read? isAccepted read rfl
  have resolved := Value.resolve_placeholder (ValueForm.Shape.ident isIdent).ne_nil
    (isIdent.not_mem (by decide) (by decide)) unregistered
  have outcome : Shorthand.resolve config ⟨none, type, ⟨Value.placeholder name, []⟩, none⟩ =
      (Value.resolve config.values (Value.placeholder name) []).map fun value =>
        some ⟨[⟨property, value⟩], value⟩ :=
    Shorthand.resolve_of_simple isAccepted registered
  rw [resolved] at outcome
  have declared : ∀ literal, config.values.get? (Value.withSpaces name) = some literal →
      stores (if ['-', '-'].isPrefixOf literal then Value.customProperty literal
        else literal) := by
    intro literal found
    rw [found] at outcome
    rcases reflects.process_of_shorthand noBlank (unsplit ▸ noAlias) (unsplit ▸ noClass) read
      outcome with ⟨sameReports, styles, stored⟩
    exact ⟨styles, stored (by simp), sameReports⟩
  refine ⟨declared, ?_, ?_⟩
  · intro missing
    rw [missing] at outcome
    rcases reflects.process_of_failure noBlank (unsplit ▸ noAlias) (unsplit ▸ noClass) read
      outcome with ⟨sameRules, warned⟩
    exact ⟨sameRules, _, rfl, warned⟩
  · intro noUnderscore literal found plain
    have stored := declared literal (by rwa [Value.withSpaces_of_noUnderscore noUnderscore])
    rwa [plain] at stored

/-- A name of two words, used after another class and a reset. -/
theorem process_placeholder_sample :
    let config := (Config.empty.withProperty "p".toList (.simple "padding".toList)).withValue
      "gap-2".toList "8px".toList
    let engine := (fresh config).processReserved
    let before := engine.run [.process "p-1px".toList, .reset]
    let after := before.process "p-[\x7bgap-2\x7d]".toList
    start config = .ok engine ∧
      after.styles.get? (.ofClass "p-[\x7bgap-2\x7d]".toList none) =
        some (OrderedSet.ofList [⟨"padding".toList, "8px".toList⟩]) ∧
      after.diagnostics = before.diagnostics := by
  intro config engine before after
  have accepted : start config = .ok engine := rfl
  have registered : config.property.get? "p".toList = some (.simple "padding".toList) := by decide
  have isIdent : IsIdent ("gap".toList ++ '-' :: "2".toList) :=
    .hyphen ⟨by decide, List.all_eq_true.mp (by decide)⟩
      (.word ⟨by decide, List.all_eq_true.mp (by decide)⟩)
  rcases process_placeholder accepted [.process "p-1px".toList, .reset] registered isIdent
    (by decide) (by decide) (by decide) with ⟨_, _, byName⟩
  rcases byName (by decide) "8px".toList (by decide) (by decide) with ⟨_, stored, sameReports⟩
  exact ⟨accepted, stored, sameReports⟩

/-- The value of a name with an underscore is registered, but its placeholder asks for the name with
a space instead, and the class gets no rule. -/
theorem placeholder_with_underscore :
    let config := (Config.empty.withProperty "bg".toList (.simple "background".toList)).withValue
      "my_color".toList "red".toList
    let className := "bg".toList ++ '-' :: Value.placeholder "my_color".toList
    let before := (fresh config).processReserved
    let after := before.process className
    start config = .ok before ∧
      config.property.get? "bg".toList = some (.simple "background".toList) ∧
      IsIdent "my_color".toList ∧
      config.values.get? "my_color".toList = some "red".toList ∧
      ['-', '-'].isPrefixOf "red".toList = false ∧
      config.aliases.get? className = none ∧ config.customClass? className = none ∧
      config.values.get? (Value.placeholder "my_color".toList) = none ∧
      after.styles.get? (.ofClass className none) ≠
        some (OrderedSet.ofList [⟨"background".toList, "red".toList⟩]) ∧
      after.diagnostics ≠ [] :=
  ⟨rfl, by decide, .word ⟨by decide, List.all_eq_true.mp (by decide)⟩, by decide, by decide,
    by decide, by decide, by decide, by decide, by decide⟩

end Engine

end UtilityCss
