import UtilityCss.Proofs.Expansion.Failure

/-!
# Classes that the grammar reads

A class name may be refused by the grammar, and then nothing happens. Once a class name is read, it
leaves a trace: its rule, or one warning. The warning stands for a placeholder that no registered
value fills, and the rules are then left alone. A token is never of an unknown type, since the
grammar knows the types of the configuration only; and only a list without any property is passed
over.

What stands behind the scope of the class name must be neither alias nor semantic class, as these
are looked up before the grammar is asked.
-/

namespace UtilityCss

namespace Grammar

theorem ne_nil_of_read? {grammar : Grammar} {className : Text} {token : ClassToken}
    (read : grammar.read? className = some token) : className ≠ [] := by
  rw [← (read?_sound read).2]
  simp [ClassToken.render]

end Grammar

namespace Config

variable {config : Config} {className : Text} {token : ClassToken}

/-- A token that is read is of a registered type or lists properties. -/
theorem kind_of_read? (read : config.grammar.read? className = some token) :
    token.kind ∈ config.property.keys ∨ ValueForm.Shape .bracket token.kind :=
  (Grammar.read?_sound read).1.kind.imp_left Grammar.mem_ofTypes.mp

theorem resolution_of_token
    (noAlias : config.aliases.get? (Resolution.splitScope className).2 = none)
    (noClass : config.customClass? (Resolution.splitScope className).2 = none)
    (read : config.grammar.read? className = some token) :
    config.resolution className = ⟨token.scope,
      match Shorthand.resolve config token with
      | .ok (some shorthand) => ⟨shorthand.declarations, []⟩
      | .ok none => .empty
      | .error cause => ⟨[], [⟨className, cause⟩]⟩⟩ := by
  rw [resolution_of_unnamed noAlias noClass, Resolution.ofShorthand, Expansion.ofShorthand, read]
  rfl

end Config

namespace Engine

namespace Reflects

variable {config : Config} {names : List Text} {engine : Engine} {className : Text}
  {token : ClassToken}

/-- A token that stands for a shorthand adds the declarations of the shorthand under its key and is
not reported. -/
theorem process_of_shorthand (reflects : Reflects config names engine)
    (noBlank : ∀ c ∈ className, isBlank c = false)
    (noAlias : config.aliases.get? (Resolution.splitScope className).2 = none)
    (noClass : config.customClass? (Resolution.splitScope className).2 = none)
    (read : config.grammar.read? className = some token) {shorthand : Shorthand}
    (resolved : Shorthand.resolve config token = .ok (some shorthand)) :
    let after := engine.process className
    let key := config.ruleKey className token.scope
    after.diagnostics = engine.diagnostics ∧
      after.styles = engine.styles.add key shorthand.declarations ∧
      (shorthand.declarations ≠ [] →
        after.styles.get? key = some (OrderedSet.ofList shorthand.declarations)) := by
  intro after key
  have resolution := Config.resolution_of_token noAlias noClass read
  rw [resolved] at resolution
  have isKey : config.keyOf className = key := by rw [Config.keyOf, resolution]
  have declared : config.declarationsOf className = shorthand.declarations := by
    rw [Config.declarationsOf, resolution]
  have noWarning : config.warningsOf className = [] := by
    rw [Config.warningsOf, resolution]
    rfl
  have isWord := Text.words_of_noBlank (Grammar.ne_nil_of_read? read) noBlank
  rcases reflects.process_of_word isWord with ⟨styles, diagnostics⟩
  rw [isKey, declared] at styles
  rw [noWarning, List.append_nil] at diagnostics
  refine ⟨diagnostics, styles, ?_⟩
  intro nonempty
  have seen : className ∈ names ++ Text.words className := by simp [isWord]
  rw [← isKey, ← declared]
  exact (reflects.process className).get?_keyOf seen (declared.symm ▸ nonempty)

/-- A token that fails leaves the rules as they are and is reported once. -/
theorem process_of_failure (reflects : Reflects config names engine)
    (noBlank : ∀ c ∈ className, isBlank c = false)
    (noAlias : config.aliases.get? (Resolution.splitScope className).2 = none)
    (noClass : config.customClass? (Resolution.splitScope className).2 = none)
    (read : config.grammar.read? className = some token) {cause : UnknownValue}
    (failed : Shorthand.resolve config token = .error cause) :
    let after := engine.process className
    after.styles = engine.styles ∧
      after.diagnostics = engine.diagnostics ++ [skipWarning ⟨className, cause⟩] := by
  intro after
  have resolution := Config.resolution_of_token noAlias noClass read
  rw [failed] at resolution
  have noDeclaration : config.declarationsOf className = [] := by
    rw [Config.declarationsOf, resolution]
  have warned : config.warningsOf className = [skipWarning ⟨className, cause⟩] := by
    rw [Config.warningsOf, resolution]
    rfl
  have isWord := Text.words_of_noBlank (Grammar.ne_nil_of_read? read) noBlank
  rcases reflects.process_of_word isWord with ⟨styles, diagnostics⟩
  rw [noDeclaration, StyleStore.add_nil] at styles
  rw [warned] at diagnostics
  exact ⟨styles, diagnostics⟩

end Reflects

/-- Processing a class that the grammar reads, after any run. The type of its token is never
unknown. A class that needs an unregistered value is reported by one warning and leaves the rules as
they are. Any other class is not reported, and a rule with at least one declaration is stored under
its key, unless the type is a list without any property. -/
theorem process_of_read? {config : Config} {engine : Engine}
    (accepted : start config = .ok engine) (steps : List Step) {className : Text}
    {token : ClassToken} (noBlank : ∀ c ∈ className, isBlank c = false)
    (noAlias : config.aliases.get? (Resolution.splitScope className).2 = none)
    (noClass : config.customClass? (Resolution.splitScope className).2 = none)
    (read : config.grammar.read? className = some token) :
    let before := engine.run steps
    let after := before.process className
    Shorthand.resolve config token ≠ .ok none ∧
      (Shorthand.NeedsUnknown config token →
        after.styles = before.styles ∧
          ∃ warning : Diagnostic, warning.severity = .warning ∧
            after.diagnostics = before.diagnostics ++ [warning]) ∧
      (¬ Shorthand.NeedsUnknown config token →
        after.diagnostics = before.diagnostics ∧
          (token.ListsNothing → after.styles = before.styles) ∧
          (¬ token.ListsNothing → ∃ declarations : List Declaration, declarations ≠ [] ∧
            after.styles.get? (config.ruleKey className token.scope) =
              some (OrderedSet.ofList declarations))) := by
  intro before after
  have reflects := reflects_run accepted steps
  have isAccepted := (start_eq_ok_iff.mp accepted).1
  rcases Shorthand.resolve_cases isAccepted (Config.kind_of_read? read) with
    ⟨needed, cause, failed⟩ | ⟨known, shorthand, resolved, listed⟩
  · rcases reflects.process_of_failure noBlank noAlias noClass read failed with
      ⟨sameRules, warned⟩
    refine ⟨by simp [failed], ?_, fun known => absurd needed known⟩
    intro _
    exact ⟨sameRules, skipWarning ⟨className, cause⟩, rfl, warned⟩
  · rcases reflects.process_of_shorthand noBlank noAlias noClass read resolved with
      ⟨sameReports, styles, stored⟩
    refine ⟨by simp [resolved], fun needed => absurd needed known, ?_⟩
    intro _
    refine ⟨sameReports, ?_, ?_⟩
    · intro lists
      rw [styles, listed.mpr lists, StyleStore.add_nil]
    · intro lists
      have nonempty := mt listed.mp lists
      exact ⟨shorthand.declarations, nonempty, stored nonempty⟩

/-- A class with a pseudo-class whose placeholder is not registered, and one that goes into the media
query of its breakpoint. -/
theorem process_of_read?_sample :
    let before := (fresh Config.sample).processReserved.run [.process "btn".toList, .reset]
    let warned := before.process "hover:bg-[{no}]".toList
    let stored := before.process "sm:bg-white".toList
    start Config.sample = .ok (fresh Config.sample).processReserved ∧
      warned.styles = before.styles ∧
      (∃ warning : Diagnostic, warning.severity = .warning ∧
        warned.diagnostics = before.diagnostics ++ [warning]) ∧
      stored.diagnostics = before.diagnostics ∧
      ∃ declarations : List Declaration, declarations ≠ [] ∧
        stored.styles.get? (.media "(max-width: 639px)".toList "sm\\:bg-white".toList) =
          some (OrderedSet.ofList declarations) := by
  intro before warned stored
  have accepted : start Config.sample = .ok (fresh Config.sample).processReserved := rfl
  let unknown : ClassToken := ⟨some "hover".toList, "bg".toList, ⟨"[{no}]".toList, []⟩, none⟩
  let known : ClassToken := ⟨some "sm".toList, "bg".toList, ⟨"white".toList, []⟩, none⟩
  have readUnknown : Config.sample.grammar.read? "hover:bg-[{no}]".toList = some unknown := by
    decide
  have readKnown : Config.sample.grammar.read? "sm:bg-white".toList = some known := by decide
  have needed : Shorthand.NeedsUnknown Config.sample unknown := by
    refine Or.inl ⟨by decide, "{no}".toList, "no".toList, by decide, ?_, by decide⟩
    exact Value.HasPlaceholder.here (by decide) (by decide)
  have notNeeded : ¬ Shorthand.NeedsUnknown Config.sample known := by
    rintro (⟨unregistered, _⟩ | ⟨_, _, _, _, isSecondary, _⟩)
    · exact absurd unregistered (by decide)
    · cases isSecondary
  have lists : ¬ known.ListsNothing := by
    rintro ⟨list, isList, _⟩
    cases isList
  rcases process_of_read? accepted [.process "btn".toList, .reset]
    (Text.eq_false_of_any (by decide)) (by decide) (by decide) readUnknown with
    ⟨_, warns, _⟩
  rcases process_of_read? accepted [.process "btn".toList, .reset]
    (Text.eq_false_of_any (by decide)) (by decide) (by decide) readKnown with
    ⟨_, _, stores⟩
  rcases warns needed with ⟨sameRules, warning⟩
  rcases stores notNeeded with ⟨sameReports, _, rule⟩
  exact ⟨accepted, sameRules, warning, sameReports, rule lists⟩

end Engine

end UtilityCss
