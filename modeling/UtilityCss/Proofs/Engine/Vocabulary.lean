import UtilityCss.Proofs.Expansion.Failure

/-!
# Which entries of a vocabulary can be reached

Validation looks at type tokens, templates, bounds and alias bodies, but not at the characters in
the names of semantic classes, aliases and breakpoints. A name reaches its entry when the reader
sees it as one class name without scope. Any other name is dead: it is cut at its blanks, or its
start is taken for a scope. In the same way a breakpoint is reached by its name when the name is a
scope.

What the reader makes of a class name is settled by the order alias, semantic class, shorthand
class. With no finding no alias hides a semantic class, so both kinds of entry keep their own
declarations; the class `[color]-red` is read as a shorthand class and has declarations unless an
alias of that name takes its place.
-/

namespace UtilityCss

namespace Grammar

/-- A text that is one class name and has no scope. -/
structure IsUnscopedName (name : Text) : Prop where
  nonempty : name ≠ []
  noBlank : ∀ c ∈ name, isBlank c = false
  noScope : ∀ scope bare, Text.IsRun isScopeChar scope → name ≠ scope ++ ':' :: bare

theorem splitScope?_eq_none_iff {name : Text} :
    splitScope? name = none ↔
      ∀ scope bare, Text.IsRun isScopeChar scope → name ≠ scope ++ ':' :: bare := by
  constructor
  · intro unsplit scope bare isScope whole
    rw [splitScope?_eq_some_iff.mpr ⟨whole, isScope⟩] at unsplit
    cases unsplit
  · intro noScope
    apply Option.eq_none_iff_forall_ne_some.mpr
    rintro ⟨scope, bare⟩ split
    rcases splitScope?_eq_some_iff.mp split with ⟨whole, isScope⟩
    exact noScope scope bare isScope whole

theorem IsUnscopedName.words_eq {name : Text} (isName : IsUnscopedName name) :
    Text.words name = [name] :=
  Text.words_of_noBlank isName.nonempty isName.noBlank

theorem IsUnscopedName.splitScope?_eq {name : Text} (isName : IsUnscopedName name) :
    splitScope? name = none :=
  splitScope?_eq_none_iff.mpr isName.noScope

/-- The shorthand class that writes a value to one property, named without any type token. -/
def colorRed : Text :=
  "[color]-red".toList

theorem splitScope?_colorRed : splitScope? colorRed = none := by decide

theorem noBlank_colorRed : ∀ c ∈ colorRed, isBlank c = false :=
  Text.eq_false_of_any (by decide)

end Grammar

namespace Expansion

/-- What the class names of a body stand for together. -/
theorem declarations_ofNames (config : Config) (grammar : Grammar) (names : List Text) :
    (ofNames config grammar names).declarations =
      names.flatMap fun name => (ofShorthand config grammar name).declarations := by
  induction names with
  | nil => rfl
  | cons name names ih =>
      rw [List.flatMap_cons, ← ih]
      rfl

end Expansion

namespace Config

open Grammar (IsUnscopedName colorRed)

variable {config : Config}

/-- The declarations that an alias body stands for. -/
def bodyDeclarations (config : Config) (body : Text) : List Declaration :=
  (Text.words body).flatMap fun token =>
    (Expansion.ofShorthand config config.grammar token).declarations

theorem bodyDeclarations_ne_nil_iff {body : Text} :
    config.bodyDeclarations body ≠ [] ↔
      ∃ token ∈ Text.words body,
        (Expansion.ofShorthand config config.grammar token).declarations ≠ [] := by
  simp [bodyDeclarations, List.flatMap_eq_nil_iff]

theorem classDeclarations_ne_nil {name : Text} (isClass : config.namesClass name = true) :
    config.classDeclarations name ≠ [] := by
  rcases List.any_eq_true.mp isClass with ⟨_, isGroup, named⟩
  rcases List.mem_map.mp isGroup with ⟨⟨group, names⟩, member, rfl⟩
  rcases Option.isSome_iff_exists.mp named with ⟨value, found⟩
  have declared : ⟨PropertyName.kebabCase group, value⟩ ∈ config.classDeclarations name := by
    apply List.mem_filterMap.mpr
    refine ⟨(group, names), member, ?_⟩
    change (names.get? name).map _ = _
    rw [found, Option.map_some]
  exact List.ne_nil_of_mem declared

theorem customClass?_ne_nil {name : Text} {declarations : List Declaration}
    (found : config.customClass? name = some declarations) : declarations ≠ [] := by
  rw [customClass?] at found
  split at found
  · cases found
  · rename_i nonempty
    cases found
    simpa using nonempty

theorem customClass?_of_namesClass {name : Text} (isClass : config.namesClass name = true) :
    config.customClass? name = some (config.classDeclarations name) := by
  rw [customClass?]
  split
  · rename_i empty
    exact absurd empty (classDeclarations_ne_nil isClass)
  · rfl

/-! ## What unscoped names stand for -/

/-- What a name without scope stands for, by the first of the three readings that knows it. -/
theorem declarationsOf_of_noScope {name : Text} (noScope : Grammar.splitScope? name = none) :
    config.declarationsOf name =
      match config.aliases.get? name with
      | some body => config.bodyDeclarations body
      | none =>
        match config.customClass? name with
        | some declarations => declarations
        | none => (Expansion.ofShorthand config config.grammar name).declarations := by
  have unsplit : Resolution.splitScope name = (none, name) := by
    rw [Resolution.splitScope, noScope]
  change (Resolution.ofName config config.grammar name).expansion.declarations = _
  simp only [Resolution.ofName, unsplit, alias?]
  cases config.aliases.get? name with
  | some body =>
      simp only [Option.map_some]
      exact Expansion.declarations_ofNames config config.grammar (Text.words body)
  | none =>
      simp only [Option.map_none]
      cases config.customClass? name <;> rfl

theorem declarationsOf_class (noFinding : config.validate = []) {name : Text}
    (isClass : config.namesClass name = true) (noScope : Grammar.splitScope? name = none) :
    config.declarationsOf name = config.classDeclarations name := by
  rw [declarationsOf_of_noScope noScope]
  cases isAlias : config.aliases.get? name with
  | some body =>
      rw [namesClass_of_alias noFinding isAlias] at isClass
      cases isClass
  | none => simp only [customClass?_of_namesClass isClass]

theorem declarationsOf_alias {name body : Text} (isAlias : config.aliases.get? name = some body)
    (noScope : Grammar.splitScope? name = none) :
    config.declarationsOf name = config.bodyDeclarations body := by
  rw [declarationsOf_of_noScope noScope, isAlias]

/-! ## The class behind the scopes of breakpoints -/

theorem read?_colorRed (accepted : config.IsAccepted) :
    config.grammar.read? colorRed = some ⟨none, "[color]".toList, ⟨"red".toList, []⟩, none⟩ := by
  have shape : ValueForm.Shape .bracket ('[' :: "color".toList ++ [']']) :=
    .bracket ⟨by decide, List.all_eq_true.mp (by decide)⟩
  exact (accepted.read?_of_list shape "red".toList).trans (by decide)

theorem exists_resolve_red (values : ValueRegistry) :
    ∃ value, Value.resolve values "red".toList [] = .ok value := by
  cases registered : values.get? "red".toList with
  | some literal => exact ⟨literal, Value.resolve_of_registered registered⟩
  | none =>
      refine ⟨"red".toList, ?_⟩
      rw [Value.resolve_of_unregistered registered (by decide), if_neg (by decide)]
      rfl

theorem ofShorthand_colorRed_ne_nil (noFinding : config.validate = []) :
    (Expansion.ofShorthand config config.grammar colorRed).declarations ≠ [] := by
  rcases exists_resolve_red config.values with ⟨value, resolved⟩
  have result : Shorthand.resolve config ⟨none, "[color]".toList, ⟨"red".toList, []⟩, none⟩ =
      .ok (some ⟨Shorthand.listedDeclarations config "[color]".toList value, value⟩) := by
    rw [Shorthand.resolve_of_bracket (by decide), Shorthand.resolveQuantity, resolved]
    rfl
  have accepted := isAccepted_of_noFinding noFinding
  simp only [Expansion.ofShorthand, read?_colorRed accepted, result]
  exact mt (Shorthand.listedDeclarations_eq_nil_iff accepted).mp (by decide)

theorem declarationsOf_colorRed_eq_nil_iff (noFinding : config.validate = []) :
    config.declarationsOf colorRed = [] ↔
      ∃ body, config.aliases.get? colorRed = some body ∧ config.bodyDeclarations body = [] := by
  rw [declarationsOf_of_noScope Grammar.splitScope?_colorRed]
  cases config.aliases.get? colorRed with
  | some body => simp
  | none =>
      cases isClass : config.customClass? colorRed with
      | some declarations => simp [customClass?_ne_nil isClass]
      | none => simp [ofShorthand_colorRed_ne_nil noFinding]

/-! ## Keys of names -/

/-- A name that stands for declarations has a plain rule without pseudo-class exactly when no scope
is split off. -/
theorem keyOf_eq_ofClass_iff (accepted : config.IsAccepted) {name : Text}
    (nonempty : config.declarationsOf name ≠ []) :
    config.keyOf name = .ofClass name none ↔ Grammar.splitScope? name = none := by
  constructor
  · intro isPlain
    apply Option.eq_none_iff_forall_ne_some.mpr
    rintro ⟨scope, bare⟩ split
    rcases Grammar.splitScope?_eq_some_iff.mp split with ⟨rfl, isScope⟩
    rw [keyOf_eq_scopedKey accepted isScope nonempty,
      ← config.ruleKey_eq_scopedKey _ isScope.2, ruleKey] at isPlain
    split at isPlain
    · cases isPlain
    · cases (Selector.ofClass_inj (RuleKey.plain.inj isPlain)).2
  · intro noScope
    have unscoped : (config.resolution name).scope = none := by
      rw [resolution, ← grammar, scope_ofName accepted nonempty, Resolution.splitScope, noScope]
    rw [keyOf, unscoped]
    rfl

end Config

namespace Engine

open Grammar (IsUnscopedName colorRed)

variable {config : Config} {engine : Engine}

/-- A name with declarations of its own as long as it is unscoped: it has a plain rule with them
after it was processed exactly when it is one class name without scope. -/
theorem get?_process_name_iff (accepted : start config = .ok engine) (steps : List Step)
    {name : Text} {own : List Declaration} (nonempty : own ≠ [])
    (resolves : Grammar.splitScope? name = none → config.declarationsOf name = own) :
    ((engine.run steps).process name).styles.get? (.ofClass name none) =
        some (OrderedSet.ofList own) ↔ IsUnscopedName name := by
  have isAccepted := (start_eq_ok_iff.mp accepted).1
  have isFor : (RuleKey.ofClass name none).IsFor name := Or.inl ⟨none, rfl⟩
  rw [((reflects_run accepted steps).process name).get?_of_isFor isFor]
  constructor
  · intro stored
    split at stored
    · rename_i holds
      rcases holds with ⟨isKey, seen, declared⟩
      have isWord : ∃ classList, name ∈ Text.words classList := by
        rcases List.mem_append.mp seen with before | isWord
        · exact isWord_of_mem_namesSeen before
        · exact ⟨name, isWord⟩
      rcases isWord with ⟨classList, isWord⟩
      have isName := Text.noBlank_of_mem_words isWord
      have noScope := (Config.keyOf_eq_ofClass_iff isAccepted declared).mp isKey.symm
      exact ⟨isName.1, isName.2, Grammar.splitScope?_eq_none_iff.mp noScope⟩
    · cases stored
  · intro isName
    have isOwn := resolves isName.splitScope?_eq
    have isKey : config.keyOf name = .ofClass name none :=
      (Config.keyOf_eq_ofClass_iff isAccepted (isOwn.symm ▸ nonempty)).mpr isName.splitScope?_eq
    simp [isKey, isOwn, nonempty, isName.words_eq]

/-- The class `[color]-red` behind the name of a breakpoint goes into the media query of the
breakpoint. -/
theorem get?_process_breakpoint (accepted : start config = .ok engine) (steps : List Step)
    {breakpoint : Breakpoint} (isFirst : config.breakpoint? breakpoint.name = some breakpoint)
    (isScope : Text.IsRun Grammar.isScopeChar breakpoint.name) :
    ((engine.run steps).process (breakpoint.name ++ ':' :: colorRed)).styles.get?
        (.ofMedia breakpoint.mediaCondition (breakpoint.name ++ ':' :: colorRed)) =
      if config.declarationsOf colorRed = [] then none
      else some (OrderedSet.ofList (config.declarationsOf colorRed)) := by
  have isAccepted := (start_eq_ok_iff.mp accepted).1
  have isFor : (RuleKey.ofMedia breakpoint.mediaCondition
      (breakpoint.name ++ ':' :: colorRed)).IsFor (breakpoint.name ++ ':' :: colorRed) :=
    Or.inr ⟨_, rfl⟩
  have same : config.declarationsOf (breakpoint.name ++ ':' :: colorRed) =
      config.declarationsOf colorRed :=
    Config.declarationsOf_of_scope isAccepted isScope Grammar.splitScope?_colorRed
  have isWord : Text.words (breakpoint.name ++ ':' :: colorRed) =
      [breakpoint.name ++ ':' :: colorRed] :=
    Text.words_append_cons_of_noBlank (by decide)
      (fun c member => Grammar.noBlank_of_isScopeChar (isScope.2 c member))
      Grammar.noBlank_colorRed
  rw [((reflects_run accepted steps).process _).get?_of_isFor isFor, same, isWord]
  by_cases empty : config.declarationsOf colorRed = []
  · simp [empty]
  · have isKey : config.keyOf (breakpoint.name ++ ':' :: colorRed) =
        .ofMedia breakpoint.mediaCondition (breakpoint.name ++ ':' :: colorRed) := by
      rw [Config.keyOf_eq_scopedKey isAccepted isScope (same.symm ▸ empty), Config.scopedKey]
      rw [Config.breakpoint?] at isFirst
      simp only [isFirst]
      rfl
    simp [empty, isKey]

/-- The entries of a configuration without findings, after any run. A semantic class, and an alias
with a token in its body that has declarations, gets its plain rule with its own declarations
exactly when its name is one class name without scope. A breakpoint whose name is a scope and the
first of its kind takes the class `[color]-red` into its media query, unless an alias of that name
leaves the class without declarations. -/
theorem process_entry (noFinding : config.validate = []) :
    ∃ engine, start config = .ok engine ∧ ∀ steps : List Step,
      let before := engine.run steps
      (∀ name, config.namesClass name = true →
        ((before.process name).styles.get? (.ofClass name none) =
            some (OrderedSet.ofList (config.classDeclarations name)) ↔ IsUnscopedName name)) ∧
      (∀ name body, config.aliases.get? name = some body →
        (∃ token ∈ Text.words body,
          (Expansion.ofShorthand config config.grammar token).declarations ≠ []) →
        ((before.process name).styles.get? (.ofClass name none) =
            some (OrderedSet.ofList (config.bodyDeclarations body)) ↔ IsUnscopedName name)) ∧
      (∀ breakpoint, config.breakpoint? breakpoint.name = some breakpoint →
        Text.IsRun Grammar.isScopeChar breakpoint.name →
        let className := breakpoint.name ++ ':' :: colorRed
        (before.process className).styles.get?
            (.ofMedia breakpoint.mediaCondition className) =
          if config.declarationsOf colorRed = [] then none
          else some (OrderedSet.ofList (config.declarationsOf colorRed))) ∧
      (config.declarationsOf colorRed = [] ↔
        ∃ body, config.aliases.get? colorRed = some body ∧ ∀ token ∈ Text.words body,
          (Expansion.ofShorthand config config.grammar token).declarations = []) := by
  have accepted : start config = .ok (fresh config).processReserved :=
    start_eq_ok_iff.mpr ⟨Config.isAccepted_of_noFinding noFinding, rfl⟩
  refine ⟨_, accepted, ?_⟩
  intro steps before
  refine ⟨?_, ?_, ?_, ?_⟩
  · intro name isClass
    exact get?_process_name_iff accepted steps (Config.classDeclarations_ne_nil isClass)
      fun noScope => Config.declarationsOf_class noFinding isClass noScope
  · intro name body isAlias hasToken
    exact get?_process_name_iff accepted steps (Config.bodyDeclarations_ne_nil_iff.mpr hasToken)
      fun noScope => Config.declarationsOf_alias isAlias noScope
  · intro breakpoint isFirst isScope className
    exact get?_process_breakpoint accepted steps isFirst isScope
  · rw [Config.declarationsOf_colorRed_eq_nil_iff noFinding]
    simp only [Config.bodyDeclarations, List.flatMap_eq_nil_iff]

/-- An entry of each kind that is reached by its name. -/
theorem process_entry_sample :
    Config.sample.validate = [] ∧ ∃ engine, start Config.sample = .ok engine ∧
      let before := engine.run [.process "p-1px".toList, .reset]
      (before.process "box".toList).styles.get? (.ofClass "box".toList none) =
          some (OrderedSet.ofList [⟨"display".toList, "flex".toList⟩]) ∧
        (before.process "btn".toList).styles.get? (.ofClass "btn".toList none) =
          some (OrderedSet.ofList
            [⟨"padding".toList, "1px".toList⟩, ⟨"background".toList, "#fff".toList⟩]) ∧
        (before.process "sm:[color]-red".toList).styles.get?
            (.ofMedia "(max-width: 639px)".toList "sm:[color]-red".toList) =
          some (OrderedSet.ofList [⟨"color".toList, "red".toList⟩]) := by
  have noFinding : Config.sample.validate = [] := by decide
  rcases process_entry noFinding with ⟨engine, accepted, reached⟩
  rcases reached [.process "p-1px".toList, .reset] with ⟨classes, aliases, breakpoints, _⟩
  have unscoped : ∀ name ∈ ["box".toList, "btn".toList], IsUnscopedName name := by
    intro name member
    have noScope : Grammar.splitScope? name = none := by
      revert name
      decide
    have isName : name ≠ [] ∧ name.any isBlank = false := by
      revert name
      decide
    exact ⟨isName.1, Text.eq_false_of_any isName.2, Grammar.splitScope?_eq_none_iff.mp noScope⟩
  have isScope : Text.IsRun Grammar.isScopeChar "sm".toList :=
    ⟨by decide, List.all_eq_true.mp (by decide)⟩
  refine ⟨noFinding, engine, accepted, ?_, ?_, ?_⟩
  · exact ((classes "box".toList (by decide)).mpr (unscoped _ (by simp))).trans (by decide)
  · have hasToken : ∃ token ∈ Text.words "p-1px bg-white p-1px".toList,
        (Expansion.ofShorthand Config.sample Config.sample.grammar token).declarations ≠ [] :=
      ⟨"p-1px".toList, by decide, by decide⟩
    exact ((aliases "btn".toList _ (by decide) hasToken).mpr (unscoped _ (by simp))).trans
      (by decide)
  · exact (breakpoints ⟨"sm".toList, none, some 639⟩ (by decide) isScope).trans (by decide)

/-- Validation finds nothing in a configuration whose entries are all dead: a semantic class whose
name is split at a scope, an alias whose name holds a blank, a breakpoint whose name is no scope,
and a breakpoint behind which an alias takes the place of the class. -/
theorem exists_dead_entries :
    let config := ((((((Config.empty.withProperty "p".toList (.simple "padding".toList)).withClass
      "display".toList "card:wide".toList "flex".toList).withAlias
      "two names".toList "p-1px".toList).withAlias
      "[color]-red".toList "plain".toList).withBreakpoint
      ⟨"sm_up".toList, none, some 639⟩).withBreakpoint ⟨"sm".toList, none, some 639⟩)
    let engine := (fresh config).processReserved
    config.validate = [] ∧ start config = .ok engine ∧
      config.namesClass "card:wide".toList = true ∧
      (engine.process "card:wide".toList).styles.entries = [] ∧
      (Expansion.ofShorthand config config.grammar "p-1px".toList).declarations ≠ [] ∧
      (engine.process "two names".toList).styles.entries = [] ∧
      config.breakpoint? "sm_up".toList = some ⟨"sm_up".toList, none, some 639⟩ ∧
      (engine.process "sm_up:[color]-red".toList).styles.entries = [] ∧
      config.breakpoint? "sm".toList = some ⟨"sm".toList, none, some 639⟩ ∧
      (engine.process "sm:[color]-red".toList).styles.entries = [] :=
  ⟨by decide, rfl, by decide, by decide, by decide, by decide, by decide, by decide, by decide,
    by decide⟩

end Engine

end UtilityCss
