import UtilityCss.Config.Validation
import UtilityCss.Proofs.Ordered.Map

/-!
# Accepted configurations

A configuration is accepted when validation reports no error; warnings do not matter. The errors are
the violations of three conditions: a type token has no character that the grammar gives a meaning
in front of a hyphen, every entry lists a property, and every breakpoint bounds the width. They come
in this order, and under each condition in the order of the configuration.

The reader of class names relies on the first condition. The stylesheet relies on the two others, as
no rule is empty and no media query has an empty condition.

In a configuration in which validation finds nothing at all, moreover, no alias has the name of a
semantic class.
-/

namespace UtilityCss

def Finding.isError (finding : Finding) : Bool :=
  finding.severity = .error

namespace Breakpoint

/-- A breakpoint that bounds the width on one side at least. -/
def IsBounded (breakpoint : Breakpoint) : Prop :=
  breakpoint.min ≠ none ∨ breakpoint.max ≠ none

theorem minCondition_ne_nil (width : UInt32) : minCondition width ≠ [] := by
  -- an equation of the definition would evaluate its literal
  delta minCondition
  simp

theorem maxCondition_ne_nil (width : UInt32) : maxCondition width ≠ [] := by
  delta maxCondition
  simp

theorem IsBounded.mediaCondition_ne_nil {breakpoint : Breakpoint}
    (bounded : breakpoint.IsBounded) : breakpoint.mediaCondition ≠ [] := by
  rcases breakpoint with ⟨name, least, most⟩
  cases least with
  | none =>
      cases most with
      | none => simp [IsBounded] at bounded
      | some most => exact maxCondition_ne_nil most
  | some least =>
      cases most with
      | none => exact minCondition_ne_nil least
      | some most =>
          simp only [mediaCondition, List.append_assoc]
          exact List.append_ne_nil_of_left_ne_nil (minCondition_ne_nil least) _

instance : DecidablePred IsBounded := by
  intro breakpoint
  unfold IsBounded
  infer_instance

end Breakpoint

namespace Config

variable {config : Config}

def IsAccepted (config : Config) : Prop :=
  Diagnostics.hasErrors config.validate = false

/-! ## Type tokens -/

/-- A type token that a class name can be matched with. -/
structure IsTypeToken (token : Text) : Prop where
  nonempty : token ≠ []
  noBlank : ∀ c ∈ token, isBlank c = false
  noReserved : ∀ c ∈ token, c ∉ reservedTypeChars

theorem IsTypeToken.not_mem_colon {token : Text} (isToken : IsTypeToken token) : ':' ∉ token :=
  fun member => isToken.noReserved ':' member (by decide)

theorem IsTypeToken.not_mem_bracket {token : Text} (isToken : IsTypeToken token) : '[' ∉ token :=
  fun member => isToken.noReserved '[' member (by decide)

theorem severity_of_mem_typeFindings {token : Text} {finding : Finding}
    (found : finding ∈ typeFindings token) : finding.severity = .error := by
  rw [typeFindings] at found
  split at found
  · rw [List.mem_singleton.mp found]
    rfl
  · split at found
    · rw [List.mem_singleton.mp found]
      rfl
    · cases found

theorem isTypeToken_of_typeFindings {token : Text} (noFinding : typeFindings token = []) :
    IsTypeToken token := by
  rw [typeFindings] at noFinding
  split at noFinding
  · cases noFinding
  · rename_i nonempty
    split at noFinding
    · cases noFinding
    · rename_i allowed
      simp only [List.any_eq_true, Bool.or_eq_true, List.contains_iff_mem, not_exists, not_and,
        not_or, Bool.not_eq_true] at allowed
      exact ⟨by simpa using nonempty, fun c member => (allowed c member).1,
        fun c member => (allowed c member).2⟩

theorem isTypeToken_iff {token : Text} : IsTypeToken token ↔ typeFindings token = [] := by
  refine ⟨?_, isTypeToken_of_typeFindings⟩
  rintro ⟨nonempty, noBlank, noReserved⟩
  have allowed : ∀ c ∈ token, isBlank c = false ∧ c ∉ reservedTypeChars :=
    fun c member => ⟨noBlank c member, noReserved c member⟩
  simpa [typeFindings, nonempty] using allowed

instance : DecidablePred IsTypeToken :=
  fun _ => decidable_of_iff _ isTypeToken_iff.symm

/-! ## Violations -/

/-- A configuration that an engine can be started with. -/
structure IsUsable (config : Config) : Prop where
  types : ∀ token ∈ config.property.keys, IsTypeToken token
  templates : ∀ token properties template,
    (token, .templated properties template) ∈ config.property.entries → properties ≠ []
  breakpoints : ∀ breakpoint ∈ config.breakpoints, breakpoint.IsBounded

/-- What is said of a type token that no class name can be matched with. -/
def typeViolation (token : Text) : Finding :=
  if token = [] then .emptyType else .invalidType token

/-- What makes a configuration unusable, in the order types, templates and breakpoints. -/
def violations (config : Config) : List Finding :=
  (config.property.keys.filter fun token => ¬ IsTypeToken token).map typeViolation ++
    (config.property.entries.filter fun entry => entry.2.propertyNames = []).map
      (fun entry => .emptyTemplate entry.1) ++
    (config.breakpoints.filter fun breakpoint => ¬ breakpoint.IsBounded).map
      fun breakpoint => .unboundedBreakpoint breakpoint.name

theorem violations_eq_nil_iff : config.violations = [] ↔ config.IsUsable := by
  have noTemplate : (∀ entry ∈ config.property.entries, entry.2.propertyNames ≠ []) ↔
      ∀ token properties template,
        (token, .templated properties template) ∈ config.property.entries → properties ≠ [] := by
    constructor
    · intro named token properties template member
      exact named _ member
    · rintro listed ⟨token, property | ⟨properties, template⟩⟩ member
      · exact List.cons_ne_nil property []
      · exact listed token properties template member
  simp only [violations, List.append_eq_nil_iff, List.map_eq_nil_iff, List.filter_eq_nil_iff,
    decide_eq_true_eq, not_not]
  constructor
  · rintro ⟨⟨types, templates⟩, breakpoints⟩
    exact ⟨types, noTemplate.mp templates, breakpoints⟩
  · rintro ⟨types, templates, breakpoints⟩
    exact ⟨⟨types, noTemplate.mpr templates⟩, breakpoints⟩

/-! ## Errors -/

theorem typeFindings_eq (token : Text) :
    typeFindings token = if IsTypeToken token then [] else [typeViolation token] := by
  have atMostOne : typeFindings token = [] ∨ typeFindings token = [typeViolation token] := by
    simp only [typeFindings, typeViolation, List.isEmpty_iff]
    split
    · exact Or.inr rfl
    · split
      · exact Or.inr rfl
      · exact Or.inl rfl
  by_cases isType : IsTypeToken token
  · rw [if_pos isType, isTypeToken_iff.mp isType]
  · rw [if_neg isType]
    exact atMostOne.resolve_left (mt isTypeToken_iff.mpr isType)

/-- Rows that each give one item or none give the items of the rows that give one. -/
theorem filter_flatMap_eq_map {α β : Type} {wanted : β → Bool} {gives : α → Prop}
    [DecidablePred gives] {rows : α → List β} {item : α → β}
    (each : ∀ row, (rows row).filter wanted = if gives row then [item row] else [])
    (table : List α) :
    (table.flatMap rows).filter wanted = (table.filter fun row => gives row).map item := by
  induction table with
  | nil => rfl
  | cons row table ih =>
      rw [List.flatMap_cons, List.filter_append, each, ih, List.filter_cons]
      by_cases given : gives row <;> simp [given]

theorem filter_isError_typeFindings (token : Text) :
    (typeFindings token).filter Finding.isError =
      if ¬ IsTypeToken token then [typeViolation token] else [] := by
  have isError : ∀ finding ∈ typeFindings token, finding.isError = true := by
    intro finding found
    simp [Finding.isError, severity_of_mem_typeFindings found]
  rw [List.filter_eq_self.mpr isError, typeFindings_eq, ite_not]

theorem filter_isError_templateFindings (entry : Text × PropertyEntry) :
    (templateFindings entry).filter Finding.isError =
      if entry.2.propertyNames = [] then [.emptyTemplate entry.1] else [] := by
  rcases entry with ⟨token, property | ⟨properties, template⟩⟩
  · simp [templateFindings, PropertyEntry.propertyNames]
  · simp only [templateFindings, PropertyEntry.propertyNames, List.isEmpty_iff]
    split <;> split <;> simp [Finding.isError, Finding.severity, *]

theorem filter_isError_boundFindings (breakpoint : Breakpoint) :
    (boundFindings breakpoint).filter Finding.isError =
      if ¬ breakpoint.IsBounded then [.unboundedBreakpoint breakpoint.name] else [] := by
  rcases breakpoint with ⟨name, least, most⟩
  cases least <;> cases most <;>
    simp only [boundFindings, Breakpoint.IsBounded, ne_eq, reduceCtorEq, not_true_eq_false,
      not_false_eq_true, or_false, or_true, if_true, if_false]
  case some.some => split <;> rfl
  all_goals rfl

/-- Names that come up again are no errors, so the names before do not matter. -/
theorem filter_isError_breakpointFindings (seen : List Text) (breakpoints : List Breakpoint) :
    (breakpointFindings seen breakpoints).filter Finding.isError =
      (breakpoints.flatMap boundFindings).filter Finding.isError := by
  induction breakpoints generalizing seen with
  | nil => rfl
  | cons breakpoint rest ih =>
      rw [breakpointFindings, List.filter_append, List.filter_append, ih, List.flatMap_cons,
        List.filter_append]
      split <;> rfl

theorem filter_isError_aliasFindings (entry : Text × Text) :
    (config.aliasFindings entry).filter Finding.isError = [] := by
  apply List.filter_eq_nil_iff.mpr
  intro finding found
  rcases entry with ⟨name, body⟩
  simp only [aliasFindings, List.mem_append, List.mem_ite_nil_right, List.mem_singleton,
    List.mem_map] at found
  rcases found with (⟨_, rfl⟩ | ⟨_, rfl⟩) | ⟨used, _, rfl⟩ <;>
    exact Bool.false_ne_true

/-- The errors among the findings are the violations, in order. -/
theorem filter_isError_findings (config : Config) :
    config.findings.filter Finding.isError = config.violations := by
  have noAlias : (config.aliases.entries.flatMap config.aliasFindings).filter Finding.isError =
      [] := by
    simp [List.filter_flatMap, filter_isError_aliasFindings]
  rw [findings, List.filter_append, List.filter_append, List.filter_append, noAlias,
    filter_isError_breakpointFindings, filter_flatMap_eq_map filter_isError_typeFindings,
    filter_flatMap_eq_map filter_isError_templateFindings,
    filter_flatMap_eq_map filter_isError_boundFindings, List.append_nil]
  rfl

/-- The errors of a report are the violations, in order. -/
theorem errors_validate (config : Config) :
    Diagnostics.errors config.validate = config.violations.map Finding.diagnostic := by
  rw [Diagnostics.errors, validate, List.filter_map, ← filter_isError_findings]
  rfl

theorem isAccepted_iff_isUsable : config.IsAccepted ↔ config.IsUsable := by
  have noError : config.IsAccepted ↔ Diagnostics.errors config.validate = [] := by
    rw [IsAccepted, Diagnostics.hasErrors, List.any_eq_false, Diagnostics.errors,
      List.filter_eq_nil_iff]
  rw [noError, errors_validate, List.map_eq_nil_iff, violations_eq_nil_iff]

/-! ## What acceptance guarantees -/

theorem IsAccepted.isTypeToken (accepted : config.IsAccepted) {token : Text}
    (registered : token ∈ config.property.keys) : IsTypeToken token :=
  (isAccepted_iff_isUsable.mp accepted).types token registered

theorem IsAccepted.isBounded (accepted : config.IsAccepted) {breakpoint : Breakpoint}
    (member : breakpoint ∈ config.breakpoints) : breakpoint.IsBounded :=
  (isAccepted_iff_isUsable.mp accepted).breakpoints breakpoint member

theorem IsAccepted.propertyNames_ne_nil (accepted : config.IsAccepted) {type : Text}
    {entry : PropertyEntry} (registered : config.property.get? type = some entry) :
    entry.propertyNames ≠ [] := by
  cases entry with
  | simple property => exact List.cons_ne_nil property []
  | templated properties template =>
      have member := OrderedMap.get?_eq_some_iff.mp registered
      exact (isAccepted_iff_isUsable.mp accepted).templates type properties template member

/-! ## Configurations without findings -/

section NoFinding

variable {config : Config}

theorem isAccepted_of_noFinding (noFinding : config.validate = []) : config.IsAccepted := by
  rw [IsAccepted, noFinding]
  rfl

theorem not_mem_findings (noFinding : config.validate = []) (finding : Finding) :
    finding ∉ config.findings := by
  rw [List.map_eq_nil_iff.mp noFinding]
  exact List.not_mem_nil

/-- No alias hides a semantic class. -/
theorem namesClass_of_alias (noFinding : config.validate = []) {name body : Text}
    (isAlias : config.aliases.get? name = some body) : config.namesClass name = false := by
  apply Bool.eq_false_iff.mpr
  intro shadowed
  apply not_mem_findings noFinding (.shadowedClass name)
  have reported : .shadowedClass name ∈ config.aliasFindings (name, body) := by
    simp [aliasFindings, shadowed]
  have among := List.mem_flatMap_of_mem (OrderedMap.get?_eq_some_iff.mp isAlias) reported
  simp [findings, among]

end NoFinding

end Config

end UtilityCss
