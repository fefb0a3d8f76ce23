import Mathlib.Data.Finset.Card
import Mathlib.Data.List.Infix
import UtilityCss.Engine.Basic
import UtilityCss.Proofs.Config.Acceptance
import UtilityCss.Proofs.Text.Cutting

/-!
# What validation reports

An engine starts exactly when a configuration is usable, and the refusal is worded by all
violations. The warnings are counted kind by kind. A template, a pair of bounds or an alias is
looked at on its own. A repeated breakpoint depends on the names before it: every breakpoint is the
first of its name or one of the repeated ones.
-/

namespace UtilityCss

def Finding.isWarning (finding : Finding) : Bool :=
  !finding.isError

/-- An entry whose template has no slot for the primary value. -/
def PropertyEntry.IsConstant : PropertyEntry → Prop
  | simple _ => False
  | templated _ template => ¬ ['{', '0', '}'] <:+: template

instance : DecidablePred PropertyEntry.IsConstant := by
  intro entry
  cases entry <;> unfold PropertyEntry.IsConstant <;> infer_instance

namespace Breakpoint

/-- A breakpoint that matches no width, since its bounds are the wrong way round. -/
def IsReversed (breakpoint : Breakpoint) : Prop :=
  ∃ least ∈ breakpoint.min, ∃ most ∈ breakpoint.max, most < least

instance : DecidablePred IsReversed := by
  intro breakpoint
  unfold IsReversed
  infer_instance

end Breakpoint

namespace Config

variable {config : Config}

/-! ## Warnings -/

/-- Some property group gives the class of that name a value. -/
def IsClassName (config : Config) (name : Text) : Prop :=
  ∃ names ∈ config.classes.values, name ∈ names.keys

instance : DecidablePred config.IsClassName := by
  intro name
  unfold IsClassName
  infer_instance

theorem namesClass_iff {name : Text} : config.namesClass name = true ↔ config.IsClassName name := by
  simp only [namesClass, List.any_eq_true, OrderedMap.contains_iff_mem_keys, IsClassName]

theorem namesAliasOrClass_iff {name : Text} :
    config.namesAliasOrClass name = true ↔
      name ∈ config.aliases.keys ∨ config.IsClassName name := by
  rw [namesAliasOrClass, Bool.or_eq_true, OrderedMap.contains_iff_mem_keys, namesClass_iff]

/-- Rows that each have one wanted item or none have as many as there are rows with one. -/
theorem countP_flatMap_eq_countP {α β : Type} {wanted : β → Bool} {gives : α → Prop}
    [DecidablePred gives] {rows : α → List β}
    (each : ∀ row, (rows row).countP wanted = if gives row then 1 else 0) (table : List α) :
    (table.flatMap rows).countP wanted = table.countP fun row => gives row := by
  induction table with
  | nil => rfl
  | cons row table ih =>
      rw [List.flatMap_cons, List.countP_append, each, ih, List.countP_cons, Nat.add_comm]
      simp only [decide_eq_true_eq]

theorem countP_isWarning_types (types : List Text) :
    (types.flatMap typeFindings).countP Finding.isWarning = 0 := by
  apply List.countP_eq_zero.mpr
  intro finding found
  rcases List.mem_flatMap.mp found with ⟨type, _, ofType⟩
  simp [Finding.isWarning, Finding.isError, severity_of_mem_typeFindings ofType]

theorem countP_isWarning_templateFindings (entry : Text × PropertyEntry) :
    (templateFindings entry).countP Finding.isWarning = if entry.2.IsConstant then 1 else 0 := by
  rcases entry with ⟨token, property | ⟨properties, template⟩⟩
  · simp [templateFindings, PropertyEntry.IsConstant]
  · simp only [templateFindings, PropertyEntry.IsConstant, Text.occursIn_iff, ite_not]
    split <;> split <;> rfl

theorem countP_isWarning_boundFindings (breakpoint : Breakpoint) :
    (boundFindings breakpoint).countP Finding.isWarning =
      if breakpoint.IsReversed then 1 else 0 := by
  rcases breakpoint with ⟨name, least, most⟩
  cases least <;> cases most <;>
    simp only [boundFindings, Breakpoint.IsReversed, Option.mem_def, Option.some.injEq,
      reduceCtorEq, false_and, exists_false, and_false, exists_eq_left', if_false]
  case some.some => split <;> rfl
  all_goals rfl

/-- A further item is new, or it was seen before and adds nothing. -/
theorem card_sdiff_cons {α : Type} [DecidableEq α] (item : α) (items seen : List α) :
    ((item :: items).toFinset \ seen.toFinset).card =
      (items.toFinset \ (item :: seen).toFinset).card + if item ∈ seen then 0 else 1 := by
  by_cases before : item ∈ seen
  · have known : item ∈ seen.toFinset := List.mem_toFinset.mpr before
    rw [if_pos before, Nat.add_zero, List.toFinset_cons, List.toFinset_cons,
      Finset.insert_sdiff_of_mem _ known, Finset.insert_eq_of_mem known]
  · have new : item ∉ items.toFinset \ (item :: seen).toFinset := by simp
    rw [if_neg before, ← Finset.card_insert_of_notMem new]
    congr 1
    ext other
    by_cases same : other = item <;> simp [same, before]

/-- Every breakpoint is the first of its name or repeats one, be it seen before or in the list. -/
theorem countP_isWarning_breakpointFindings (seen : List Text) (breakpoints : List Breakpoint) :
    (breakpointFindings seen breakpoints).countP Finding.isWarning +
        ((breakpoints.map Breakpoint.name).toFinset \ seen.toFinset).card =
      breakpoints.length + breakpoints.countP fun breakpoint => breakpoint.IsReversed := by
  induction breakpoints generalizing seen with
  | nil => simp [breakpointFindings]
  | cons breakpoint rest ih =>
      have later := ih (breakpoint.name :: seen)
      have repeated : (if seen.contains breakpoint.name then
          [Finding.duplicateBreakpoint breakpoint.name] else []).countP Finding.isWarning =
            if breakpoint.name ∈ seen then 1 else 0 := by
        simp only [List.contains_iff_mem]
        split <;> rfl
      rw [breakpointFindings, List.countP_append, List.countP_append, repeated,
        countP_isWarning_boundFindings, List.map_cons, card_sdiff_cons, List.length_cons,
        List.countP_cons]
      simp only [decide_eq_true_eq]
      split <;> omega

theorem countP_isWarning_aliasFindings (entry : Text × Text) :
    (config.aliasFindings entry).countP Finding.isWarning =
      (if Text.isAllBlank entry.2 then 1 else 0) + (if config.IsClassName entry.1 then 1 else 0) +
        (Text.words entry.2).countP fun token =>
          token ∈ config.aliases.keys ∨ config.IsClassName token := by
  rcases entry with ⟨name, body⟩
  have nested : ((Text.words body).filter config.namesAliasOrClass).length =
      (Text.words body).countP fun token =>
        token ∈ config.aliases.keys ∨ config.IsClassName token := by
    rw [← List.countP_eq_length_filter]
    apply List.countP_congr
    intro token _
    rw [namesAliasOrClass_iff, decide_eq_true_eq]
  have allWarnings : (config.aliasFindings (name, body)).countP Finding.isWarning =
      (config.aliasFindings (name, body)).length := by
    have noError : (config.aliasFindings (name, body)).filter Finding.isError = [] :=
      filter_isError_aliasFindings (name, body)
    apply List.countP_eq_length.mpr
    intro finding found
    simpa [Finding.isWarning] using List.filter_eq_nil_iff.mp noError finding found
  rw [allWarnings, aliasFindings, List.length_append, List.length_append, List.length_map, nested]
  simp only [namesClass_iff]
  split <;> split <;> rfl

theorem countP_isWarning_aliases (config : Config) :
    (config.aliases.entries.flatMap config.aliasFindings).countP Finding.isWarning =
      config.aliases.entries.countP (fun entry => Text.isAllBlank entry.2) +
        config.aliases.entries.countP (fun entry => config.IsClassName entry.1) +
        (config.aliases.entries.flatMap fun entry => Text.words entry.2).countP fun token =>
          token ∈ config.aliases.keys ∨ config.IsClassName token := by
  generalize config.aliases.entries = entries
  induction entries with
  | nil => rfl
  | cons entry rest ih =>
      rw [List.flatMap_cons, List.countP_append, ih, countP_isWarning_aliasFindings,
        List.flatMap_cons, List.countP_append, List.countP_cons, List.countP_cons]
      simp only [decide_eq_true_eq]
      omega

theorem warningCount_validate (config : Config) :
    Diagnostics.warningCount config.validate = config.findings.countP Finding.isWarning := by
  have errors : Diagnostics.errorCount config.validate =
      config.findings.countP Finding.isError := List.countP_map
  have all := List.length_eq_countP_add_countP Finding.isError (l := config.findings)
  have others : config.findings.countP (fun finding => decide ¬ finding.isError = true) =
      config.findings.countP Finding.isWarning := by
    apply List.countP_congr
    simp [Finding.isWarning]
  rw [Diagnostics.warningCount, errors, validate, List.length_map]
  omega

/-! ## The report -/

theorem message_invalidConfig (violations : List Finding) :
    (Error.invalidConfig (violations.map Finding.diagnostic)).message =
      "Config error: ".toList ++ Text.join "; ".toList (violations.map Finding.message) := by
  have messages : (violations.map Finding.diagnostic).map Diagnostic.message =
      violations.map Finding.message := List.map_map
  rw [← messages]
  rfl

/-- Validation is exact. An engine starts exactly when the configuration is usable; otherwise it is
refused with the messages of all violations, and with the help of the first that has one. The
warnings are those of templates without slot `0`, of breakpoints but for the first of each name, of
breakpoints with their bounds the wrong way round, of blank aliases, of aliases named like a
semantic class, and of tokens of alias bodies that are names themselves. -/
theorem validate_reports_violations (config : Config) :
    ((∃ engine, Engine.start config = .ok engine) ↔ config.IsUsable) ∧
      (∀ error, Engine.start config = .error error →
        error = .invalidConfig (config.violations.map Finding.diagnostic) ∧
        error.message = "Config error: ".toList ++
          Text.join "; ".toList (config.violations.map Finding.message) ∧
        error.help = config.violations.findSome? Finding.help) ∧
      Diagnostics.warningCount config.validate =
        config.property.entries.countP (fun entry => entry.2.IsConstant) +
          (config.breakpoints.length - (config.breakpoints.map Breakpoint.name).toFinset.card) +
          config.breakpoints.countP (fun breakpoint => breakpoint.IsReversed) +
          config.aliases.entries.countP (fun entry => Text.isAllBlank entry.2) +
          config.aliases.entries.countP (fun entry => config.IsClassName entry.1) +
          (config.aliases.entries.flatMap fun entry => Text.words entry.2).countP fun token =>
            token ∈ config.aliases.keys ∨ config.IsClassName token := by
  refine ⟨?_, ?_, ?_⟩
  · rw [← isAccepted_iff_isUsable, IsAccepted, Engine.start]
    split <;> simp_all
  · intro error refused
    rw [Engine.start] at refused
    split at refused
    · cases refused
      rw [errors_validate]
      refine ⟨rfl, ?_, ?_⟩
      · exact message_invalidConfig config.violations
      · exact List.findSome?_map
    · cases refused
  · have firsts := (config.breakpoints.map Breakpoint.name).toFinset_card_le
    have ofBreakpoints := countP_isWarning_breakpointFindings [] config.breakpoints
    rw [warningCount_validate, findings, List.countP_append, List.countP_append,
      List.countP_append, countP_isWarning_aliases,
      countP_flatMap_eq_countP countP_isWarning_templateFindings,
      countP_isWarning_types]
    rw [List.length_map] at firsts
    simp only [List.toFinset_nil, Finset.sdiff_empty] at ofBreakpoints
    omega

/-- One entry that breaks two conditions, and warnings of several kinds. -/
theorem validate_reports_violations_sample :
    let config := ((((Config.empty.withProperty
      "a b".toList (.templated [] "red".toList)).withClass
      "display".toList "box".toList "flex".toList).withAlias
      "box".toList "p-1px box".toList).withBreakpoint
      ⟨"sm".toList, none, none⟩).withBreakpoint ⟨"sm".toList, some 900, some 100⟩
    ∃ error, Engine.start config = .error error ∧
      error.message = "Config error: ".toList ++ Text.join "; ".toList
        ([.invalidType "a b".toList, .emptyTemplate "a b".toList,
          .unboundedBreakpoint "sm".toList].map Finding.message) ∧
      error.help = some "Type tokens are matched literally at the start of a class name".toList ∧
      Diagnostics.warningCount config.validate = 5 := by
  intro config
  rcases validate_reports_violations config with ⟨_, ifRefused, warnings⟩
  have refused : Engine.start config =
      .error (.invalidConfig (Diagnostics.errors config.validate)) := rfl
  have violations : config.violations = [.invalidType "a b".toList, .emptyTemplate "a b".toList,
      .unboundedBreakpoint "sm".toList] := by
    decide
  rcases ifRefused _ refused with ⟨_, message, help⟩
  rw [violations] at message
  exact ⟨_, refused, message, help.trans (by decide), warnings.trans (by decide)⟩

end Config

end UtilityCss
