import UtilityCss.Proofs.Style.Key
import UtilityCss.Proofs.Style.Outline
import UtilityCss.Proofs.Text.Cutting
import UtilityCss.Proofs.Text.Delimiting

/-!
# Legible stylesheets

A stylesheet is taken apart from the front. A selector ends at the first space, since the names in
it have no white space; a property ends at the first colon, a value at the first semicolon, and a
condition at the first brace. So a stylesheet determines its outline, as long as properties, values
and conditions leave these characters to the stylesheet. Colons, braces and semicolons in class
names do no harm, whatever the names are.

The outline tells all that a store holds. It forgets only how plain entries stood among the entries
of media queries, and those of one condition among those of another.
-/

namespace UtilityCss

/-- The property and the value of a declaration leave to the rule around them the characters that
end them there; and no property looks like the end of a rule. -/
structure Declaration.IsLegible (declaration : Declaration) : Prop where
  noColon : ':' ∉ declaration.property
  noBrace : '}' ∉ declaration.property
  noSemicolon : ';' ∉ declaration.value

/-- The key of a class whose name, pseudo-class and condition leave to the stylesheet around them
the characters that end them there. -/
inductive RuleKey.IsLegible : RuleKey → Prop where
  | ofClass {className : Text} {pseudo : Option Text}
      (noBlank : ∀ c ∈ className, isBlank c = false)
      (noBlankPseudo : ∀ name ∈ pseudo, ∀ c ∈ name, isBlank c = false) :
      IsLegible (.ofClass className pseudo)
  | ofMedia {condition className : Text} (noBrace : '{' ∉ condition)
      (noBlank : ∀ c ∈ className, isBlank c = false) : IsLegible (.ofMedia condition className)

def StyleStore.IsLegible (store : StyleStore) : Prop :=
  ∀ key declarations, (key, declarations) ∈ store.entries →
    key.IsLegible ∧ ∀ declaration ∈ declarations.toList, declaration.IsLegible

/-- An addition of legible declarations under a legible key, or a reset. -/
inductive StyleStore.Operation.IsLegible : StyleStore.Operation → Prop where
  | add {key : RuleKey} {declarations : List Declaration} (ofKey : key.IsLegible)
      (ofDeclarations : ∀ declaration ∈ declarations, declaration.IsLegible) :
      IsLegible (.add key declarations)
  | reset : IsLegible .reset

theorem StyleStore.isLegible_run {operations : List StyleStore.Operation}
    (legible : ∀ operation ∈ operations, operation.IsLegible) : (run operations).IsLegible := by
  rw [run_eq_addAll]
  intro key declarations member
  rcases eq_ofList_of_mem_addAll member with ⟨added, rfl⟩
  have ofAddition : ∀ other more, (other, more) ∈ additionsIn operations →
      other.IsLegible ∧ ∀ declaration ∈ more, declaration.IsLegible := by
    intro other more isAddition
    cases legible _ (add_mem_of_mem_additionsIn isAddition) with
    | add ofKey ofDeclarations => exact ⟨ofKey, ofDeclarations⟩
  have ofMember : ∀ declaration ∈ addedUnder key (additionsIn operations),
      key.IsLegible ∧ declaration.IsLegible := by
    intro declaration isAdded
    rcases List.mem_flatMap.mp isAdded with ⟨⟨other, more⟩, isAddition, isMember⟩
    rcases List.mem_filter.mp isAddition with ⟨among, sameKey⟩
    have same : other = key := by simpa using sameKey
    subst same
    rcases ofAddition other more among with ⟨ofKey, ofDeclarations⟩
    exact ⟨ofKey, ofDeclarations declaration isMember⟩
  constructor
  · rcases List.exists_mem_of_ne_nil _ added with ⟨declaration, isAdded⟩
    exact (ofMember declaration isAdded).1
  · intro declaration isMember
    exact (ofMember declaration (OrderedSet.mem_ofList.mp isMember)).2

/-! ## Parts of a stylesheet -/

theorem Selector.not_mem_escape {c : Char} {text : Text} (absent : c ∉ text)
    (noBackslash : c ≠ '\\') : c ∉ escape text := by
  induction text with
  | nil => simp [escape]
  | cons d rest ih =>
      have notFirst : c ≠ d := fun same => absent (same ▸ List.mem_cons_self)
      have notRest : c ∉ escape rest := ih fun member => absent (List.mem_cons_of_mem d member)
      rw [escape]
      split <;> simp [notFirst, notRest, noBackslash]

theorem not_mem_space {text : Text} (noBlank : ∀ c ∈ text, isBlank c = false) : ' ' ∉ text :=
  fun member => absurd (noBlank ' ' member) (by decide)

theorem RuleKey.IsLegible.not_mem_selector {key : RuleKey} (legible : key.IsLegible) :
    ' ' ∉ key.selector := by
  cases legible with
  | @ofClass className pseudo noBlank noBlankPseudo =>
      have inName := Selector.not_mem_escape (not_mem_space noBlank) (by decide)
      cases pseudo with
      | none => exact inName
      | some name =>
          have inPseudo := Selector.not_mem_escape (not_mem_space (noBlankPseudo name rfl))
            (by decide)
          simp [RuleKey.selector, RuleKey.ofClass, Selector.ofClass, inName, inPseudo]
  | ofMedia noBrace noBlank =>
      exact Selector.not_mem_escape (not_mem_space noBlank) (by decide)

namespace Stylesheet

/-- A declaration with what stands behind it in a rule. -/
def writeDeclaration (declaration : Declaration) : Text :=
  declaration.render ++ "; ".toList

theorem writeDeclaration_append (declaration : Declaration) (rest : Text) :
    writeDeclaration declaration ++ rest =
      declaration.property ++ ':' :: ' ' :: (declaration.value ++ ';' :: ' ' :: rest) := by
  simp [writeDeclaration, Declaration.render]

theorem isSelfDelimiting_writeDeclaration :
    Text.IsSelfDelimiting Declaration.IsLegible writeDeclaration := by
  rintro ⟨property, value⟩ ⟨other, text⟩ rest tail first second equal
  rw [writeDeclaration_append, writeDeclaration_append] at equal
  rcases Text.append_cons_inj_of_not_mem first.noColon second.noColon equal with
    ⟨sameProperty, behindColon⟩
  rcases Text.append_cons_inj_of_not_mem first.noSemicolon second.noSemicolon
    (List.cons.inj behindColon).2 with ⟨sameValue, behindValue⟩
  subst sameProperty sameValue
  exact ⟨rfl, (List.cons.inj behindValue).2⟩

/-- A text goes on with the end of a rule or of a block. -/
def StartsClosing (text : Text) : Prop :=
  text.head? = some '}'

theorem startsClosing_cons (rest : Text) : StartsClosing ('}' :: rest) := rfl

theorem not_startsClosing_writeDeclaration (declaration : Declaration)
    (legible : declaration.IsLegible) (rest : Text) :
    ¬ StartsClosing (writeDeclaration declaration ++ rest) := by
  rw [writeDeclaration_append, StartsClosing]
  rcases declaration with ⟨property, value⟩
  cases property with
  | nil => simp
  | cons c property =>
      have different : c ≠ '}' := fun same => legible.noBrace (same ▸ List.mem_cons_self)
      simpa using different

/-- A rule with a legible selector and at least one declaration, all legible. -/
structure Rule.IsLegible (rule : Rule) : Prop where
  noSpace : ' ' ∉ rule.1
  nonempty : rule.2.toList ≠ []
  declarations : ∀ declaration ∈ rule.2.toList, declaration.IsLegible

theorem writeRule_append {rule : Rule} (nonempty : rule.2.toList ≠ []) (rest : Text) :
    Outline.writeRule rule ++ rest =
      '.' :: (rule.1 ++ ' ' :: '{' :: ' ' ::
        (rule.2.toList.flatMap writeDeclaration ++ '}' :: '\n' :: rest)) := by
  have rendered : rule.2.toList.map Declaration.render ≠ [] := by simpa using nonempty
  have body : Text.join "; ".toList (rule.2.toList.map Declaration.render) ++ "; ".toList =
      rule.2.toList.flatMap writeDeclaration := by
    rw [Text.join_append_separator rendered, List.flatMap_map]
    rfl
  rw [← body]
  simp [Outline.writeRule, renderRule]

theorem isSelfDelimiting_writeRule :
    Text.IsSelfDelimiting Rule.IsLegible Outline.writeRule := by
  rintro ⟨selector, declarations⟩ ⟨other, held⟩ rest tail first second equal
  rw [writeRule_append first.nonempty, writeRule_append second.nonempty] at equal
  rcases Text.append_cons_inj_of_not_mem first.noSpace second.noSpace
    (List.cons.inj equal).2 with ⟨sameSelector, behindSelector⟩
  simp only [List.cons.injEq, true_and] at behindSelector
  rcases isSelfDelimiting_writeDeclaration.flatMap_append_inj StartsClosing
    not_startsClosing_writeDeclaration first.declarations second.declarations
    (startsClosing_cons _) (startsClosing_cons _) behindSelector with ⟨sameDeclarations, behindRule⟩
  simp only [List.cons.injEq, true_and] at behindRule
  exact ⟨Prod.ext sameSelector (OrderedSet.eq_of_toList_eq sameDeclarations), behindRule⟩

theorem writeInnerRule_append (rule : Rule) (rest : Text) :
    Outline.writeInnerRule rule ++ rest = ' ' :: ' ' :: (Outline.writeRule rule ++ rest) := by
  simp [Outline.writeInnerRule]

theorem isSelfDelimiting_writeInnerRule :
    Text.IsSelfDelimiting Rule.IsLegible Outline.writeInnerRule := by
  intro first second rest other isFirst isSecond equal
  rw [writeInnerRule_append, writeInnerRule_append] at equal
  simp only [List.cons.injEq, true_and] at equal
  exact isSelfDelimiting_writeRule first second rest other isFirst isSecond equal

structure Block.IsLegible (block : Text × List Rule) : Prop where
  noBrace : '{' ∉ block.1
  rules : ∀ rule ∈ block.2, Rule.IsLegible rule

theorem writeBlock_append (block : Text × List Rule) (rest : Text) :
    Outline.writeBlock block ++ rest =
      "@media ".toList ++ ((block.1 ++ [' ']) ++ '{' :: '\n' ::
        (block.2.flatMap Outline.writeInnerRule ++ '}' :: '\n' :: rest)) := by
  -- an equation of the definition would evaluate its literal
  delta Outline.writeBlock
  simp

theorem isSelfDelimiting_writeBlock :
    Text.IsSelfDelimiting Block.IsLegible Outline.writeBlock := by
  rintro ⟨condition, rules⟩ ⟨other, held⟩ rest tail first second equal
  rw [writeBlock_append, writeBlock_append, List.append_right_inj] at equal
  have notFirst : '{' ∉ condition ++ [' '] := by simpa using first.noBrace
  have notSecond : '{' ∉ other ++ [' '] := by simpa using second.noBrace
  rcases Text.append_cons_inj_of_not_mem notFirst notSecond equal with
    ⟨sameCondition, behindCondition⟩
  simp only [List.cons.injEq, true_and] at behindCondition
  -- a rule inside the block starts with a space, so the brace can only end the block
  have noClosing : ∀ rule, Rule.IsLegible rule → ∀ rest,
      ¬ StartsClosing (Outline.writeInnerRule rule ++ rest) := by
    simp [StartsClosing, Outline.writeInnerRule]
  rcases isSelfDelimiting_writeInnerRule.flatMap_append_inj StartsClosing noClosing first.rules
    second.rules (startsClosing_cons _) (startsClosing_cons _) behindCondition with
    ⟨sameRules, behindBlock⟩
  simp only [List.cons.injEq, true_and] at behindBlock
  exact ⟨Prod.ext (List.append_cancel_right sameCondition) sameRules, behindBlock⟩

/-! ## Whole stylesheets -/

structure Outline.IsLegible (outline : Outline) : Prop where
  rules : ∀ rule ∈ outline.rules, Rule.IsLegible rule
  blocks : ∀ block ∈ outline.blocks, Block.IsLegible block

theorem head?_flatMap_writeBlock (blocks : List (Text × List Rule)) :
    (blocks.flatMap Outline.writeBlock).head? ≠ some '.' := by
  cases blocks with
  | nil => simp
  | cons block more =>
      rw [List.flatMap_cons, writeBlock_append]
      simp

/-- A stylesheet determines its outline. -/
theorem Outline.eq_of_render_eq {first second : Outline} (firstLegible : first.IsLegible)
    (secondLegible : second.IsLegible) (equal : first.render = second.render) :
    first = second := by
  -- behind the plain rules stands a block or nothing, and neither starts with a point
  have noRule : ∀ rule, Rule.IsLegible rule → ∀ rest,
      ¬ (writeRule rule ++ rest).head? ≠ some '.' := by
    simp [writeRule, renderRule]
  rcases isSelfDelimiting_writeRule.flatMap_append_inj (·.head? ≠ some '.') noRule
    firstLegible.rules secondLegible.rules (head?_flatMap_writeBlock first.blocks)
    (head?_flatMap_writeBlock second.blocks) equal with ⟨sameRules, behindRules⟩
  have noBlock : ∀ block, Block.IsLegible block → ∀ rest, ¬ writeBlock block ++ rest = [] := by
    intro block _ rest
    rw [writeBlock_append]
    simp
  have blocksAlone : first.blocks.flatMap writeBlock ++ [] =
      second.blocks.flatMap writeBlock ++ [] := by simpa using behindRules
  have sameBlocks := (isSelfDelimiting_writeBlock.flatMap_append_inj (· = []) noBlock
    firstLegible.blocks secondLegible.blocks rfl rfl blocksAlone).1
  rcases first with ⟨rules, blocks⟩
  rcases second with ⟨others, held⟩
  exact congrArg₂ Outline.mk sameRules sameBlocks

/-- That rules are not empty is known of stores that were filled by additions only. -/
theorem isLegible_ofStore {additions : List (RuleKey × List Declaration)}
    (legible : (StyleStore.addAll ∅ additions).IsLegible) :
    (Outline.ofStore (StyleStore.addAll ∅ additions)).IsLegible := by
  have ofEntry : ∀ key declarations,
      (key, declarations) ∈ (StyleStore.addAll ∅ additions).entries →
        Rule.IsLegible (key.selector, declarations) := by
    intro key declarations member
    rcases legible key declarations member with ⟨legibleKey, legibleDeclarations⟩
    exact ⟨legibleKey.not_mem_selector, StyleStore.toList_ne_nil_of_mem_addAll member,
      legibleDeclarations⟩
  constructor
  · rintro ⟨selector, declarations⟩ member
    exact ofEntry (.plain selector) declarations (mem_plainRules.mp member)
  · intro block member
    rcases List.mem_map.mp member with ⟨condition, isCondition, rfl⟩
    constructor
    · rcases mem_conditions.mp isCondition with ⟨selector, isKey⟩
      rcases List.mem_map.mp isKey with ⟨⟨key, declarations⟩, isEntry, sameKey⟩
      have legibleKey := (legible key declarations isEntry).1
      rw [show key = .media condition selector from sameKey] at legibleKey
      cases legibleKey with
      | ofMedia noBrace _ => exact noBrace
    · rintro ⟨selector, declarations⟩ isRule
      exact ofEntry (.media condition selector) declarations (mem_rulesUnder.mp isRule)

theorem rulesUnder_eq_of_ofStore_eq {first second : StyleStore}
    (equal : Outline.ofStore first = Outline.ofStore second) :
    conditions first = conditions second ∧
      ∀ condition, rulesUnder first condition = rulesUnder second condition := by
  have blocks : (conditions first).map (fun condition => (condition, rulesUnder first condition)) =
      (conditions second).map fun condition => (condition, rulesUnder second condition) :=
    congrArg Outline.blocks equal
  have sameConditions : conditions first = conditions second := by
    simpa [Function.comp_def] using congrArg (List.map Prod.fst) blocks
  refine ⟨sameConditions, fun condition => ?_⟩
  rw [sameConditions] at blocks
  by_cases used : condition ∈ conditions second
  · exact (Prod.mk.inj (List.map_inj_left.mp blocks condition used)).2
  · rw [rulesUnder_eq_nil used, rulesUnder_eq_nil (sameConditions ▸ used)]

theorem get?_eq_of_ofStore_eq {first second : StyleStore}
    (equal : Outline.ofStore first = Outline.ofStore second) (key : RuleKey) :
    first.get? key = second.get? key := by
  have plain : plainRules first = plainRules second := congrArg Outline.rules equal
  apply Option.ext
  intro declarations
  rw [OrderedMap.get?_eq_some_iff, OrderedMap.get?_eq_some_iff]
  cases key with
  | plain selector => rw [← mem_plainRules, ← mem_plainRules, plain]
  | media condition selector =>
      rw [← mem_rulesUnder, ← mem_rulesUnder,
        (rulesUnder_eq_of_ofStore_eq equal).2 condition]

/-- Two stores that were filled by additions and resets and are legible have the same stylesheet
only if they have the same plain rules, the same conditions and the same rules under each of them,
all in the same order. They hold the same under every key then. -/
theorem rules_eq_of_render_eq {first second : List StyleStore.Operation}
    (firstLegible : (StyleStore.run first).IsLegible)
    (secondLegible : (StyleStore.run second).IsLegible)
    (equal : render (StyleStore.run first) = render (StyleStore.run second)) :
    plainRules (StyleStore.run first) = plainRules (StyleStore.run second) ∧
      conditions (StyleStore.run first) = conditions (StyleStore.run second) ∧
      (∀ condition, rulesUnder (StyleStore.run first) condition =
        rulesUnder (StyleStore.run second) condition) ∧
      ∀ key, (StyleStore.run first).get? key = (StyleStore.run second).get? key := by
  rw [StyleStore.run_eq_addAll] at firstLegible secondLegible
  rw [StyleStore.run_eq_addAll, StyleStore.run_eq_addAll, render_eq_render_outline,
    render_eq_render_outline] at equal
  have outlines := Outline.eq_of_render_eq (isLegible_ofStore firstLegible)
    (isLegible_ofStore secondLegible) equal
  rw [StyleStore.run_eq_addAll, StyleStore.run_eq_addAll]
  rcases rulesUnder_eq_of_ofStore_eq outlines with ⟨sameConditions, sameRules⟩
  exact ⟨congrArg Outline.rules outlines, sameConditions, sameRules,
    get?_eq_of_ofStore_eq outlines⟩

/-- Of the two histories one has a reset and the other a repetition, and the plain rule comes last
in one and first in the other. The class name and its pseudo-class look like parts of a rule. -/
theorem rules_eq_of_render_eq_sample :
    let padding : Declaration := ⟨"padding".toList, "1px".toList⟩
    let braces := RuleKey.ofClass "p:\x7b;\x7d".toList (some "hover\x7d".toList)
    let narrow := RuleKey.ofMedia "(max-width: 639px)".toList "sm:p-1px".toList
    let first : List StyleStore.Operation :=
      [.add (.ofClass "p-1px".toList none) [padding], .reset, .add narrow [padding],
        .add braces [padding]]
    let second : List StyleStore.Operation :=
      [.add braces [padding], .add narrow [padding], .add narrow [padding]]
    render (StyleStore.run first) = render (StyleStore.run second) ∧
      StyleStore.run first ≠ StyleStore.run second ∧
      plainRules (StyleStore.run first) = plainRules (StyleStore.run second) := by
  intro padding braces narrow first second
  have ofPadding : ∀ declaration ∈ [padding], declaration.IsLegible := by
    intro declaration member
    rw [List.mem_singleton.mp member]
    exact ⟨by decide, by decide, by decide⟩
  have ofBraces : braces.IsLegible := by
    refine .ofClass (Text.eq_false_of_any (by decide)) ?_
    rintro name ⟨rfl⟩
    exact Text.eq_false_of_any (by decide)
  have ofNarrow : narrow.IsLegible := .ofMedia (by decide) (Text.eq_false_of_any (by decide))
  have ofPlain : (RuleKey.ofClass "p-1px".toList none).IsLegible :=
    .ofClass (Text.eq_false_of_any (by decide)) (by simp)
  have firstLegible : (StyleStore.run first).IsLegible := by
    apply StyleStore.isLegible_run
    simp only [first, List.forall_mem_cons]
    exact ⟨.add ofPlain ofPadding, .reset, .add ofNarrow ofPadding, .add ofBraces ofPadding,
      by simp⟩
  have secondLegible : (StyleStore.run second).IsLegible := by
    apply StyleStore.isLegible_run
    simp only [second, List.forall_mem_cons]
    exact ⟨.add ofBraces ofPadding, .add ofNarrow ofPadding, .add ofNarrow ofPadding, by simp⟩
  have equal : render (StyleStore.run first) = render (StyleStore.run second) := by decide
  exact ⟨equal, by decide, (rules_eq_of_render_eq firstLegible secondLegible equal).1⟩

end Stylesheet

end UtilityCss
