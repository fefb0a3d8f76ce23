import Mathlib.Data.List.Nodup
import UtilityCss.Proofs.Style.Pass
import UtilityCss.Proofs.Style.Store

/-!
# Outlines of stylesheets

A stylesheet is written from its outline: the plain rules, and the media blocks with the rules of
each. The outline of a store sorts the entries of the store into these lists and keeps their order
within each of them, so every entry is a rule of the outline exactly once.
-/

namespace UtilityCss

namespace Stylesheet

/-- The plain rules of a stylesheet, and its media blocks: a condition and the rules under it. -/
structure Outline where
  rules : List Rule
  blocks : List (Text × List Rule)
  deriving DecidableEq

namespace Outline

def writeRule (rule : Rule) : Text :=
  renderRule rule.1 rule.2

/-- A rule inside a block stands two spaces to the right. -/
def writeInnerRule (rule : Rule) : Text :=
  "  ".toList ++ writeRule rule

def writeBlock (block : Text × List Rule) : Text :=
  "@media ".toList ++ block.1 ++ " \x7b\n".toList ++ block.2.flatMap writeInnerRule ++
    "\x7d\n".toList

def render (outline : Outline) : Text :=
  outline.rules.flatMap writeRule ++ outline.blocks.flatMap writeBlock

def ofStore (store : StyleStore) : Outline where
  rules := plainRules store
  blocks := (conditions store).map fun condition => (condition, rulesUnder store condition)

end Outline

theorem render_eq_render_outline (store : StyleStore) :
    render store = (Outline.ofStore store).render := by
  rw [Outline.render, Outline.ofStore, List.flatMap_map, render_eq]
  rfl

/-- No rule or block of the outline is empty, no condition is, and no two blocks share a condition;
no two rules that stand side by side share a selector. -/
structure Outline.IsWellFormed (outline : Outline) : Prop where
  declarations : ∀ rule ∈ outline.rules, rule.2.toList ≠ []
  selectors : (outline.rules.map Prod.fst).Nodup
  conditions : (outline.blocks.map Prod.fst).Nodup
  condition : ∀ block ∈ outline.blocks, block.1 ≠ []
  innerRules : ∀ block ∈ outline.blocks, block.2 ≠ []
  innerDeclarations : ∀ block ∈ outline.blocks, ∀ rule ∈ block.2, rule.2.toList ≠ []
  innerSelectors : ∀ block ∈ outline.blocks, (block.2.map Prod.fst).Nodup

/-! ## The entries of a store in its outline -/

theorem mem_plainRules {store : StyleStore} {selector : Text}
    {declarations : OrderedSet Declaration} :
    (selector, declarations) ∈ plainRules store ↔
      (RuleKey.plain selector, declarations) ∈ store.entries := by
  rw [plainRules, List.mem_filterMap]
  constructor
  · rintro ⟨⟨key, held⟩, member, isRule⟩
    cases key with
    | plain other =>
        cases isRule
        exact member
    | media condition other => cases isRule
  · intro member
    exact ⟨_, member, rfl⟩

theorem mem_rulesUnder {store : StyleStore} {condition selector : Text}
    {declarations : OrderedSet Declaration} :
    (selector, declarations) ∈ rulesUnder store condition ↔
      (RuleKey.media condition selector, declarations) ∈ store.entries := by
  rw [rulesUnder, List.mem_filterMap]
  constructor
  · rintro ⟨⟨key, held⟩, member, isRule⟩
    cases key with
    | plain other => cases isRule
    | media other inner =>
        by_cases same : other = condition
        · subst other
          simp only [if_pos] at isRule
          cases isRule
          exact member
        · simp [same] at isRule
  · intro member
    exact ⟨_, member, by simp⟩

theorem mem_conditions {store : StyleStore} {condition : Text} :
    condition ∈ conditions store ↔ ∃ selector, RuleKey.media condition selector ∈ store.keys := by
  rw [conditions, OrderedSet.mem_ofList, List.mem_filterMap]
  constructor
  · rintro ⟨key, member, isCondition⟩
    cases key with
    | plain selector => cases isCondition
    | media other selector =>
        cases isCondition
        exact ⟨selector, member⟩
  · rintro ⟨selector, member⟩
    exact ⟨_, member, rfl⟩

theorem isInfix_flatMap_of_mem {α : Type} {item : α} {items : List α} (member : item ∈ items)
    (write : α → Text) : write item <:+: items.flatMap write :=
  List.infix_of_mem_flatten (List.mem_map_of_mem member)

/-- The rule of every entry of a store is written in its stylesheet. -/
theorem writeRule_isInfix_render {store : StyleStore} {entry : Entry}
    (member : entry ∈ store.entries) :
    Outline.writeRule (ruleOf entry) <:+: render store := by
  rw [render_eq_render_outline, Outline.render]
  rcases entry with ⟨key, declarations⟩
  cases key with
  | plain selector =>
      have isRule : (selector, declarations) ∈ (Outline.ofStore store).rules :=
        mem_plainRules.mpr member
      exact (isInfix_flatMap_of_mem isRule Outline.writeRule).trans
        (List.prefix_append _ _).isInfix
  | media condition selector =>
      have isRule : (selector, declarations) ∈ rulesUnder store condition :=
        mem_rulesUnder.mpr member
      have isUsed : condition ∈ conditions store :=
        mem_conditions.mpr ⟨selector, List.mem_map_of_mem member⟩
      have isBlock : (condition, rulesUnder store condition) ∈ (Outline.ofStore store).blocks :=
        List.mem_map_of_mem isUsed
      have inBlock : Outline.writeInnerRule (selector, declarations) <:+:
          Outline.writeBlock (condition, rulesUnder store condition) :=
        (isInfix_flatMap_of_mem isRule Outline.writeInnerRule).trans (List.infix_append _ _ _)
      have inSheet := (isInfix_flatMap_of_mem isBlock Outline.writeBlock).trans
        (List.suffix_append ((Outline.ofStore store).rules.flatMap Outline.writeRule) _).isInfix
      exact ((List.suffix_append _ _).isInfix.trans inBlock).trans inSheet

theorem rulesUnder_eq_nil {store : StyleStore} {condition : Text}
    (absent : condition ∉ conditions store) : rulesUnder store condition = [] := by
  apply List.eq_nil_iff_forall_not_mem.mpr
  rintro ⟨selector, declarations⟩ member
  have isEntry := mem_rulesUnder.mp member
  exact absent (mem_conditions.mpr ⟨selector, List.mem_map_of_mem isEntry⟩)

/-- Entries with distinct keys give rules with distinct selectors, if a rule tells its key. -/
theorem nodup_map_fst_filterMap {entries : List (RuleKey × OrderedSet Declaration)}
    {rule? : RuleKey × OrderedSet Declaration → Option Rule} (keyOf : Text → RuleKey)
    (distinct : (entries.map Prod.fst).Nodup)
    (tellsKey : ∀ entry rule, rule? entry = some rule → entry.1 = keyOf rule.1) :
    ((entries.filterMap rule?).map Prod.fst).Nodup := by
  have keys : ((entries.filterMap rule?).map Prod.fst).map keyOf =
      (entries.filter fun entry => (rule? entry).isSome).map Prod.fst := by
    induction entries with
    | nil => rfl
    | cons entry rest ih =>
        have ofRest := ih (List.nodup_cons.mp (by simpa using distinct)).2
        cases found : rule? entry with
        | none => simpa [List.filterMap_cons, List.filter_cons, found] using ofRest
        | some rule =>
            have key := tellsKey entry rule found
            simpa [List.filterMap_cons, List.filter_cons, found, key] using ofRest
  apply List.Nodup.of_map keyOf
  rw [keys]
  exact (List.filter_sublist.map Prod.fst).nodup distinct

theorem nodup_plainRules (store : StyleStore) : ((plainRules store).map Prod.fst).Nodup := by
  apply nodup_map_fst_filterMap RuleKey.plain store.distinctKeys
  rintro ⟨key, held⟩ rule isRule
  cases key with
  | plain selector =>
      cases isRule
      rfl
  | media condition selector => cases isRule

theorem nodup_rulesUnder (store : StyleStore) (condition : Text) :
    ((rulesUnder store condition).map Prod.fst).Nodup := by
  apply nodup_map_fst_filterMap (RuleKey.media condition) store.distinctKeys
  rintro ⟨key, held⟩ rule isRule
  cases key with
  | plain selector => cases isRule
  | media other selector =>
      by_cases same : other = condition
      · simp only [same, if_true] at isRule
        cases isRule
        rw [same]
      · simp [same] at isRule

theorem isWellFormed_ofStore {store : StyleStore}
    (declared : ∀ key declarations, (key, declarations) ∈ store.entries →
      declarations.toList ≠ [])
    (conditioned : ∀ condition selector, RuleKey.media condition selector ∈ store.keys →
      condition ≠ []) :
    (Outline.ofStore store).IsWellFormed where
  declarations := fun _ member => declared _ _ (mem_plainRules.mp member)
  selectors := nodup_plainRules store
  conditions := by
    have blocks : (Outline.ofStore store).blocks.map Prod.fst = conditions store := by
      simp [Outline.ofStore, Function.comp_def]
    rw [blocks]
    exact OrderedSet.distinct _
  condition := by
    intro block member
    rcases List.mem_map.mp member with ⟨condition, used, rfl⟩
    rcases mem_conditions.mp used with ⟨selector, isKey⟩
    exact conditioned condition selector isKey
  innerRules := by
    intro block member
    rcases List.mem_map.mp member with ⟨condition, used, rfl⟩
    rcases mem_conditions.mp used with ⟨selector, isKey⟩
    rcases List.mem_map.mp isKey with ⟨⟨key, declarations⟩, isEntry, rfl⟩
    exact List.ne_nil_of_mem (mem_rulesUnder.mpr isEntry)
  innerDeclarations := by
    intro block member rule isRule
    rcases List.mem_map.mp member with ⟨condition, used, rfl⟩
    exact declared _ _ (mem_rulesUnder.mp isRule)
  innerSelectors := by
    intro block member
    rcases List.mem_map.mp member with ⟨condition, used, rfl⟩
    exact nodup_rulesUnder store condition

end Stylesheet

end UtilityCss
