import UtilityCss.Proofs.Ordered.Map
import UtilityCss.Proofs.Ordered.Set
import UtilityCss.Style.Sheet

/-!
# The pass that writes a stylesheet

A pass over a store writes plain rules as it comes to them and sets the rules of media queries
aside. The invariant says what has been set aside behind some entries: for each condition of them,
in the order in which the conditions first occur, the rules under it in the order of the entries. So
the pass writes what filters of the store give.
-/

namespace UtilityCss

namespace RuleKey

@[simp]
theorem condition?_plain (selector : Text) : (plain selector).condition? = none := rfl

@[simp]
theorem condition?_media (condition selector : Text) :
    (media condition selector).condition? = some condition := rfl

end RuleKey

namespace Stylesheet

/-- A selector and the declarations behind it. -/
abbrev Rule := Text × OrderedSet Declaration

/-- An entry of a store: a rule and where it stands. -/
abbrev Entry := RuleKey × OrderedSet Declaration

def ruleOf (entry : Entry) : Rule :=
  (entry.1.selector, entry.2)

/-- The entries among some that stand under a condition, or outside media queries. -/
def standingAt (condition : Option Text) (entries : List Entry) : List Entry :=
  entries.filter fun entry => entry.1.condition? = condition

theorem standingAt_append (condition : Option Text) (first second : List Entry) :
    standingAt condition (first ++ second) =
      standingAt condition first ++ standingAt condition second :=
  List.filter_append ..

theorem standingAt_cons (condition : Option Text) (entry : Entry) (rest : List Entry) :
    standingAt condition (entry :: rest) =
      if entry.1.condition? = condition then entry :: standingAt condition rest
      else standingAt condition rest := by
  by_cases standsThere : entry.1.condition? = condition <;> simp [standingAt, standsThere]

/-- The conditions of some entries, in the order of their first occurrence. -/
def conditionsOf (entries : List Entry) : OrderedSet Text :=
  .ofList (entries.filterMap fun entry => entry.1.condition?)

theorem conditionsOf_concat_plain (entries : List Entry) (selector : Text)
    (declarations : OrderedSet Declaration) :
    conditionsOf (entries ++ [(.plain selector, declarations)]) = conditionsOf entries := by
  simp [conditionsOf, List.filterMap_cons]

theorem conditionsOf_concat_media (entries : List Entry) (condition selector : Text)
    (declarations : OrderedSet Declaration) :
    conditionsOf (entries ++ [(.media condition selector, declarations)]) =
      (conditionsOf entries).insert condition := by
  rw [conditionsOf, List.filterMap_append]
  exact OrderedSet.ofList_concat _ condition

/-! ## The invariant -/

/-- What a pass has set aside behind some entries. -/
structure SetsAside (entries : List Entry) (aside : MediaRules) : Prop where
  keys_eq : aside.keys = (conditionsOf entries).toList
  getD_eq : ∀ condition,
    (aside.get? condition).getD [] = (standingAt (some condition) entries).map ruleOf

namespace SetsAside

variable {entries : List Entry} {aside : MediaRules}

theorem empty : SetsAside [] ∅ := ⟨rfl, fun _ => rfl⟩

theorem plain (before : SetsAside entries aside) (selector : Text)
    (declarations : OrderedSet Declaration) :
    SetsAside (entries ++ [(.plain selector, declarations)]) aside := by
  constructor
  · rw [before.keys_eq, conditionsOf_concat_plain]
  · intro condition
    simp [before.getD_eq condition, standingAt]

theorem media (before : SetsAside entries aside) (condition selector : Text)
    (declarations : OrderedSet Declaration) :
    SetsAside (entries ++ [(.media condition selector, declarations)])
      (setAside aside condition selector declarations) := by
  constructor
  · rw [setAside, OrderedMap.keys_alter, before.keys_eq, conditionsOf_concat_media,
      OrderedSet.toList_insert]
  · intro other
    rw [setAside, OrderedMap.get?_alter, standingAt_append, List.map_append, ← before.getD_eq other]
    by_cases same : other = condition
    · subst other
      simp [standingAt, ruleOf, RuleKey.selector]
    · simp [standingAt, same, Ne.symm same]

/-- The blocks that are written at the end of a pass. -/
theorem entries_eq (whole : SetsAside entries aside) :
    aside.entries =
      (conditionsOf entries).toList.map fun condition =>
        (condition, (standingAt (some condition) entries).map ruleOf) := by
  rw [← whole.keys_eq]
  apply OrderedMap.entries_eq_map_keys
  intro condition isKey
  rcases List.mem_map.mp isKey with ⟨⟨_, rules⟩, isEntry, rfl⟩
  have found := OrderedMap.get?_eq_some_iff.mpr isEntry
  rw [← whole.getD_eq, found]
  rfl

end SetsAside

/-- What a pass writes from the entries that are left to it, when the ones before are set aside. -/
theorem renderFrom_eq {before : List Entry} {aside : MediaRules}
    (behind : SetsAside before aside) (rest : List Entry) :
    renderFrom aside rest =
      ((standingAt none rest).map ruleOf).flatMap (fun rule => renderRule rule.1 rule.2) ++
        (conditionsOf (before ++ rest)).toList.flatMap fun condition =>
          renderBlock condition ((standingAt (some condition) (before ++ rest)).map ruleOf) := by
  induction rest generalizing before aside with
  | nil => simp [renderFrom, behind.entries_eq, standingAt, List.flatMap_map]
  | cons entry rest ih =>
      rcases entry with ⟨key, declarations⟩
      cases key with
      | plain selector =>
          rw [renderFrom, ih (behind.plain selector declarations), standingAt_cons none]
          simp [ruleOf, RuleKey.selector]
      | media condition selector =>
          rw [renderFrom, ih (behind.media condition selector declarations), standingAt_cons none]
          simp

/-! ## Filters of a store -/

theorem plainRules_eq (store : StyleStore) :
    plainRules store = (standingAt none store.entries).map ruleOf := by
  rw [plainRules]
  induction store.entries with
  | nil => rfl
  | cons entry rest ih =>
      rcases entry with ⟨key, declarations⟩
      rw [standingAt_cons]
      cases key with
      | plain selector => simpa [ruleOf, RuleKey.selector] using ih
      | media condition selector => simpa using ih

theorem rulesUnder_eq (store : StyleStore) (condition : Text) :
    rulesUnder store condition = (standingAt (some condition) store.entries).map ruleOf := by
  rw [rulesUnder]
  induction store.entries with
  | nil => rfl
  | cons entry rest ih =>
      rcases entry with ⟨key, declarations⟩
      rw [standingAt_cons]
      cases key with
      | plain selector => simpa using ih
      | media other selector =>
          by_cases same : other = condition
          · subst other
            simpa [ruleOf, RuleKey.selector] using ih
          · simpa [same] using ih

theorem conditions_eq (store : StyleStore) :
    conditions store = (conditionsOf store.entries).toList := by
  rw [conditions, OrderedMap.keys, List.filterMap_map]
  rfl

/-- The stylesheet of a store in terms of three filters of its entries. -/
theorem render_eq (store : StyleStore) :
    render store =
      (plainRules store).flatMap (fun rule => renderRule rule.1 rule.2) ++
        (conditions store).flatMap fun condition =>
          renderBlock condition (rulesUnder store condition) := by
  rw [render, renderFrom_eq .empty, plainRules_eq, conditions_eq]
  simp only [rulesUnder_eq, List.nil_append]

end Stylesheet

end UtilityCss
