import UtilityCss.Style.Store

/-!
# Stylesheets

A stylesheet lists the plain rules in the order of the store, and then one block for each media
condition, in the order in which the conditions first occur, with the rules of that condition. It is
written in one pass over the store: a plain rule is written when the pass comes to it, a rule of a
media query is set aside under its condition, and the blocks are written at the end.
-/

namespace UtilityCss

namespace Stylesheet

/-- A rule on a line of its own: the selector and its declarations. -/
def renderRule (selector : Text) (declarations : OrderedSet Declaration) : Text :=
  '.' :: selector ++ " \x7b ".toList ++
    Text.join "; ".toList (declarations.toList.map Declaration.render) ++ "; \x7d\n".toList

/-- The rules of a store outside media queries. -/
def plainRules (store : StyleStore) : List (Text × OrderedSet Declaration) :=
  store.entries.filterMap fun
    | (.plain selector, declarations) => some (selector, declarations)
    | (.media .., _) => none

/-- The media conditions of a store, each once, in the order of their first occurrence. -/
def conditions (store : StyleStore) : List Text :=
  (OrderedSet.ofList (store.keys.filterMap RuleKey.condition?)).toList

/-- The rules of a store under one media condition. -/
def rulesUnder (store : StyleStore) (condition : Text) : List (Text × OrderedSet Declaration) :=
  store.entries.filterMap fun
    | (.plain _, _) => none
    | (.media other selector, declarations) =>
      if other = condition then some (selector, declarations) else none

/-- The block of a media condition; its rules stand two spaces to the right. -/
def renderBlock (condition : Text) (rules : List (Text × OrderedSet Declaration)) : Text :=
  "@media ".toList ++ condition ++ " \x7b\n".toList ++
    rules.flatMap (fun (selector, declarations) =>
      "  ".toList ++ renderRule selector declarations) ++
    "\x7d\n".toList

/-- The rules of media queries that a pass has set aside, by their conditions. -/
abbrev MediaRules := OrderedMap Text (List (Text × OrderedSet Declaration))

/-- Sets a rule aside, behind the rules of the same condition. -/
def setAside (aside : MediaRules) (condition selector : Text)
    (declarations : OrderedSet Declaration) : MediaRules :=
  aside.alter condition fun rules => rules.getD [] ++ [(selector, declarations)]

/-- What a pass writes that has still to come to the given entries: plain rules at once, and at the
end a block for each condition under which rules were set aside. -/
def renderFrom (aside : MediaRules) : List (RuleKey × OrderedSet Declaration) → Text
  | [] => aside.entries.flatMap fun (condition, rules) => renderBlock condition rules
  | (.plain selector, declarations) :: rest =>
    renderRule selector declarations ++ renderFrom aside rest
  | (.media condition selector, declarations) :: rest =>
    renderFrom (setAside aside condition selector declarations) rest

/-- The stylesheet of a store: plain rules first, then one block for each media condition. -/
def render (store : StyleStore) : Text :=
  renderFrom ∅ store.entries

end Stylesheet

end UtilityCss
