import UtilityCss.Ordered.Map
import UtilityCss.Ordered.Set
import UtilityCss.Style.Selector
import UtilityCss.Style.Declaration

/-!
# The style store

Rules are collected under keys: a plain rule under its selector, a rule of a media query under the
condition and the selector. The store is an insertion-ordered map from keys to insertion-ordered
sets of declarations; a key without declarations has no entry.
-/

namespace UtilityCss

/-- Where declarations are collected. Selectors are escaped and have no leading point. -/
inductive RuleKey where
  | plain (selector : Text)
  | media (condition selector : Text)
  deriving DecidableEq

namespace RuleKey

/-- The key of a class outside any media query, with its pseudo-class if there is one. -/
def ofClass (className : Text) (pseudo : Option Text) : RuleKey :=
  plain (Selector.ofClass className pseudo)

/-- The key of a class inside a media query. -/
def ofMedia (condition className : Text) : RuleKey :=
  media condition (Selector.escape className)

def selector : RuleKey → Text
  | plain selector => selector
  | media _ selector => selector

def condition? : RuleKey → Option Text
  | plain _ => none
  | media condition _ => some condition

end RuleKey

/-- The collected rules, in the order in which their keys were first written. -/
abbrev StyleStore := OrderedMap RuleKey (OrderedSet Declaration)

namespace StyleStore

/-- Adds declarations under a key: present ones are ignored, and an empty list adds nothing. -/
def add (store : StyleStore) (key : RuleKey) (declarations : List Declaration) : StyleStore :=
  if declarations.isEmpty then
    store
  else
    store.alter key fun known => (known.getD ∅).insertAll declarations

end StyleStore

end UtilityCss
