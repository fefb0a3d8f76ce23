import UtilityCss.Expansion.Resolution
import UtilityCss.Proofs.Text.Cutting

/-!
# Keys of rules

A rule is found again by its key, so the rules of two classes stay apart only if the key of a class
determines the class. Escaping is decodable: every special character of a class name follows a
backslash, so the first special character without one ends the name. In a selector with a
pseudo-class that character is the colon in front of the pseudo-class.
-/

namespace UtilityCss

namespace Selector

/-- A text ends a class name in front of it when it is empty or starts with a special character that
is not the backslash. -/
def EndsName (text : Text) : Prop :=
  ∀ c ∈ text.head?, isSpecial c = true ∧ c ≠ '\\'

theorem endsName_nil : EndsName [] := by
  simp [EndsName]

theorem endsName_colon (text : Text) : EndsName (':' :: text) := by
  intro c isHead
  have colon : c = ':' := by simpa using isHead.symm
  subst c
  decide

theorem eq_false_of_isSpecial {isMember : Char → Bool} (noMember : special.any isMember = false)
    {c : Char} (isSpecialChar : isSpecial c = true) : isMember c = false :=
  Text.eq_false_of_any noMember c (List.contains_iff_mem.mp isSpecialChar)

theorem isSpecial_backslash : isSpecial '\\' = true := by decide

def escapeChar (c : Char) : Text :=
  if isSpecial c then ['\\', c] else [c]

theorem escape_cons (c : Char) (rest : Text) :
    escape (c :: rest) = escapeChar c ++ escape rest := by
  rw [escapeChar]
  by_cases special : isSpecial c = true <;> simp [escape, special]

theorem escapeChar_append_inj {c d : Char} {rest other : Text}
    (equal : escapeChar c ++ rest = escapeChar d ++ other) : c = d ∧ rest = other := by
  simp only [escapeChar] at equal
  by_cases special : isSpecial c = true <;> by_cases also : isSpecial d = true
  · simpa [special, also] using equal
  · have backslash : '\\' = d := by
      simp [special, also] at equal
      exact equal.1
    exact absurd (backslash ▸ isSpecial_backslash) also
  · have backslash : c = '\\' := by
      simp [special, also] at equal
      exact equal.1
    exact absurd (backslash ▸ isSpecial_backslash) special
  · simpa [special, also] using equal

/-- A text that ends names does not start with a written character. -/
theorem ne_escapeChar_append {tail : Text} (ends : EndsName tail) (c : Char) (other : Text) :
    tail ≠ escapeChar c ++ other := by
  rintro rfl
  by_cases special : isSpecial c = true
  · have first : EndsName ('\\' :: c :: other) := by
      simpa [escapeChar, special] using ends
    exact (first '\\' rfl).2 rfl
  · have first : EndsName (c :: other) := by
      simpa [escapeChar, special] using ends
    exact special (first c rfl).1

/-- An escaped name and the text behind it are determined by the two together. -/
theorem escape_append_inj {first second tail other : Text} (tailEnds : EndsName tail)
    (otherEnds : EndsName other) (equal : escape first ++ tail = escape second ++ other) :
    first = second ∧ tail = other := by
  induction first generalizing second with
  | nil =>
      cases second with
      | nil => exact ⟨rfl, equal⟩
      | cons d second =>
          rw [escape_cons, List.append_assoc] at equal
          exact absurd equal (ne_escapeChar_append tailEnds d _)
  | cons c first ih =>
      rw [escape_cons, List.append_assoc] at equal
      cases second with
      | nil => exact absurd equal.symm (ne_escapeChar_append otherEnds c _)
      | cons d second =>
          rw [escape_cons, List.append_assoc] at equal
          rcases escapeChar_append_inj equal with ⟨sameChar, later⟩
          rcases ih later with ⟨names, tails⟩
          exact ⟨by rw [sameChar, names], tails⟩

theorem escape_injective {first second : Text} (equal : escape first = escape second) :
    first = second :=
  (escape_append_inj endsName_nil endsName_nil (by simpa using equal)).1

def pseudoSuffix : Option Text → Text
  | none => []
  | some name => ':' :: escape name

theorem ofClass_eq_append (className : Text) (pseudo : Option Text) :
    ofClass className pseudo = escape className ++ pseudoSuffix pseudo := by
  cases pseudo with
  | none => simp [ofClass, pseudoSuffix]
  | some name => rfl

theorem endsName_pseudoSuffix (pseudo : Option Text) : EndsName (pseudoSuffix pseudo) := by
  cases pseudo with
  | none => exact endsName_nil
  | some name => exact endsName_colon (escape name)

theorem pseudoSuffix_injective {first second : Option Text}
    (equal : pseudoSuffix first = pseudoSuffix second) : first = second := by
  cases first <;> cases second <;> simp_all [pseudoSuffix]
  exact escape_injective equal

theorem ofClass_inj {first second : Text} {firstPseudo secondPseudo : Option Text}
    (equal : ofClass first firstPseudo = ofClass second secondPseudo) :
    first = second ∧ firstPseudo = secondPseudo := by
  rw [ofClass_eq_append, ofClass_eq_append] at equal
  rcases escape_append_inj (endsName_pseudoSuffix firstPseudo)
    (endsName_pseudoSuffix secondPseudo) equal with ⟨names, suffixes⟩
  exact ⟨names, pseudoSuffix_injective suffixes⟩

end Selector

/-- A key under which a rule of the class may be collected, whatever the configuration is. -/
def RuleKey.IsFor (className : Text) (key : RuleKey) : Prop :=
  (∃ pseudo, key = .ofClass className pseudo) ∨ ∃ condition, key = .ofMedia condition className

theorem RuleKey.IsFor.unique {first second : Text} {key : RuleKey} (isFirst : key.IsFor first)
    (isSecond : key.IsFor second) : first = second := by
  rcases isFirst with ⟨pseudo, rfl⟩ | ⟨condition, rfl⟩
  · rcases isSecond with ⟨other, equal⟩ | ⟨other, equal⟩
    · exact (Selector.ofClass_inj (RuleKey.plain.inj equal)).1
    · cases equal
  · rcases isSecond with ⟨other, equal⟩ | ⟨other, equal⟩
    · cases equal
    · exact Selector.escape_injective (RuleKey.media.inj equal).2

theorem Config.isFor_ruleKey (config : Config) (className : Text) (scope : Option Text) :
    (config.ruleKey className scope).IsFor className := by
  rw [Config.ruleKey]
  split
  · exact Or.inr ⟨_, rfl⟩
  · exact Or.inl ⟨_, rfl⟩

/-- The key of a class determines the class, whatever the scopes and the breakpoints are. -/
theorem Config.ruleKey_injective {config : Config} {first second : Text}
    {firstScope secondScope : Option Text}
    (equal : config.ruleKey first firstScope = config.ruleKey second secondScope) :
    first = second := by
  have isSecond := config.isFor_ruleKey second secondScope
  rw [← equal] at isSecond
  exact (config.isFor_ruleKey first firstScope).unique isSecond

end UtilityCss
