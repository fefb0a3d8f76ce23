import UtilityCss.Config.FromDatum
import UtilityCss.Yaml.Meaning

/-!
# Scalars that mean the same on two ways

A scalar can be read as data first, or as what is expected. Expected text is the text of the scalar;
data agree when the scalar means text at all. An expected width agrees with the data of the scalar
when it is written as a width: plain, or as a literal block that is marked as an integer, and without
a minus sign.
-/

namespace UtilityCss

namespace Yaml

namespace Meaning

variable {tag : Option Text} {style : ScalarStyle} {text : Text} {datum : Datum} {bound : Option UInt32}

/-- Whether a scalar is written as a width. -/
def IsWidthForm (tag : Option Text) (style : ScalarStyle) (text : Text) : Prop :=
  (style = .plain ∨ style = .literal ∧ tag = some (commonTag "int")) ∧ text.head? ≠ some '-'

theorem integer_cases (number : integer text = .ok (some datum)) :
    (∃ value, datum = .natural value ∧ unsigned? text = some value ∧ text.head? ≠ some '-') ∨
    ∃ value, datum = .integer value ∧ text.head? = some '-' := by
  rw [integer.eq_def] at number
  split at number
  · split at number
    · cases number
    · split at number
      · cases number
        exact Or.inr ⟨_, rfl, rfl⟩
      · split at number <;> cases number
  · rename_i noMinus
    have noMinus : text.head? ≠ some '-' := by
      cases text with
      | nil => simp
      | cons c text =>
          rw [List.head?_cons, ne_eq, Option.some.injEq]
          rintro rfl
          exact noMinus text rfl
    split at number
    · cases number
    · rename_i value isValue
      split at number
      · cases number
        exact Or.inl ⟨value, rfl, isValue, noMinus⟩
      · split at number <;> cases number

theorem ofPlain_cases (means : ofPlain text = .ok datum) :
    (datum = .null ∧ (text.isEmpty || isNull text) = true) ∨
    (integer text = .ok (some datum) ∧ (text.isEmpty || isNull text) = false) ∨
    datum = .text text ∨ (∃ value, datum = .bool value) ∨ ∃ value, datum = .real value := by
  rw [ofPlain] at means
  split at means
  · rename_i nothing
    cases means
    exact Or.inl ⟨rfl, nothing⟩
  · rename_i something
    split at means
    · rename_i value _
      cases means
      exact Or.inr (Or.inr (Or.inr (Or.inl ⟨value, rfl⟩)))
    · cases number : integer text with
      | error fault => simp [number, Except.map] at means
      | ok found =>
          cases found with
          | some found =>
              simp only [number, Except.map, Except.ok.injEq] at means
              subst means
              exact Or.inr (Or.inl ⟨rfl, by simpa using something⟩)
          | none =>
              simp only [number, Except.map, Except.ok.injEq] at means
              subst means
              split
              · rename_i value _
                exact Or.inr (Or.inr (Or.inr (Or.inr ⟨value, rfl⟩)))
              · exact Or.inr (Or.inr (Or.inl rfl))

/-- What a scalar can mean, and how it must be written for that. -/
theorem ofScalar_cases (means : ofScalar tag style text = .ok datum) :
    (datum = .null ∧ (tag = none ∧ style = .plain ∧ (text.isEmpty || isNull text) = true ∨
      tag = some (commonTag "null") ∧ isNull text = true)) ∨
    (integer text = .ok (some datum) ∧
      (tag = none ∧ style = .plain ∧ (text.isEmpty || isNull text) = false ∨
        tag = some (commonTag "int"))) ∨
    datum = .text text ∨ (∃ value, datum = .bool value) ∨ ∃ value, datum = .real value := by
  cases tag with
  | none =>
      simp only [ofScalar] at means
      split at means
      · rename_i isPlain
        have isPlain : style = .plain := by simpa using isPlain
        rcases ofPlain_cases means with ⟨rfl, nothing⟩ | ⟨number, something⟩ | others
        · exact Or.inl ⟨rfl, Or.inl ⟨rfl, isPlain, nothing⟩⟩
        · exact Or.inr (Or.inl ⟨number, Or.inl ⟨rfl, isPlain, something⟩⟩)
        · exact Or.inr (Or.inr others)
      · cases means
        exact Or.inr (Or.inr (Or.inl rfl))
  | some name =>
      simp only [ofScalar] at means
      split at means
      · cases means
      · split at means
        · cases truth : bool? text with
          | none => simp [truth, required] at means
          | some value =>
              simp only [truth, Option.map_some, required, Except.ok.injEq] at means
              exact Or.inr (Or.inr (Or.inr (Or.inl ⟨value, means.symm⟩)))
        · split at means
          · rename_i isInt
            cases number : integer text with
            | error fault => simp [number, Except.bind] at means
            | ok found =>
                cases found with
                | none => simp [number, Except.bind, required] at means
                | some found =>
                    simp only [number, Except.bind, required, Except.ok.injEq] at means
                    subst means
                    exact Or.inr (Or.inl ⟨rfl, Or.inr (by simpa using isInt)⟩)
          · split at means
            · cases number : real? text with
              | none => simp [number, required] at means
              | some value =>
                  simp only [number, Option.map_some, required, Except.ok.injEq] at means
                  exact Or.inr (Or.inr (Or.inr (Or.inr ⟨value, means.symm⟩)))
            · split at means
              · rename_i isNullTag
                split at means
                · rename_i nothing
                  cases means
                  exact Or.inl ⟨rfl, Or.inr ⟨by simpa using isNullTag, nothing⟩⟩
                · cases means
              · cases means
                exact Or.inr (Or.inr (Or.inl rfl))

theorem ne_collection (means : ofScalar tag style text = .ok datum) :
    (∀ items, datum ≠ .list items) ∧ ∀ entries, datum ≠ .map entries := by
  rcases ofScalar_cases means with ⟨rfl, _⟩ | ⟨number, _⟩ | rfl | ⟨_, rfl⟩ | ⟨_, rfl⟩
  · simp
  · rcases integer_cases number with ⟨_, rfl, _⟩ | ⟨_, rfl, _⟩ <;> simp
  · simp
  · simp
  · simp

theorem eq_of_asText? {name : Text} (means : ofScalar tag style text = .ok datum)
    (isText : datum.asText? = some name) : name = text := by
  rcases ofScalar_cases means with ⟨rfl, _⟩ | ⟨number, _⟩ | rfl | ⟨_, rfl⟩ | ⟨_, rfl⟩
  · cases isText
  · rcases integer_cases number with ⟨_, rfl, _⟩ | ⟨_, rfl, _⟩ <;> cases isText
  · exact (Option.some.inj isText).symm
  · cases isText
  · cases isText

theorem integer_of_natural {place : Nat} (means : ofScalar tag style text = .ok (.natural place)) :
    integer text = .ok (some (.natural place)) := by
  rcases ofScalar_cases means with ⟨isNull, _⟩ | ⟨number, _⟩ | isText | ⟨_, isBool⟩ | ⟨_, isReal⟩
  · cases isNull
  · exact number
  · cases isText
  · cases isBool
  · cases isReal

theorem not_unsigned?_minus (text : Text) : unsigned? ('-' :: text) = none := by
  have noDigit : Json.hexValue? '-' = none := by decide
  have noDigits : digits? 10 ('-' :: text) = none := by
    simp [digits?, noDigit]
  simp [unsigned?, magnitude?, noDigits]

theorem no_minus_of_nothing (nothing : (text.isEmpty || isNull text) = true) :
    text.head? ≠ some '-' := by
  rw [Bool.or_eq_true, List.isEmpty_iff] at nothing
  rcases nothing with rfl | word
  · simp
  · simp only [isNull, isWordOf, List.any_cons, List.any_nil, Bool.or_false, Bool.or_eq_true,
      beq_iff_eq] at word
    rcases word with rfl | rfl | rfl | rfl <;> decide

theorem width_of_null
    (nothing : tag = none ∧ style = .plain ∧ (text.isEmpty || isNull text) = true ∨
      tag = some (commonTag "null") ∧ isNull text = true) :
    (IsWidthForm tag style text → width tag style text = .ok none) ∧
    ∀ other, width tag style text = .ok other → IsWidthForm tag style text := by
  have otherTags : commonTag "null" ≠ commonTag "int" := by decide
  rcases nothing with ⟨rfl, rfl, blank⟩ | ⟨rfl, word⟩
  · refine ⟨fun _ => ?_, fun _ _ => ⟨Or.inl rfl, no_minus_of_nothing blank⟩⟩
    simp [width, blank]
  · have noMinus : text.head? ≠ some '-' := no_minus_of_nothing (by simp [word])
    by_cases isPlain : style = .plain
    · refine ⟨fun _ => ?_, fun _ _ => ⟨Or.inl isPlain, noMinus⟩⟩
      simp [width, isPlain, word]
    · have fails : width (some (commonTag "null")) style text = .error .unexpectedShape := by
        simp [width, isPlain, otherTags]
      refine ⟨?_, fun other written => ?_⟩
      · rintro ⟨plain | ⟨_, isInt⟩, _⟩
        · exact absurd plain isPlain
        · exact absurd (Option.some.inj isInt) otherTags
      · rw [fails] at written
        cases written

theorem width_of_unsigned {value : Nat} (isValue : unsigned? text = some value)
    (fits : value < bitBound 32) (noMinus : text.head? ≠ some '-')
    (written : tag = none ∧ style = .plain ∧ (text.isEmpty || isNull text) = false ∨
      tag = some (commonTag "int")) :
    (IsWidthForm tag style text → width tag style text = .ok (some value.toUInt32)) ∧
    ∀ other, width tag style text = .ok other → IsWidthForm tag style text := by
  have otherTags : commonTag "int" ≠ commonTag "null" := by decide
  rcases written with ⟨rfl, rfl, something⟩ | rfl
  · refine ⟨fun _ => ?_, fun _ _ => ⟨Or.inl rfl, noMinus⟩⟩
    simp [width, something, isValue, fits]
  · by_cases form : style = .plain ∨ style = .literal
    · refine ⟨fun _ => ?_, fun _ _ => ⟨by simpa using form, noMinus⟩⟩
      rcases form with rfl | rfl <;> simp [width, isValue, fits, otherTags]
    · rw [not_or] at form
      have fails : width (some (commonTag "int")) style text = .error .unexpectedShape := by
        simp [width, form, otherTags]
      refine ⟨?_, fun other isWidth => ?_⟩
      · rintro ⟨plain | ⟨literal, _⟩, _⟩
        · exact absurd plain form.1
        · exact absurd literal form.2
      · rw [fails] at isWidth
        cases isWidth

theorem width_of_minus (isMinus : text.head? = some '-')
    (written : tag = none ∧ style = .plain ∧ (text.isEmpty || isNull text) = false ∨
      tag = some (commonTag "int")) :
    width tag style text = .error .unexpectedShape := by
  have otherTags : commonTag "int" ≠ commonTag "null" := by decide
  have noNumber : unsigned? text = none := by
    cases text with
    | nil => cases isMinus
    | cons c text =>
        cases isMinus
        exact not_unsigned?_minus text
  rcases written with ⟨rfl, rfl, something⟩ | rfl
  · simp [width, something, noNumber]
  · simp [width, noNumber, otherTags]

/-- A scalar that data take for a width is a width exactly when it is written as one. -/
theorem width_of_asWidth? (means : ofScalar tag style text = .ok datum)
    (isWidth : datum.asWidth? = some bound) :
    (IsWidthForm tag style text → width tag style text = .ok bound) ∧
    ∀ other, width tag style text = .ok other → IsWidthForm tag style text := by
  rcases ofScalar_cases means with ⟨rfl, nothing⟩ | ⟨number, written⟩ | rfl | ⟨_, rfl⟩ | ⟨_, rfl⟩
  · cases isWidth
    exact width_of_null nothing
  · rcases integer_cases number with ⟨value, rfl, isValue, noMinus⟩ | ⟨_, rfl, isMinus⟩
    · simp only [Datum.asWidth?, Option.ite_none_right_eq_some, Option.some.injEq] at isWidth
      rcases isWidth with ⟨fits, rfl⟩
      exact width_of_unsigned isValue fits noMinus written
    · have fails := width_of_minus isMinus written
      refine ⟨fun form => absurd isMinus form.2, fun other found => ?_⟩
      rw [fails] at found
      cases found
  · cases isWidth
  · cases isWidth
  · cases isWidth

end Meaning

end Yaml

end UtilityCss
