import Mathlib.Data.List.TakeWhile
import UtilityCss.ClassName.Grammar
import UtilityCss.Proofs.Text.Character

/-!
# Shapes of values

The forms of values are cut by longest match and never take a character back. Their shapes say what
a value of each form is without any order of attempts: digits with an optional fraction, words
joined by hyphens, and so on.

What a form cuts has its shape and stands in front of the rest. Conversely a value of a shape is cut
whole, up to characters that a unit could take as well; so once the unit behind the value is cut,
the same text is left over as in any other reading.
-/

namespace UtilityCss

/-- A text of at least one character in which all characters are of one class. -/
def Text.IsRun (isMember : Char → Bool) (text : Text) : Prop :=
  text ≠ [] ∧ ∀ c ∈ text, isMember c = true

theorem Text.isRun_singleton {isMember : Char → Bool} {c : Char} (inside : isMember c = true) :
    Text.IsRun isMember [c] :=
  ⟨by simp, by simpa using inside⟩

theorem Text.IsRun.cons {isMember : Char → Bool} {c : Char} {text : Text}
    (inside : isMember c = true) (run : Text.IsRun isMember text) :
    Text.IsRun isMember (c :: text) := by
  refine ⟨by simp, ?_⟩
  intro d member
  rcases List.mem_cons.mp member with rfl | later
  · exact inside
  · exact run.2 d later

theorem Text.IsRun.not_mem {isMember : Char → Bool} {text : Text} {c : Char}
    (run : Text.IsRun isMember text) (outside : isMember c = false) : c ∉ text := by
  intro member
  rw [run.2 c member] at outside
  cases outside

/-- Digits with an optional point and more digits. -/
inductive IsDecimal : Text → Prop where
  | whole {digits : Text} (isWhole : Text.IsRun Char.isDigit digits) : IsDecimal digits
  | point {digits fraction : Text} (isWhole : Text.IsRun Char.isDigit digits)
      (isFraction : Text.IsRun Char.isDigit fraction) : IsDecimal (digits ++ '.' :: fraction)

/-- Words joined by single hyphens. -/
inductive IsIdent : Text → Prop where
  | word {word : Text} (isWord : Text.IsRun isAsciiWord word) : IsIdent word
  | hyphen {word rest : Text} (isWord : Text.IsRun isAsciiWord word) (more : IsIdent rest) :
      IsIdent (word ++ '-' :: rest)

/-- The values of a form. -/
inductive ValueForm.Shape : ValueForm → Text → Prop where
  | decimal {text : Text} (isDecimal : IsDecimal text) : Shape .number text
  | negative {text : Text} (isDecimal : IsDecimal text) : Shape .number ('-' :: text)
  | ident {text : Text} (isIdent : IsIdent text) : Shape .ident text
  | hex {digits : Text} (isRun : Text.IsRun ValueForm.isHexDigit digits) :
      Shape .hex ('#' :: digits)
  | bracket {literal : Text} (isRun : Text.IsRun (fun c => c != ']') literal) :
      Shape .bracket ('[' :: literal ++ [']'])
  | reference {name : Text} (isRun : Text.IsRun (fun c => !isAsciiBlank c) name) :
      Shape .reference ('$' :: name)

theorem IsDecimal.not_mem {text : Text} {c : Char} (isDecimal : IsDecimal text)
    (noDigit : c.isDigit = false) (noPoint : c ≠ '.') : c ∉ text := by
  cases isDecimal with
  | whole isWhole => exact isWhole.not_mem noDigit
  | @point digits fraction isWhole isFraction =>
      have inDigits : c ∉ digits := isWhole.not_mem noDigit
      have inFraction : c ∉ fraction := isFraction.not_mem noDigit
      simp [inDigits, inFraction, noPoint]

theorem IsIdent.not_mem {text : Text} {c : Char} (isIdent : IsIdent text)
    (noWord : isAsciiWord c = false) (noHyphen : c ≠ '-') : c ∉ text := by
  induction isIdent with
  | word isWord => exact isWord.not_mem noWord
  | @hyphen word rest isWord more ih =>
      have inWord : c ∉ word := isWord.not_mem noWord
      simp [inWord, ih, noHyphen]

namespace ValueForm

theorem Shape.ne_nil {form : ValueForm} {value : Text} (shape : Shape form value) :
    value ≠ [] := by
  cases shape with
  | decimal isDecimal =>
      cases isDecimal with
      | whole isWhole => exact isWhole.1
      | point isWhole isFraction => simp
  | ident isIdent =>
      cases isIdent with
      | word isWord => exact isWord.1
      | hyphen isWord more => simp
  | _ => simp

/-- Only a reference begins with the dollar sign. -/
theorem Shape.eq_reference {form : ValueForm} {value : Text} (shape : Shape form value)
    (starts : value.head? = some '$') : form = .reference := by
  have member : '$' ∈ value := List.mem_of_head? starts
  cases shape with
  | decimal isDecimal => exact absurd member (isDecimal.not_mem (by decide) (by decide))
  | negative isDecimal => cases starts
  | ident isIdent => exact absurd member (isIdent.not_mem (by decide) (by decide))
  | hex isRun => cases starts
  | bracket isRun => cases starts
  | reference isRun => rfl

theorem cutWhile_sound {isMember : Char → Bool} {text first rest : Text}
    (cut : cutWhile isMember text = (first, rest)) :
    text = first ++ rest ∧ ∀ c ∈ first, isMember c = true := by
  rcases Prod.mk.inj cut with ⟨rfl, rfl⟩
  exact ⟨List.takeWhile_append_dropWhile.symm, fun c member => List.mem_takeWhile_imp member⟩

theorem cutWhile_append {isMember : Char → Bool} {first : Text}
    (inside : ∀ c ∈ first, isMember c = true) (rest : Text) :
    cutWhile isMember (first ++ rest) =
      (first ++ rest.takeWhile isMember, rest.dropWhile isMember) := by
  rw [cutWhile, List.takeWhile_append_of_pos inside, List.dropWhile_append_of_pos inside]

theorem takeWhile_of_head {isMember : Char → Bool} {text : Text}
    (stops : ∀ c ∈ text.head?, isMember c = false) : text.takeWhile isMember = [] := by
  cases text with
  | nil => rfl
  | cons c rest => simp [stops c rfl]

theorem dropWhile_of_head {isMember : Char → Bool} {text : Text}
    (stops : ∀ c ∈ text.head?, isMember c = false) : text.dropWhile isMember = text := by
  cases text with
  | nil => rfl
  | cons c rest => simp [stops c rfl]

theorem noMember_of_head?_dropWhile {isMember : Char → Bool} {text : Text} :
    ∀ c ∈ (text.dropWhile isMember).head?, isMember c = false := by
  intro c isHead
  have stops := List.head?_dropWhile_not isMember text
  rw [Option.mem_def.mp isHead] at stops
  simpa using stops

/-! ## What is cut has the shape -/

theorem cutDecimal?_sound {text value rest : Text} (cut : cutDecimal? text = some (value, rest)) :
    IsDecimal value ∧ text = value ++ rest := by
  rw [cutDecimal?] at cut
  split at cut
  · cases cut
  · rename_i whole tail nonempty found
    rcases cutWhile_sound found with ⟨rfl, digits⟩
    have isWhole : Text.IsRun Char.isDigit whole := ⟨nonempty, digits⟩
    split at cut
    · cases cut
      exact ⟨.whole isWhole, rfl⟩
    · rename_i fraction after hasDigit foundFraction
      rcases cutWhile_sound foundFraction with ⟨rfl, fractionDigits⟩
      cases cut
      exact ⟨.point isWhole ⟨hasDigit, fractionDigits⟩, by simp⟩
  · rename_i whole tail nonempty noPoint found
    rcases cutWhile_sound found with ⟨rfl, digits⟩
    cases cut
    exact ⟨.whole ⟨nonempty, digits⟩, rfl⟩

theorem cutNumber?_sound {text value rest : Text} (cut : cutNumber? text = some (value, rest)) :
    Shape .number value ∧ text = value ++ rest := by
  simp only [cutNumber?] at cut
  split at cut
  · rcases Option.map_eq_some_iff.mp cut with ⟨⟨decimal, after⟩, found, equal⟩
    rcases cutDecimal?_sound found with ⟨isDecimal, rfl⟩
    cases equal
    exact ⟨.negative isDecimal, rfl⟩
  · rcases cutDecimal?_sound cut with ⟨isDecimal, rfl⟩
    exact ⟨.decimal isDecimal, rfl⟩

end ValueForm

theorem IsIdent.cons {c : Char} {rest : Text} (isWord : isAsciiWord c = true)
    (more : IsIdent rest) : IsIdent (c :: rest) := by
  cases more with
  | word run => exact .word (run.cons isWord)
  | hyphen run after =>
      rw [← List.cons_append]
      exact .hyphen (run.cons isWord) after

theorem IsIdent.single {c : Char} (isWord : isAsciiWord c = true) : IsIdent [c] :=
  .word (Text.isRun_singleton isWord)

namespace ValueForm

theorem cutWords_append (text : Text) : text = (cutWords text).1 ++ (cutWords text).2 := by
  induction text with
  | nil => rfl
  | cons c rest ih =>
      rw [cutWords]
      split
      · exact congrArg (c :: ·) ih
      · rfl

theorem cutWords_cons_word {c : Char} (isWord : isAsciiWord c = true) (rest : Text) :
    cutWords (c :: rest) = (c :: (cutWords rest).1, (cutWords rest).2) := by
  simp [cutWords, isWord]

/-- Words are cut as words joined by hyphens. The recursion skips a hyphen together with the
character in front of it, since a hyphen alone starts no word. -/
theorem isIdent_cutWords : ∀ {text : Text}, startsWord text = true → IsIdent (cutWords text).1
  | [], starts => by cases starts
  | [c], starts => by
      have isWord : isAsciiWord c = true := starts
      simpa [cutWords, isWord] using IsIdent.single isWord
  | c :: d :: rest, starts => by
      have isWord : isAsciiWord c = true := starts
      rw [cutWords_cons_word isWord]
      by_cases next : isAsciiWord d = true
      · have more : IsIdent (cutWords (d :: rest)).1 := isIdent_cutWords next
        exact more.cons isWord
      · by_cases hyphen : d = '-' ∧ startsWord rest = true
        · rcases hyphen with ⟨rfl, later⟩
          have joined : cutWords ('-' :: rest) =
              ('-' :: (cutWords rest).1, (cutWords rest).2) := by
            simp [cutWords, later]
          rw [joined]
          exact .hyphen (Text.isRun_singleton isWord) (isIdent_cutWords later)
        · have stops : cutWords (d :: rest) = ([], d :: rest) := by
            simp_all [cutWords]
          rw [stops]
          exact IsIdent.single isWord

theorem cutIdent?_sound {text value rest : Text} (cut : cutIdent? text = some (value, rest)) :
    Shape .ident value ∧ text = value ++ rest := by
  rw [cutIdent?] at cut
  split at cut
  · rename_i starts
    have whole := cutWords_append text
    have isIdent := isIdent_cutWords starts
    rw [Option.some.inj cut] at whole isIdent
    exact ⟨.ident isIdent, whole⟩
  · cases cut

theorem cutHex?_sound {text value rest : Text} (cut : cutHex? text = some (value, rest)) :
    Shape .hex value ∧ text = value ++ rest := by
  simp only [cutHex?] at cut
  split at cut
  · split at cut
    · cases cut
    · rename_i digits after nonempty found
      rcases cutWhile_sound found with ⟨rfl, inside⟩
      cases cut
      exact ⟨.hex ⟨nonempty, inside⟩, rfl⟩
  · cases cut

theorem cutBracket?_sound {text value rest : Text} (cut : cutBracket? text = some (value, rest)) :
    Shape .bracket value ∧ text = value ++ rest := by
  simp only [cutBracket?] at cut
  split at cut
  · split at cut
    · cases cut
    · rename_i literal after nonempty found
      rcases cutWhile_sound found with ⟨rfl, inside⟩
      cases cut
      exact ⟨.bracket ⟨nonempty, inside⟩, by simp⟩
    · cases cut
  · cases cut

theorem cutReference?_sound {text value rest : Text}
    (cut : cutReference? text = some (value, rest)) :
    Shape .reference value ∧ text = value ++ rest := by
  simp only [cutReference?] at cut
  split at cut
  · split at cut
    · cases cut
    · rename_i name after nonempty found
      rcases cutWhile_sound found with ⟨rfl, inside⟩
      cases cut
      exact ⟨.reference ⟨nonempty, inside⟩, rfl⟩
  · cases cut

/-- A reference goes on to a blank character. -/
theorem cutReference?_stops {text value rest : Text}
    (cut : cutReference? text = some (value, rest)) :
    ∀ c ∈ rest.head?, isAsciiBlank c = true := by
  simp only [cutReference?] at cut
  split at cut
  · rename_i name
    split at cut
    · cases cut
    · rename_i first after nonempty found
      cases cut
      rcases Prod.mk.inj found with ⟨_, rfl⟩
      intro c isHead
      simpa using noMember_of_head?_dropWhile c isHead
  · cases cut

/-- What a form cuts has its shape, and no character is lost. -/
theorem cut?_sound {form : ValueForm} {text value rest : Text}
    (cut : form.cut? text = some (value, rest)) : Shape form value ∧ text = value ++ rest := by
  cases form with
  | number => exact cutNumber?_sound cut
  | ident => exact cutIdent?_sound cut
  | hex => exact cutHex?_sound cut
  | bracket => exact cutBracket?_sound cut
  | reference => exact cutReference?_sound cut

/-! ## What has the shape is cut -/

theorem cutWhile_append_of_head {isMember : Char → Bool} {first rest : Text}
    (inside : ∀ c ∈ first, isMember c = true) (stops : ∀ c ∈ rest.head?, isMember c = false) :
    cutWhile isMember (first ++ rest) = (first, rest) := by
  rw [cutWhile_append inside, takeWhile_of_head stops, dropWhile_of_head stops, List.append_nil]

theorem cutDecimal?_append {value rest : Text} (isDecimal : IsDecimal value)
    (stops : ∀ c ∈ rest.head?, c.isDigit = false ∧ c ≠ '.') :
    cutDecimal? (value ++ rest) = some (value, rest) := by
  have noDigit : ∀ c ∈ rest.head?, c.isDigit = false := fun c isHead => (stops c isHead).1
  cases isDecimal with
  | whole isWhole =>
      rcases List.exists_cons_of_ne_nil isWhole.1 with ⟨d, digits, rfl⟩
      rw [cutDecimal?, cutWhile_append_of_head isWhole.2 noDigit]
      split
      · simp_all
      · rename_i found
        rcases Prod.mk.inj found with ⟨rfl, rfl⟩
        exact absurd rfl (stops '.' rfl).2
      · rename_i found
        rcases Prod.mk.inj found with ⟨rfl, rfl⟩
        rfl
  | @point digits fraction isWhole isFraction =>
      rcases List.exists_cons_of_ne_nil isWhole.1 with ⟨d, digits, rfl⟩
      rcases List.exists_cons_of_ne_nil isFraction.1 with ⟨e, fraction, rfl⟩
      have atPoint : ∀ c ∈ ('.' :: e :: fraction ++ rest).head?, c.isDigit = false := by
        simp
      rw [List.append_assoc, cutDecimal?, cutWhile_append_of_head isWhole.2 atPoint]
      simp only [List.cons_append]
      rw [← List.cons_append, cutWhile_append_of_head isFraction.2 noDigit]

end ValueForm

theorem IsDecimal.exists_digit {value : Text} (isDecimal : IsDecimal value) :
    ∃ d rest, value = d :: rest ∧ d.isDigit = true := by
  cases isDecimal with
  | whole isWhole =>
      rcases List.exists_cons_of_ne_nil isWhole.1 with ⟨d, digits, rfl⟩
      exact ⟨d, digits, rfl, isWhole.2 d List.mem_cons_self⟩
  | point isWhole isFraction =>
      rcases List.exists_cons_of_ne_nil isWhole.1 with ⟨d, digits, rfl⟩
      exact ⟨d, _, rfl, isWhole.2 d List.mem_cons_self⟩

theorem IsIdent.exists_word {value : Text} (isIdent : IsIdent value) :
    ∃ c rest, value = c :: rest ∧ isAsciiWord c = true := by
  cases isIdent with
  | word run =>
      rcases List.exists_cons_of_ne_nil run.1 with ⟨c, word, rfl⟩
      exact ⟨c, word, rfl, run.2 c List.mem_cons_self⟩
  | hyphen run more =>
      rcases List.exists_cons_of_ne_nil run.1 with ⟨c, word, rfl⟩
      exact ⟨c, _, rfl, run.2 c List.mem_cons_self⟩

namespace ValueForm

theorem cutWords_append_of_run {word : Text} (inside : ∀ c ∈ word, isAsciiWord c = true)
    (rest : Text) :
    cutWords (word ++ rest) = (word ++ (cutWords rest).1, (cutWords rest).2) := by
  induction word with
  | nil => rfl
  | cons c word ih =>
      have tail : ∀ d ∈ word, isAsciiWord d = true :=
        fun d member => inside d (List.mem_cons_of_mem c member)
      rw [List.cons_append, cutWords_cons_word (inside c List.mem_cons_self), ih tail]
      rfl

theorem cutWords_append_of_isIdent {value : Text} (isIdent : IsIdent value) (rest : Text) :
    cutWords (value ++ rest) = (value ++ (cutWords rest).1, (cutWords rest).2) := by
  induction isIdent with
  | word run => exact cutWords_append_of_run run.2 rest
  | @hyphen word more run isMore ih =>
      rcases isMore.exists_word with ⟨c, after, rfl, isWord⟩
      have joined : cutWords ('-' :: (c :: after ++ rest)) =
          ('-' :: (cutWords (c :: after ++ rest)).1, (cutWords (c :: after ++ rest)).2) := by
        simp [cutWords, startsWord, isWord]
      rw [List.append_assoc, cutWords_append_of_run run.2, List.cons_append, joined, ih]
      simp

/-- A text ends a quantity in front of it when it is empty or starts with a slash. -/
def EndsQuantity (tail : Text) : Prop :=
  ∀ c ∈ tail.head?, c = '/'

/-- The units: any number of unit characters. -/
def IsUnit (unit : Text) : Prop :=
  ∀ c ∈ unit, Grammar.isUnitChar c = true

theorem EndsQuantity.noMember {isMember : Char → Bool} {tail : Text} (ends : EndsQuantity tail)
    (noSlash : isMember '/' = false) : ∀ c ∈ tail.head?, isMember c = false := by
  intro c isHead
  rw [ends c isHead]
  exact noSlash

theorem IsUnit.tail {c : Char} {unit : Text} (isUnit : IsUnit (c :: unit)) : IsUnit unit :=
  fun d member => isUnit d (List.mem_cons_of_mem c member)

theorem dropUnit {unit tail : Text} (isUnit : IsUnit unit) (ends : EndsQuantity tail) :
    (unit ++ tail).dropWhile Grammar.isUnitChar = tail := by
  rw [List.dropWhile_append_of_pos isUnit, dropWhile_of_head (ends.noMember (by decide))]

/-- A form may take the first part of a unit; behind the unit the same text is left. -/
theorem dropUnit_dropWhile {isMember : Char → Bool} {unit tail : Text} (isUnit : IsUnit unit)
    (ends : EndsQuantity tail) (noSlash : isMember '/' = false) :
    ((unit ++ tail).dropWhile isMember).dropWhile Grammar.isUnitChar = tail := by
  induction unit with
  | nil =>
      rw [List.nil_append, dropWhile_of_head (ends.noMember noSlash)]
      exact dropWhile_of_head (ends.noMember (by decide))
  | cons c unit ih =>
      by_cases taken : isMember c = true
      · simpa [taken] using ih isUnit.tail
      · rw [List.cons_append, List.dropWhile_cons_of_neg taken]
        exact dropUnit isUnit ends

theorem isDigit_of_isUnitChar {c : Char} (unitChar : Grammar.isUnitChar c = true) :
    c.isDigit = false := by
  simp only [Grammar.isUnitChar, Bool.or_eq_true, beq_iff_eq] at unitChar
  rcases unitChar with letter | rfl
  · exact isDigit_of_isAlpha letter
  · decide

theorem noDecimal_unit {unit tail : Text} (isUnit : IsUnit unit) (ends : EndsQuantity tail) :
    ∀ c ∈ (unit ++ tail).head?, c.isDigit = false ∧ c ≠ '.' := by
  intro c isHead
  cases unit with
  | nil =>
      rw [ends c isHead]
      decide
  | cons d unit =>
      have unitChar : Grammar.isUnitChar c = true := by
        rw [← Option.some.inj isHead]
        exact isUnit d List.mem_cons_self
      refine ⟨isDigit_of_isUnitChar unitChar, ?_⟩
      rintro rfl
      exact absurd unitChar (by decide)

/-- No unit and no end of a quantity joins words, so only word characters are cut from them. -/
theorem cutWords_unit {unit tail : Text} (isUnit : IsUnit unit) (ends : EndsQuantity tail) :
    (cutWords (unit ++ tail)).2 = (unit ++ tail).dropWhile isAsciiWord := by
  induction unit with
  | nil =>
      cases tail with
      | nil => rfl
      | cons c tail =>
          have slash : c = '/' := ends c rfl
          subst c
          rfl
  | cons c unit ih =>
      by_cases isWord : isAsciiWord c = true
      · rw [List.cons_append, cutWords_cons_word isWord, List.dropWhile_cons_of_pos isWord]
        exact ih isUnit.tail
      · have noHyphen : c ≠ '-' := by
          rintro rfl
          exact absurd (isUnit '-' List.mem_cons_self) (by decide)
        rw [List.cons_append, List.dropWhile_cons_of_neg isWord]
        simp [cutWords, isWord, noHyphen]

theorem cutBracket?_append {value : Text} (shape : Shape .bracket value) (rest : Text) :
    cutBracket? (value ++ rest) = some (value, rest) := by
  cases shape with
  | @bracket literal isRun =>
      rcases List.exists_cons_of_ne_nil isRun.1 with ⟨c, more, rfl⟩
      have closes : ∀ d ∈ (']' :: rest).head?, (d != ']') = false := by simp
      have inner : '[' :: (c :: more) ++ [']'] ++ rest = '[' :: (c :: more ++ ']' :: rest) := by
        simp
      rw [inner, cutBracket?, cutWhile_append_of_head isRun.2 closes]
      rfl

/-- Whatever form but a reference cuts in front of a unit, the text behind the unit is left. -/
theorem exists_cut?_of_shape {form : ValueForm} {value unit tail : Text}
    (shape : Shape form value) (noReference : form ≠ .reference) (isUnit : IsUnit unit)
    (ends : EndsQuantity tail) :
    ∃ cutValue rest, form.cut? (value ++ (unit ++ tail)) = some (cutValue, rest) ∧
      rest.dropWhile Grammar.isUnitChar = tail := by
  have noDecimal := noDecimal_unit isUnit ends
  cases shape with
  | decimal isDecimal =>
      rcases isDecimal.exists_digit with ⟨d, digits, rfl, isDigit⟩
      have noMinus : d ≠ '-' := by
        rintro rfl
        exact absurd isDigit (by decide)
      refine ⟨d :: digits, unit ++ tail, ?_, dropUnit isUnit ends⟩
      rw [← cutDecimal?_append isDecimal noDecimal]
      simp [cut?, cutNumber?, noMinus]
  | @negative text isDecimal =>
      refine ⟨'-' :: text, unit ++ tail, ?_, dropUnit isUnit ends⟩
      simp [cut?, cutNumber?, cutDecimal?_append isDecimal noDecimal]
  | ident isIdent =>
      rcases isIdent.exists_word with ⟨c, rest, rfl, isWord⟩
      refine ⟨c :: rest ++ (cutWords (unit ++ tail)).1, (cutWords (unit ++ tail)).2, ?_, ?_⟩
      · rw [cut?, cutIdent?, cutWords_append_of_isIdent isIdent]
        simp [startsWord, isWord]
      · rw [cutWords_unit isUnit ends]
        exact dropUnit_dropWhile isUnit ends (by decide)
  | @hex digits isRun =>
      rcases List.exists_cons_of_ne_nil isRun.1 with ⟨d, more, rfl⟩
      refine ⟨'#' :: (d :: more ++ (unit ++ tail).takeWhile isHexDigit),
        (unit ++ tail).dropWhile isHexDigit, ?_, dropUnit_dropWhile isUnit ends (by decide)⟩
      rw [cut?, List.cons_append, cutHex?, cutWhile_append isRun.2]
      rfl
  | @bracket literal isRun =>
      exact ⟨'[' :: literal ++ [']'], unit ++ tail, cutBracket?_append (.bracket isRun) _,
        dropUnit isUnit ends⟩
  | reference isRun => exact absurd rfl noReference

/-- A reference goes on to the end of a text without blank characters. -/
theorem cutReference?_of_noBlank {name : Text} (nonempty : name ≠ [])
    (noBlank : ∀ c ∈ name, isAsciiBlank c = false) :
    cutReference? ('$' :: name) = some ('$' :: name, []) := by
  have inside : ∀ c ∈ name, (!isAsciiBlank c) = true := by simpa using noBlank
  have whole := cutWhile_append inside []
  rcases List.exists_cons_of_ne_nil nonempty with ⟨c, rest, rfl⟩
  rw [List.append_nil] at whole
  rw [cutReference?, whole]
  simp

end ValueForm

end UtilityCss
