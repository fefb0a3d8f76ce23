import UtilityCss.Proofs.ClassName.Shape
import UtilityCss.Proofs.Text.Bytes

/-!
# The longest start of a form

What a form cuts from a text is the longest start of the text that has its shape: any start with the
shape is a start of what is cut. A text from which nothing is cut has no such start.

The same holds of the bytes of a text, and the longest start of its bytes ends where the longest
start of its characters does. For every form goes through a text by classes that tell no two
characters beyond ASCII apart, and by marks of ASCII.
-/

namespace UtilityCss

namespace ValueForm

/-- The length of the longest start that has the shape of a form, and none if no start has it. -/
def IsLongestStart (form : ValueForm) (text : Text) : Option Nat → Prop
  | none => ∀ length, ¬ Shape form (text.take length)
  | some length => length ≤ text.length ∧ Shape form (text.take length) ∧
      ∀ other ≤ text.length, Shape form (text.take other) → other ≤ length

/-! ## Marked runs -/

/-- Cuts a mark and the longest run of a class behind it. -/
def cutMarked? (mark : Char) (isMember : Char → Bool) : Text → Option (Text × Text)
  | [] => none
  | c :: rest =>
    if c = mark ∧ rest.takeWhile isMember ≠ [] then
      some (mark :: rest.takeWhile isMember, rest.dropWhile isMember)
    else
      none

theorem cutMarked?_eq_none {mark c : Char} (isMember : Char → Bool) (other : c ≠ mark)
    (rest : Text) : cutMarked? mark isMember (c :: rest) = none := by
  simp [cutMarked?, other]

/-- A marked run is cut with all that goes on behind it. -/
theorem cutMarked?_append (mark : Char) {isMember : Char → Bool} {run : Text}
    (isRun : Text.IsRun isMember run) (tail : Text) :
    cutMarked? mark isMember (mark :: run ++ tail) =
      some (mark :: run ++ tail.takeWhile isMember, tail.dropWhile isMember) := by
  have nonempty : run ++ tail.takeWhile isMember ≠ [] := by simp [isRun.1]
  rw [List.cons_append, cutMarked?, List.takeWhile_append_of_pos isRun.2,
    List.dropWhile_append_of_pos isRun.2, if_pos ⟨rfl, nonempty⟩]
  rfl

/-- Cuts a point and digits, or nothing. -/
def cutFraction (text : Text) : Text × Text :=
  (cutMarked? '.' Char.isDigit text).getD ([], text)

theorem cutDecimal?_eq (text : Text) :
    cutDecimal? text =
      if text.takeWhile Char.isDigit = [] then
        none
      else
        some (text.takeWhile Char.isDigit ++ (cutFraction (text.dropWhile Char.isDigit)).1,
          (cutFraction (text.dropWhile Char.isDigit)).2) := by
  simp only [cutDecimal?, cutWhile]
  generalize text.takeWhile Char.isDigit = whole
  generalize text.dropWhile Char.isDigit = rest
  cases whole with
  | nil => rfl
  | cons d digits =>
      rw [if_neg (List.cons_ne_nil d digits)]
      split
      · simp_all
      · rename_i whole after nonempty parts
        rcases Prod.mk.inj parts with ⟨rfl, rfl⟩
        simp only [cutFraction, cutMarked?, true_and]
        generalize after.takeWhile Char.isDigit = fraction
        cases fraction <;> simp
      · rename_i whole other nonempty noPoint parts
        rcases Prod.mk.inj parts with ⟨rfl, rfl⟩
        have uncut : cutMarked? '.' Char.isDigit rest = none := by
          cases rest with
          | nil => rfl
          | cons c after =>
              apply cutMarked?_eq_none
              rintro rfl
              exact noPoint after rfl
        simp [cutFraction, uncut]

theorem cutHex?_eq (text : Text) : cutHex? text = cutMarked? '#' isHexDigit text := by
  cases text with
  | nil => rfl
  | cons c rest =>
      by_cases isMark : c = '#'
      · subst c
        simp only [cutHex?, cutMarked?, cutWhile, true_and]
        generalize rest.takeWhile isHexDigit = digits
        cases digits <;> simp
      · simp [cutHex?, cutMarked?, isMark]

theorem cutReference?_eq (text : Text) :
    cutReference? text = cutMarked? '$' (fun c => !isAsciiBlank c) text := by
  cases text with
  | nil => rfl
  | cons c rest =>
      by_cases isMark : c = '$'
      · subst c
        simp only [cutReference?, cutMarked?, cutWhile, true_and]
        generalize (rest.takeWhile fun c => !isAsciiBlank c) = name
        cases name <;> simp
      · simp [cutReference?, cutMarked?, isMark]

/-- Adds a closing bracket to what is cut. -/
def closeBracket? (cut : Text × Text) : Option (Text × Text) :=
  if cut.2.head? = some ']' then some (cut.1 ++ [']'], cut.2.tail) else none

theorem cutBracket?_eq (text : Text) :
    cutBracket? text = (cutMarked? '[' (fun c => c != ']') text).bind closeBracket? := by
  cases text with
  | nil => rfl
  | cons c rest =>
      by_cases isMark : c = '['
      · subst c
        simp only [cutBracket?, cutMarked?, cutWhile, true_and]
        generalize (rest.takeWhile fun c => c != ']') = literal
        generalize (rest.dropWhile fun c => c != ']') = tail
        cases literal with
        | nil => rfl
        | cons d literal =>
            cases tail with
            | nil => rfl
            | cons e tail => by_cases closes : e = ']' <;> simp [closeBracket?, closes]
      · simp [cutBracket?, cutMarked?, isMark]

/-! ## A start with the shape is cut, and what goes on behind it -/

theorem exists_cutDecimal?_append {value : Text} (isDecimal : IsDecimal value) (tail : Text) :
    ∃ more rest, cutDecimal? (value ++ tail) = some (value ++ more, rest) := by
  rw [cutDecimal?_eq]
  cases isDecimal with
  | whole isWhole =>
      rw [List.takeWhile_append_of_pos isWhole.2, if_neg (by simp [isWhole.1])]
      exact ⟨_, _, by rw [List.append_assoc]⟩
  | @point digits fraction isWhole isFraction =>
      have atPoint : ∀ c ∈ ('.' :: fraction ++ tail).head?, c.isDigit = false := by simp
      have cut := cutMarked?_append '.' isFraction tail
      refine ⟨tail.takeWhile Char.isDigit, tail.dropWhile Char.isDigit, ?_⟩
      rw [List.append_assoc, List.takeWhile_append_of_pos isWhole.2,
        List.dropWhile_append_of_pos isWhole.2, takeWhile_of_head atPoint,
        dropWhile_of_head atPoint, List.append_nil, if_neg isWhole.1, cutFraction, cut]
      simp

/-- Any start with the shape of a form is a start of what the form cuts. -/
theorem exists_cut?_append {form : ValueForm} {value : Text} (shape : Shape form value)
    (tail : Text) : ∃ more rest, form.cut? (value ++ tail) = some (value ++ more, rest) := by
  cases shape with
  | decimal isDecimal =>
      rcases isDecimal.exists_digit with ⟨d, digits, rfl, isDigit⟩
      have noMinus : d ≠ '-' := by
        rintro rfl
        exact absurd isDigit (by decide)
      rcases exists_cutDecimal?_append isDecimal tail with ⟨more, rest, cut⟩
      refine ⟨more, rest, ?_⟩
      rw [← cut]
      simp [cut?, cutNumber?, noMinus]
  | @negative text isDecimal =>
      rcases exists_cutDecimal?_append isDecimal tail with ⟨more, rest, cut⟩
      refine ⟨more, rest, ?_⟩
      simp [cut?, cutNumber?, cut]
  | ident isIdent =>
      rcases isIdent.exists_word with ⟨c, word, rfl, isWord⟩
      refine ⟨(cutWords tail).1, (cutWords tail).2, ?_⟩
      rw [cut?, cutIdent?, cutWords_append_of_isIdent isIdent]
      simp [startsWord, isWord]
  | hex isRun => exact ⟨_, _, (cutHex?_eq _).trans (cutMarked?_append _ isRun tail)⟩
  | bracket isRun =>
      exact ⟨[], tail, by rw [List.append_nil]; exact cutBracket?_append (.bracket isRun) tail⟩
  | reference isRun => exact ⟨_, _, (cutReference?_eq _).trans (cutMarked?_append _ isRun tail)⟩

/-- A form cuts the longest start of its shape, and refuses only texts that have none. -/
theorem isLongestStart_cut? (form : ValueForm) (text : Text) :
    form.IsLongestStart text ((form.cut? text).map fun cut => cut.1.length) := by
  have goesOn : ∀ length, Shape form (text.take length) →
      ∃ more rest, form.cut? text = some (text.take length ++ more, rest) := by
    intro length shape
    have whole := exists_cut?_append shape (text.drop length)
    rwa [List.take_append_drop] at whole
  cases found : form.cut? text with
  | none =>
      intro length shape
      rcases goesOn length shape with ⟨more, rest, cut⟩
      rw [found] at cut
      cases cut
  | some parts =>
      rcases parts with ⟨value, rest⟩
      rcases cut?_sound found with ⟨shape, rfl⟩
      refine ⟨by simp, by simpa using shape, ?_⟩
      intro other inText shape
      rcases goesOn other shape with ⟨more, after, cut⟩
      have same : value = (value ++ rest).take other ++ more := by
        rw [found] at cut
        exact (Prod.mk.inj (Option.some.inj cut)).1
      have sameLength := congrArg List.length same
      rw [List.length_append, List.length_take, Nat.min_eq_left inText] at sameLength
      change other ≤ value.length
      omega

/-! ## Byte by byte -/

theorem toNat_lt_of_isAsciiWord {c : Char} (isWord : isAsciiWord c = true) : c.toNat < 0x80 := by
  simp only [isAsciiWord, Char.isAlphanum, Bool.or_eq_true, beq_iff_eq] at isWord
  rcases isWord with (isAlpha | isDigit) | rfl
  · exact toNat_lt_of_isAlpha isAlpha
  · exact toNat_lt_of_isDigit isDigit
  · decide

theorem toNat_lt_of_isHexDigit {c : Char} (isHex : isHexDigit c = true) : c.toNat < 0x80 := by
  simp only [isHexDigit, Bool.or_eq_true, Bool.and_eq_true, decide_eq_true_eq] at isHex
  rcases isHex with (isDigit | ⟨_, below⟩) | ⟨_, below⟩
  · exact toNat_lt_of_isDigit isDigit
  · exact toNat_lt_of_le below (by decide)
  · exact toNat_lt_of_le below (by decide)

/-- What is cut and what is left, both byte by byte. -/
def bytewiseCut (cut : Text × Text) : Text × Text :=
  (cut.1.bytewise, cut.2.bytewise)

theorem cutMarked?_bytewise {mark : Char} {isMember : Char → Bool} (isMark : mark.toNat < 0x80)
    (ascii : Text.IsAsciiClass isMember) (text : Text) :
    cutMarked? mark isMember text.bytewise = (cutMarked? mark isMember text).map bytewiseCut := by
  cases text with
  | nil => rfl
  | cons c rest =>
      by_cases same : c = mark
      · subst c
        rw [Text.bytewise_cons_of_ascii isMark]
        simp only [cutMarked?, Text.takeWhile_bytewise ascii, Text.dropWhile_bytewise ascii,
          ne_eq, Text.bytewise_eq_nil_iff]
        split
        · rw [Option.map_some, bytewiseCut, Text.bytewise_cons_of_ascii isMark]
        · rfl
      · rw [cutMarked?_eq_none isMember same, Option.map_none]
        cases isBytes : Text.bytewise (c :: rest) with
        | nil => rfl
        | cons first tail =>
            apply cutMarked?_eq_none
            rintro rfl
            rcases (Text.bytewise_eq_cons_iff isMark).mp isBytes with ⟨after, whole, _⟩
            exact same (List.cons.inj whole).1

theorem cutDecimal?_bytewise (text : Text) :
    cutDecimal? text.bytewise = (cutDecimal? text).map bytewiseCut := by
  have isClass : Text.IsAsciiClass Char.isDigit :=
    Text.isAsciiClass_of_ascii fun _ => toNat_lt_of_isDigit
  have fraction : cutFraction (Text.bytewise (text.dropWhile Char.isDigit)) =
      bytewiseCut (cutFraction (text.dropWhile Char.isDigit)) := by
    rw [cutFraction, cutMarked?_bytewise (by decide) isClass, cutFraction]
    cases cutMarked? '.' Char.isDigit (text.dropWhile Char.isDigit) <;> rfl
  rw [cutDecimal?_eq, cutDecimal?_eq, Text.takeWhile_bytewise isClass,
    Text.dropWhile_bytewise isClass, fraction]
  simp only [Text.bytewise_eq_nil_iff]
  split
  · rfl
  · simp [bytewiseCut, Text.bytewise_append]

theorem cutNumber?_of_noMinus {text : Text} (noMinus : text.head? ≠ some '-') :
    cutNumber? text = cutDecimal? text := by
  cases text with
  | nil => rfl
  | cons c rest =>
      have other : c ≠ '-' := by simpa using noMinus
      simp [cutNumber?, other]

theorem cutNumber?_bytewise (text : Text) :
    cutNumber? text.bytewise = (cutNumber? text).map bytewiseCut := by
  have isMark : '-'.toNat < 0x80 := by decide
  rcases Text.startsWith_cases isMark text with ⟨rest, rfl, isBytes⟩ | ⟨noMinus, noMinusByte⟩
  · rw [isBytes, cutNumber?, cutNumber?, cutDecimal?_bytewise]
    cases cutDecimal? rest with
    | none => rfl
    | some cut => simp [bytewiseCut, Text.bytewise_cons_of_ascii (c := '-') (by decide)]
  · rw [cutNumber?_of_noMinus noMinus, cutNumber?_of_noMinus noMinusByte, cutDecimal?_bytewise]

theorem startsWord_iff {text : Text} :
    startsWord text = true ↔ text.takeWhile isAsciiWord ≠ [] := by
  cases text with
  | nil => simp [startsWord]
  | cons c rest => by_cases isWord : isAsciiWord c = true <;> simp [startsWord, isWord]

theorem isAsciiClass_isAsciiWord : Text.IsAsciiClass isAsciiWord :=
  Text.isAsciiClass_of_ascii fun _ => toNat_lt_of_isAsciiWord

theorem startsWord_bytewise (text : Text) : startsWord text.bytewise = startsWord text := by
  apply Bool.eq_iff_iff.mpr
  rw [startsWord_iff, startsWord_iff, Text.takeWhile_bytewise isAsciiClass_isAsciiWord, ne_eq,
    Text.bytewise_eq_nil_iff]

/-- Words end where neither a word goes on nor a hyphen joins another word. -/
theorem cutWords_of_stop {text : Text} (noWord : startsWord text = false)
    (noHyphen : cutMarked? '-' isAsciiWord text = none) : cutWords text = ([], text) := by
  cases text with
  | nil => rfl
  | cons c rest =>
      have notWord : isAsciiWord c = false := noWord
      have notJoined : ¬ (c = '-' ∧ startsWord rest = true) := by
        rintro ⟨rfl, starts⟩
        simp [cutMarked?, startsWord_iff.mp starts] at noHyphen
      simp_all [cutWords]

theorem cutWords_bytewise (text : Text) :
    cutWords text.bytewise = bytewiseCut (cutWords text) := by
  induction text with
  | nil => rfl
  | cons c rest ih =>
      by_cases goesOn : (isAsciiWord c || (c == '-' && startsWord rest)) = true
      · have ascii : c.toNat < 0x80 := by
          simp only [Bool.or_eq_true, Bool.and_eq_true, beq_iff_eq] at goesOn
          rcases goesOn with isWord | ⟨rfl, _⟩
          · exact toNat_lt_of_isAsciiWord isWord
          · decide
        rw [Text.bytewise_cons_of_ascii ascii, cutWords, cutWords, startsWord_bytewise,
          if_pos goesOn, if_pos goesOn, ih]
        simp [bytewiseCut, Text.bytewise_cons_of_ascii ascii]
      · have noWord : startsWord (c :: rest) = false := by simp_all [startsWord]
        have noHyphen : cutMarked? '-' isAsciiWord (c :: rest) = none := by
          rw [cutMarked?, if_neg]
          rintro ⟨rfl, starts⟩
          exact goesOn (by simp [startsWord_iff.mpr starts])
        rw [cutWords_of_stop noWord noHyphen, cutWords_of_stop]
        · rfl
        · rw [startsWord_bytewise, noWord]
        · rw [cutMarked?_bytewise (by decide) isAsciiClass_isAsciiWord, noHyphen]
          rfl

theorem cutIdent?_bytewise (text : Text) :
    cutIdent? text.bytewise = (cutIdent? text).map bytewiseCut := by
  rw [cutIdent?, cutIdent?, startsWord_bytewise, cutWords_bytewise]
  split <;> rfl

theorem cutBracket?_bytewise (text : Text) :
    cutBracket? text.bytewise = (cutBracket? text).map bytewiseCut := by
  have isClass : Text.IsAsciiClass fun c => c == ']' := by
    apply Text.isAsciiClass_of_ascii
    intro c isClosing
    rw [beq_iff_eq.mp isClosing]
    decide
  have noClosing : Text.IsAsciiClass fun c => c != ']' := isClass.not
  rw [cutBracket?_eq, cutBracket?_eq, cutMarked?_bytewise (by decide) noClosing]
  cases cutMarked? '[' (fun c => c != ']') text with
  | none => rfl
  | some cut =>
      have isMark : ']'.toNat < 0x80 := by decide
      have closing : Text.bytewise [']'] = [']'] := Text.bytewise_cons_of_ascii isMark []
      simp only [Option.map_some, Option.bind_some, bytewiseCut, closeBracket?]
      rcases Text.startsWith_cases isMark cut.2 with ⟨rest, closes, isBytes⟩ | ⟨opens, noByte⟩
      · rw [isBytes, closes]
        simp [bytewiseCut, Text.bytewise_append, closing]
      · rw [if_neg opens, if_neg noByte]
        rfl

/-- A form cuts the same byte by byte. -/
theorem cut?_bytewise (form : ValueForm) (text : Text) :
    form.cut? text.bytewise = (form.cut? text).map bytewiseCut := by
  cases form with
  | number => exact cutNumber?_bytewise text
  | ident => exact cutIdent?_bytewise text
  | hex =>
      have isClass : Text.IsAsciiClass isHexDigit :=
        Text.isAsciiClass_of_ascii fun _ => toNat_lt_of_isHexDigit
      simp only [cut?, cutHex?_eq]
      exact cutMarked?_bytewise (by decide) isClass text
  | bracket => exact cutBracket?_bytewise text
  | reference =>
      have isClass : Text.IsAsciiClass isAsciiBlank :=
        Text.isAsciiClass_of_ascii fun _ => toNat_lt_of_isAsciiBlank
      simp only [cut?, cutReference?_eq]
      exact cutMarked?_bytewise (by decide) isClass.not text

end ValueForm

end UtilityCss
