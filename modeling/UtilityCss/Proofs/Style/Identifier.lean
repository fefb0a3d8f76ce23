import UtilityCss.ClassName.Form
import UtilityCss.Proofs.Style.Key

/-!
# Selectors as identifiers

What stands behind the point of a class selector is an identifier. A reader of stylesheets takes
letters, digits, hyphens, underscores and all characters beyond ASCII as they are, takes any other
character behind a backslash, and ends the identifier at the first character that is neither.

An escaped class name is read back whole, since every printable character that would end the
identifier is escaped. How an identifier may start is another matter: it starts with neither a digit
nor a hyphen and a digit, and a hyphen alone is none. Escaping looks at one character at a time and
never at its place, so a class name with such a start is written as it is and is no identifier.
-/

namespace UtilityCss

namespace Identifier

/-- A character that stands for itself in an identifier. -/
def isNameChar (c : Char) : Bool :=
  isAsciiWord c || c == '-' || 0x80 ≤ c.toNat

/-- The control characters of ASCII. -/
def isControl (c : Char) : Bool :=
  c.toNat < 0x20 || c.toNat == 0x7F

/-- Reads the characters of an identifier as far as it goes, and gives the rest. A backslash makes
the next character stand for itself, unless that is a hexadecimal digit. -/
def cutName : Text → Text × Text
  | [] => ([], [])
  | '\\' :: c :: rest =>
    if ValueForm.isHexDigit c then ([], '\\' :: c :: rest)
    else (c :: (cutName rest).1, (cutName rest).2)
  | c :: rest =>
    if isNameChar c then (c :: (cutName rest).1, (cutName rest).2) else ([], c :: rest)

def startsDigit : Text → Bool
  | [] => false
  | c :: _ => c.isDigit

/-- Whether an identifier starts a text: there is a character of it, the first one is no digit, and
behind a hyphen there is another one that is no digit. -/
def startsIdentifier : Text → Bool
  | '-' :: rest => !startsDigit rest && !(cutName rest).1.isEmpty
  | text => !startsDigit text && !(cutName text).1.isEmpty

/-- Reads the identifier at the start of a text: what it denotes, and the rest. -/
def read? (text : Text) : Option (Text × Text) :=
  if startsIdentifier text then some (cutName text) else none

/-- The class names that no identifier may be written like: those that start with a digit or with a
hyphen and a digit, and the hyphen alone. -/
def isBarred : Text → Bool
  | ['-'] => true
  | '-' :: c :: _ => c.isDigit
  | text => startsDigit text

/-! ## Characters -/

section Characters

variable {c : Char}

theorem noHexDigit_of_isSpecial (special : Selector.isSpecial c = true) :
    ValueForm.isHexDigit c = false :=
  Selector.eq_false_of_isSpecial (by decide) special

theorem noDigit_of_isSpecial (special : Selector.isSpecial c = true) : c.isDigit = false :=
  Selector.eq_false_of_isSpecial (by decide) special

theorem noNameChar_of_isSpecial (special : Selector.isSpecial c = true) :
    isNameChar c = false :=
  Selector.eq_false_of_isSpecial (by decide) special

/-- Escaping leaves no printable character out that would end an identifier. -/
theorem isNameChar_of_noSpecial (plain : Selector.isSpecial c = false)
    (noControl : isControl c = false) : isNameChar c = true := by
  by_cases beyond : 0x80 ≤ c.toNat
  · simp [isNameChar, beyond]
  · have inAscii : ∀ n < 0x80, Selector.isSpecial (Char.ofNat n) = false →
        isControl (Char.ofNat n) = false → isNameChar (Char.ofNat n) = true := by decide
    have isName := inAscii c.toNat (Nat.lt_of_not_le beyond)
    rw [Char.ofNat_toNat] at isName
    exact isName plain noControl

theorem ne_backslash_of_noSpecial (plain : Selector.isSpecial c = false) : c ≠ '\\' := by
  rintro rfl
  rw [Selector.isSpecial_backslash] at plain
  cases plain

end Characters

/-! ## Reading escaped names -/

theorem cutName_cons {c : Char} (plain : c ≠ '\\') (rest : Text) :
    cutName (c :: rest) =
      if isNameChar c then (c :: (cutName rest).1, (cutName rest).2) else ([], c :: rest) := by
  cases rest <;> simp [cutName, plain]

theorem cutName_of_endsName {tail : Text} (ends : Selector.EndsName tail) :
    cutName tail = ([], tail) := by
  cases tail with
  | nil => rfl
  | cons c tail =>
      rcases ends c rfl with ⟨special, notBackslash⟩
      simp [cutName_cons notBackslash, noNameChar_of_isSpecial special]

/-- Reading takes back what escaping did to one character. -/
theorem cutName_escapeChar_append {c : Char} (noControl : isControl c = false) (rest : Text) :
    cutName (Selector.escapeChar c ++ rest) = (c :: (cutName rest).1, (cutName rest).2) := by
  cases special : Selector.isSpecial c with
  | true => simp [Selector.escapeChar, special, cutName, noHexDigit_of_isSpecial special]
  | false =>
      have isName := isNameChar_of_noSpecial special noControl
      simp [Selector.escapeChar, special, cutName_cons (ne_backslash_of_noSpecial special), isName]

theorem cutName_escape_append {className tail : Text}
    (noControl : ∀ c ∈ className, isControl c = false) (ends : Selector.EndsName tail) :
    cutName (Selector.escape className ++ tail) = (className, tail) := by
  induction className with
  | nil => exact cutName_of_endsName ends
  | cons c className ih =>
      have later := ih fun d member => noControl d (List.mem_cons_of_mem c member)
      rw [Selector.escape_cons, List.append_assoc,
        cutName_escapeChar_append (noControl c List.mem_cons_self), later]

theorem startsDigit_escape_append {className tail : Text} (ends : Selector.EndsName tail) :
    startsDigit (Selector.escape className ++ tail) = startsDigit className := by
  cases className with
  | nil =>
      cases tail with
      | nil => rfl
      | cons c tail => exact noDigit_of_isSpecial (ends c rfl).1
  | cons c className =>
      rw [Selector.escape_cons]
      cases special : Selector.isSpecial c with
      | true => simp [Selector.escapeChar, special, startsDigit, noDigit_of_isSpecial special]
      | false => simp [Selector.escapeChar, special, startsDigit]

theorem startsIdentifier_cons {c : Char} (noHyphen : c ≠ '-') (rest : Text) :
    startsIdentifier (c :: rest) = (!c.isDigit && !(cutName (c :: rest)).1.isEmpty) := by
  simp [startsIdentifier, noHyphen, startsDigit]

theorem isBarred_cons {c : Char} (noHyphen : c ≠ '-') (rest : Text) :
    isBarred (c :: rest) = c.isDigit := by
  cases rest <;> simp [isBarred, noHyphen, startsDigit]

/-- An escaped class name starts an identifier unless the class name is barred. -/
theorem startsIdentifier_escape_append {className tail : Text} (nonempty : className ≠ [])
    (noControl : ∀ c ∈ className, isControl c = false) (ends : Selector.EndsName tail) :
    startsIdentifier (Selector.escape className ++ tail) = !isBarred className := by
  have whole := cutName_escape_append noControl ends
  rcases List.exists_cons_of_ne_nil nonempty with ⟨c, rest, rfl⟩
  by_cases hyphen : c = '-'
  · subst c
    have behind := cutName_escape_append
      (fun d member => noControl d (List.mem_cons_of_mem '-' member)) ends
    have isHyphen : Selector.escape ('-' :: rest) = '-' :: Selector.escape rest := rfl
    rw [isHyphen, List.cons_append, startsIdentifier, behind, startsDigit_escape_append ends]
    cases rest <;> simp [isBarred, startsDigit]
  · rw [isBarred_cons hyphen]
    cases special : Selector.isSpecial c with
    | true =>
        have isEscaped : Selector.escape (c :: rest) = '\\' :: c :: Selector.escape rest := by
          simp [Selector.escape, special]
        rw [isEscaped] at whole ⊢
        rw [List.cons_append] at whole ⊢
        rw [startsIdentifier_cons (by decide), whole, noDigit_of_isSpecial special]
        rfl
    | false =>
        have isPlain : Selector.escape (c :: rest) = c :: Selector.escape rest := by
          simp [Selector.escape, special]
        rw [isPlain] at whole ⊢
        rw [List.cons_append] at whole ⊢
        rw [startsIdentifier_cons hyphen, whole]
        simp

/-- What a reader of stylesheets makes of an escaped class name with more text behind it. -/
theorem read?_escape_append {className tail : Text} (nonempty : className ≠ [])
    (noControl : ∀ c ∈ className, isControl c = false) (ends : Selector.EndsName tail) :
    read? (Selector.escape className ++ tail) =
      if isBarred className then none else some (className, tail) := by
  rw [read?, startsIdentifier_escape_append nonempty noControl ends,
    cutName_escape_append noControl ends]
  cases isBarred className <;> rfl

/-- An escaped class name is read as one identifier to its end, and denotes the class name, exactly
when the class name is not barred; the selector with a pseudo-class is then read up to the colon. A
barred class name is written in a way that starts no identifier. -/
theorem read?_escape {className : Text} (nonempty : className ≠ [])
    (noControl : ∀ c ∈ className, isControl c = false) :
    (read? (Selector.escape className) = some (className, []) ↔ isBarred className = false) ∧
      (read? (Selector.escape className) = none ↔ isBarred className = true) ∧
      ∀ pseudo, read? (Selector.ofClass className pseudo) =
        if isBarred className then none else some (className, Selector.pseudoSuffix pseudo) := by
  have alone := read?_escape_append nonempty noControl Selector.endsName_nil
  rw [List.append_nil] at alone
  refine ⟨?_, ?_, ?_⟩
  · rw [alone]
    cases isBarred className <;> simp
  · rw [alone]
    cases isBarred className <;> simp
  · intro pseudo
    rw [Selector.ofClass_eq_append]
    exact read?_escape_append nonempty noControl (Selector.endsName_pseudoSuffix pseudo)

/-- Characters that end identifiers, some of them in front of hexadecimal digits, and a hyphen in
front of another one. -/
theorem read?_escape_sample :
    let className := "--a:[.b]\x7b\\c\x7d/0%é".toList
    className ≠ [] ∧ (∀ c ∈ className, isControl c = false) ∧
      read? (Selector.escape className) = some (className, []) := by
  intro className
  have nonempty : className ≠ [] := by decide
  have noControl : ∀ c ∈ className, isControl c = false := Text.eq_false_of_any (by decide)
  exact ⟨nonempty, noControl, (read?_escape nonempty noControl).1.mpr (by decide)⟩

/-- The hyphen alone is left as it is and is no identifier; neither is what is written for class
names that start like a number. -/
theorem lone_hyphen_unescaped :
    "-".toList ≠ [] ∧ (∀ c ∈ "-".toList, isBlank c = false ∧ isControl c = false) ∧
      Selector.escape "-".toList = "-".toList ∧
      read? (Selector.escape "-".toList) ≠ some ("-".toList, []) ∧
      read? (Selector.escape "-1".toList) = none ∧
      read? (Selector.escape "2xl:p-1px".toList) = none :=
  ⟨by decide, List.forall_mem_singleton.mpr (by decide), by decide⟩

end Identifier

end UtilityCss
