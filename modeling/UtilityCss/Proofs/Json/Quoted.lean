import UtilityCss.Json.Reader

/-!
# Quoted strings

A text between quotes is read back as it was written, whatever its characters are. A character is
written in one of three ways: as a backslash and a letter that stands for it, as a backslash and its
code, or as itself. None of the three holds a bare quote, so the first bare quote ends the string.
-/

namespace UtilityCss

namespace Json

/-- What stands between the quotes of a written text. -/
def quotedBody (text : Text) : Text :=
  text.flatMap encodeChar

theorem encode_append (text rest : Text) :
    encode text ++ rest = '"' :: (quotedBody text ++ '"' :: rest) := by
  simp [encode, quotedBody]

theorem encodeChar_cases (c : Char) :
    (∃ letter, encodeChar c = ['\\', letter] ∧ letter ≠ 'u' ∧ escapedChar? letter = some c) ∨
      (encodeChar c = ['\\', 'u', '0', '0', hexDigit (c.toNat / 16), hexDigit c.toNat] ∧
        c.toNat < 0x20) ∨
      encodeChar c = [c] ∧ c ≠ '"' ∧ c ≠ '\\' ∧ 0x20 ≤ c.toNat := by
  simp only [encodeChar, beq_iff_eq]
  split
  · exact Or.inl ⟨'"', rfl, by decide, by simp_all [escapedChar?]⟩
  split
  · exact Or.inl ⟨'\\', rfl, by decide, by simp_all [escapedChar?]⟩
  split
  · exact Or.inl ⟨'b', rfl, by decide, by simp_all [escapedChar?]⟩
  split
  · exact Or.inl ⟨'t', rfl, by decide, by simp_all [escapedChar?]⟩
  split
  · exact Or.inl ⟨'n', rfl, by decide, by simp_all [escapedChar?]⟩
  split
  · exact Or.inl ⟨'f', rfl, by decide, by simp_all [escapedChar?]⟩
  split
  · exact Or.inl ⟨'r', rfl, by decide, by simp_all [escapedChar?]⟩
  split
  · rename_i small
    exact Or.inr (Or.inl ⟨rfl, small⟩)
  · rename_i notQuote notBackslash _ _ _ _ _ large
    exact Or.inr (Or.inr ⟨rfl, notQuote, notBackslash, by omega⟩)

theorem hexUnit?_of_control : ∀ code < 0x20,
    hexUnit? '0' '0' (hexDigit (code / 16)) (hexDigit code) = some code := by
  decide

/-! ## What the quotes hold -/

theorem decode?_encodeChar_append (c : Char) (rest : Text) :
    decode? (encodeChar c ++ rest) = (decode? rest).map (c :: ·) := by
  rcases encodeChar_cases c with ⟨letter, written, notCode, meant⟩ | ⟨written, small⟩ |
    ⟨written, notQuote, notBackslash, _⟩
  · rw [written, List.cons_append, List.cons_append, List.nil_append, decode?]
    · rw [meant]
    · intro _ _ _ _ _ isCode
      exact absurd isCode notCode
  · have unit := hexUnit?_of_control c.toNat small
    have notTrailing : isTrailingHalf c.toNat = false := by
      simp only [isTrailingHalf, Bool.and_eq_false_iff, decide_eq_false_iff_not]
      omega
    have notLeading : isLeadingHalf c.toNat = false := by
      simp only [isLeadingHalf, Bool.and_eq_false_iff, decide_eq_false_iff_not]
      omega
    rw [written]
    simp only [List.cons_append, List.nil_append]
    rw [decode?]
    simp only [unit, notTrailing, notLeading, Bool.false_eq_true, if_false, Char.ofNat_toNat]
  · rw [written, List.cons_append, List.nil_append, decode?]
    · simp [notBackslash]
    all_goals simp [notBackslash]

theorem decode?_quotedBody (text : Text) : decode? (quotedBody text) = some text := by
  induction text with
  | nil => rfl
  | cons c rest ih =>
      rw [quotedBody, List.flatMap_cons, decode?_encodeChar_append, ← quotedBody, ih]
      rfl

/-! ## Where the quotes end -/

theorem cutString?_encodeChar_append (c : Char) (rest : Text) :
    cutString? (encodeChar c ++ rest) =
      (cutString? rest).map fun (raw, tail) => (encodeChar c ++ raw, tail) := by
  rcases encodeChar_cases c with ⟨letter, written, notCode, meant⟩ | ⟨written, small⟩ |
    ⟨written, notQuote, notBackslash, large⟩
  · rw [written, List.cons_append, List.cons_append, List.nil_append, cutString?]
    · rw [meant]
      rfl
    · intro _ _ _ _ _ isCode
      exact absurd isCode notCode
  · rw [written]
    simp only [List.cons_append, List.nil_append]
    rw [cutString?, hexUnit?_of_control c.toNat small]
    rfl
  · rw [written, List.cons_append, List.nil_append, cutString?]
    · have printable : ¬ c.toNat < 0x20 := by omega
      simp [notBackslash, printable]
    all_goals simp [notQuote, notBackslash]

/-- The reader finds the quote that closes a written text. -/
theorem cutString?_quotedBody_append (text rest : Text) :
    cutString? (quotedBody text ++ '"' :: rest) = some (quotedBody text, rest) := by
  induction text with
  | nil => rw [quotedBody, List.flatMap_nil, List.nil_append, cutString?]
  | cons c text ih =>
      rw [quotedBody, List.flatMap_cons, ← quotedBody, List.append_assoc,
        cutString?_encodeChar_append, ih]
      rfl

end Json

end UtilityCss
