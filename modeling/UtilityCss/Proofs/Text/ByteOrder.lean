import UtilityCss.Glob.Match

/-!
# The order of the bytes of texts

UTF-8 keeps the order of characters: the encoding of a smaller character is smaller at the first
byte where the two differ, and they do differ. So texts are ordered by their bytes as they are by
their characters.
-/

namespace UtilityCss

namespace Glob

variable {first second : Text}

theorem utf8EncodeChar_append_lt {c d : Char} (less : c < d) (rest more : List UInt8) :
    String.utf8EncodeChar c ++ rest < String.utf8EncodeChar d ++ more := by
  -- beyond the last code point the first byte of four would wrap around
  have valid : d.val.toNat < 0x110000 := by
    have isValid := d.valid
    simp only [UInt32.isValidChar, Nat.isValidChar] at isValid
    omega
  have before : c.val.toNat < d.val.toNat :=
    UInt32.lt_iff_toNat_lt.mp (Char.lt_def.mp less)
  simp only [String.utf8EncodeChar]
  generalize c.val.toNat = m at *
  generalize d.val.toNat = n at *
  -- one to four bytes for each character; a longer encoding starts with a larger byte
  repeat' split
  all_goals
    simp (disch := omega) only [List.cons_append, List.nil_append, List.cons_lt_cons_iff,
      UInt8.lt_iff_toNat_lt, ← UInt8.toNat_inj, UInt8.toNat_ofNat', Nat.mod_eq_of_lt]
    omega

theorem bytes_cons (c : Char) (text : Text) :
    bytes (c :: text) = String.utf8EncodeChar c ++ bytes text :=
  List.flatMap_cons

theorem bytes_lt (less : first < second) : bytes first < bytes second := by
  induction first generalizing second with
  | nil =>
      cases second with
      | nil => cases less
      | cons d second =>
          rcases List.exists_cons_of_ne_nil (String.utf8EncodeChar_ne_nil (c := d)) with
            ⟨byte, more, isCode⟩
          rw [bytes_cons, isCode]
          exact List.nil_lt_cons byte _
  | cons c first ih =>
      cases second with
      | nil => cases less
      | cons d second =>
          rw [bytes_cons, bytes_cons]
          rcases List.cons_lt_cons_iff.mp less with isLess | ⟨rfl, later⟩
          · exact utf8EncodeChar_append_lt isLess _ _
          · exact List.append_left_lt (ih later)

theorem lt_of_bytes_le (notBehind : bytes first ≤ bytes second) (different : first ≠ second) :
    first < second := by
  apply Classical.byContradiction
  intro notBefore
  rcases List.le_iff_lt_or_eq.mp (List.not_lt.mp notBefore) with behind | same
  · exact List.not_lt.mpr notBehind (bytes_lt behind)
  · exact different same.symm

/-- Lists of texts are ordered alike by characters and by bytes. -/
theorem map_bytes_lt {first second : List Text} (less : first < second) :
    first.map bytes < second.map bytes :=
  List.map_lt (fun _ _ => bytes_lt) less

end Glob

end UtilityCss
