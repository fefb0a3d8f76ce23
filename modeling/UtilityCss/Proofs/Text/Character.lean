import UtilityCss.Text.Blank

/-!
# Characters of ASCII

The classes of characters that class names are made of are ranges of code points, and the printable
characters of ASCII are not blank.
-/

namespace UtilityCss

theorem isAlpha_iff_toNat {c : Char} : c.isAlpha = true ↔
    65 ≤ c.toNat ∧ c.toNat ≤ 90 ∨ 97 ≤ c.toNat ∧ c.toNat ≤ 122 := by
  change (decide ('A'.val ≤ c.val ∧ c.val ≤ 'Z'.val) ||
    decide ('a'.val ≤ c.val) && decide (c.val ≤ 'z'.val)) = true ↔ _
  simp only [Bool.or_eq_true, Bool.and_eq_true, decide_eq_true_eq, UInt32.le_iff_toNat_le]
  exact Iff.rfl

theorem isDigit_iff_toNat {c : Char} : c.isDigit = true ↔ 48 ≤ c.toNat ∧ c.toNat ≤ 57 :=
  Char.isDigit_iff_toNat

theorem isDigit_of_isAlpha {c : Char} (isAlpha : c.isAlpha = true) : c.isDigit = false := by
  apply Bool.eq_false_iff.mpr
  intro isDigit
  rw [isAlpha_iff_toNat] at isAlpha
  rw [isDigit_iff_toNat] at isDigit
  omega

theorem toNat_lt_of_isDigit {c : Char} (isDigit : c.isDigit = true) : c.toNat < 0x80 := by
  rw [isDigit_iff_toNat] at isDigit
  omega

theorem toNat_lt_of_isAlpha {c : Char} (isAlpha : c.isAlpha = true) : c.toNat < 0x80 := by
  rw [isAlpha_iff_toNat] at isAlpha
  omega

theorem toNat_lt_of_le {c d : Char} (below : c ≤ d) (ascii : d.toNat < 0x80) : c.toNat < 0x80 :=
  Nat.lt_of_le_of_lt (UInt32.le_iff_toNat_le.mp (Char.le_def.mp below)) ascii

theorem toNat_lt_of_isAsciiBlank {c : Char} (isBlank : isAsciiBlank c = true) :
    c.toNat < 0x80 := by
  simp only [isAsciiBlank, Bool.or_eq_true, beq_iff_eq] at isBlank
  rcases isBlank with (((rfl | rfl) | rfl) | rfl) | rfl <;> decide

theorem noBlank_of_isAlphanum {c : Char} (isAlphanum : c.isAlphanum = true) :
    isBlank c = false := by
  change (c.isAlpha || c.isDigit) = true at isAlphanum
  rw [Bool.or_eq_true, isAlpha_iff_toNat, isDigit_iff_toNat] at isAlphanum
  simp [isBlank, blankRanges]
  omega

end UtilityCss
