import UtilityCss.Proofs.Text.ByteOrder
import UtilityCss.Proofs.Text.Cutting

/-!
# Texts byte by byte

A scanner may go through a text byte by byte and still stop between two characters. A character of
ASCII is one byte, its code point, and every byte of any other character lies beyond ASCII. So a
class that tells no two characters beyond ASCII apart contains all bytes of a character or none, and
the longest start of bytes of the class is the longest start of characters of the class.

A byte is seen as the character of the same value, so that what is said of texts can be said of
bytes.
-/

namespace UtilityCss

namespace Text

/-- Bytes as a text: every byte is the character of the same value. -/
def ofBytes (bytes : List UInt8) : Text :=
  bytes.map Char.ofUInt8

/-- A text byte by byte: the bytes that it takes in UTF-8, as a text. -/
def bytewise (text : Text) : Text :=
  ofBytes (Glob.bytes text)

/-- A class of characters that tells no two characters beyond ASCII apart. -/
def IsAsciiClass (isMember : Char → Bool) : Prop :=
  ∀ c d : Char, 0x80 ≤ c.toNat → 0x80 ≤ d.toNat → isMember c = isMember d

theorem byteLength_append (first second : Text) :
    byteLength (first ++ second) = byteLength first + byteLength second := by
  induction first with
  | nil => simp [byteLength]
  | cons c first ih =>
      rw [List.cons_append, byteLength, byteLength, ih]
      omega

theorem length_bytes (text : Text) : (Glob.bytes text).length = byteLength text := by
  induction text with
  | nil => rfl
  | cons c rest ih =>
      rw [Glob.bytes_cons, List.length_append, String.length_utf8EncodeChar, ih, byteLength]

theorem length_bytewise (text : Text) : (bytewise text).length = byteLength text := by
  rw [bytewise, ofBytes, List.length_map, length_bytes]

theorem bytewise_cons (c : Char) (rest : Text) :
    bytewise (c :: rest) = ofBytes (String.utf8EncodeChar c) ++ bytewise rest := by
  rw [bytewise, Glob.bytes_cons, ofBytes, List.map_append]
  rfl

theorem bytewise_append (first rest : Text) :
    bytewise (first ++ rest) = bytewise first ++ bytewise rest := by
  simp [bytewise, Glob.bytes, ofBytes]

theorem isAsciiClass_of_ascii {isMember : Char → Bool}
    (inAscii : ∀ c, isMember c = true → c.toNat < 0x80) : IsAsciiClass isMember := by
  have outside : ∀ c : Char, 0x80 ≤ c.toNat → isMember c = false := by
    intro c beyond
    apply Bool.eq_false_iff.mpr
    intro inside
    have small := inAscii c inside
    omega
  intro c d beyond alsoBeyond
  rw [outside c beyond, outside d alsoBeyond]

theorem IsAsciiClass.not {isMember : Char → Bool} (ascii : IsAsciiClass isMember) :
    IsAsciiClass fun c => !isMember c :=
  fun c d beyond alsoBeyond => congrArg (!·) (ascii c d beyond alsoBeyond)

/-! ## The bytes of a character -/

theorem toNat_ofUInt8 (byte : UInt8) : (Char.ofUInt8 byte).toNat = byte.toNat :=
  UInt8.toNat_toUInt32 byte

theorem ofBytes_of_ascii {c : Char} (ascii : c.toNat < 0x80) :
    ofBytes (String.utf8EncodeChar c) = [c] := by
  have small : c.val.toNat < 0x80 := ascii
  have single : String.utf8EncodeChar c = [UInt8.ofNat c.val.toNat] := by
    rw [String.utf8EncodeChar, if_pos (by omega)]
  rw [single, ofBytes, List.map_singleton, List.singleton_inj]
  apply Char.ext
  apply UInt32.toNat_inj.mp
  change (UInt8.ofNat c.val.toNat).toUInt32.toNat = c.val.toNat
  rw [UInt8.toNat_toUInt32, UInt8.toNat_ofNat', Nat.mod_eq_of_lt (by omega)]

theorem le_toNat_of_mem_utf8EncodeChar {c : Char} (beyond : 0x80 ≤ c.toNat) :
    ∀ byte ∈ String.utf8EncodeChar c, 0x80 ≤ byte.toNat := by
  have large : 0x80 ≤ c.val.toNat := beyond
  simp only [String.utf8EncodeChar]
  generalize c.val.toNat = n at *
  -- two to four bytes, and the highest bit of each is set
  repeat' split
  · omega
  all_goals
    simp only [List.forall_mem_cons, List.not_mem_nil, false_implies, implies_true, and_true,
      UInt8.toNat_ofNat']
    omega

theorem le_toNat_of_mem_ofBytes {c d : Char} (beyond : 0x80 ≤ c.toNat)
    (member : d ∈ ofBytes (String.utf8EncodeChar c)) : 0x80 ≤ d.toNat := by
  rcases List.mem_map.mp member with ⟨byte, isByte, rfl⟩
  rw [toNat_ofUInt8]
  exact le_toNat_of_mem_utf8EncodeChar beyond byte isByte

theorem ofBytes_utf8EncodeChar_ne_nil (c : Char) : ofBytes (String.utf8EncodeChar c) ≠ [] := by
  simp [ofBytes, String.utf8EncodeChar_ne_nil]

/-- A class of ASCII contains all bytes of a character or none of them. -/
theorem IsAsciiClass.eq_of_mem_ofBytes {isMember : Char → Bool} (ascii : IsAsciiClass isMember)
    {c d : Char} (member : d ∈ ofBytes (String.utf8EncodeChar c)) : isMember d = isMember c := by
  by_cases small : c.toNat < 0x80
  · rw [ofBytes_of_ascii small, List.mem_singleton] at member
    rw [member]
  · have beyond : 0x80 ≤ c.toNat := Nat.le_of_not_lt small
    exact ascii d c (le_toNat_of_mem_ofBytes beyond member) beyond

/-! ## Cutting byte by byte -/

theorem bytewise_eq_nil_iff {text : Text} : bytewise text = [] ↔ text = [] := by
  cases text with
  | nil => simp [bytewise, Glob.bytes, ofBytes]
  | cons c rest => simp [bytewise_cons, ofBytes_utf8EncodeChar_ne_nil]

theorem bytewise_cons_of_ascii {c : Char} (ascii : c.toNat < 0x80) (rest : Text) :
    bytewise (c :: rest) = c :: bytewise rest := by
  rw [bytewise_cons, ofBytes_of_ascii ascii]
  rfl

/-- A text starts with a character of ASCII if it does so byte by byte. -/
theorem bytewise_eq_cons_iff {c : Char} {text tail : Text} (ascii : c.toNat < 0x80) :
    bytewise text = c :: tail ↔ ∃ rest, text = c :: rest ∧ tail = bytewise rest := by
  constructor
  · intro whole
    cases text with
    | nil => cases whole
    | cons d rest =>
        by_cases small : d.toNat < 0x80
        · rw [bytewise_cons_of_ascii small] at whole
          rcases List.cons.inj whole with ⟨rfl, rfl⟩
          exact ⟨rest, rfl, rfl⟩
        · -- the first byte would be beyond ASCII
          rcases List.exists_cons_of_ne_nil (ofBytes_utf8EncodeChar_ne_nil d) with
            ⟨first, more, isCode⟩
          rw [bytewise_cons, isCode] at whole
          have same : first = c := (List.cons.inj whole).1
          have inCode : c ∈ ofBytes (String.utf8EncodeChar d) := by simp [isCode, same]
          have beyond := le_toNat_of_mem_ofBytes (Nat.le_of_not_lt small) inCode
          omega
  · rintro ⟨rest, rfl, rfl⟩
    exact bytewise_cons_of_ascii ascii rest

/-- A text begins with a mark of ASCII, or it does not, and neither does it byte by byte. -/
theorem startsWith_cases {mark : Char} (isMark : mark.toNat < 0x80) (text : Text) :
    (∃ rest, text = mark :: rest ∧ text.bytewise = mark :: Text.bytewise rest) ∨
      text.head? ≠ some mark ∧ text.bytewise.head? ≠ some mark := by
  by_cases starts : text.head? = some mark
  · rcases List.head?_eq_some_iff.mp starts with ⟨rest, rfl⟩
    exact Or.inl ⟨rest, rfl, Text.bytewise_cons_of_ascii isMark rest⟩
  · right
    refine ⟨starts, ?_⟩
    intro startsBytes
    rcases List.head?_eq_some_iff.mp startsBytes with ⟨tail, isBytes⟩
    rcases (Text.bytewise_eq_cons_iff isMark).mp isBytes with ⟨rest, rfl, _⟩
    exact starts rfl

theorem takeWhile_bytewise {isMember : Char → Bool} (ascii : IsAsciiClass isMember)
    (text : Text) : (bytewise text).takeWhile isMember = bytewise (text.takeWhile isMember) := by
  induction text with
  | nil => rfl
  | cons c rest ih =>
      by_cases inside : isMember c = true
      · have allInside : ∀ d ∈ ofBytes (String.utf8EncodeChar c), isMember d = true :=
          fun d member => (ascii.eq_of_mem_ofBytes member).trans inside
        rw [bytewise_cons, List.takeWhile_append_of_pos allInside, ih,
          List.takeWhile_cons_of_pos inside, bytewise_cons]
      · rcases List.exists_cons_of_ne_nil (ofBytes_utf8EncodeChar_ne_nil c) with
          ⟨first, more, isCode⟩
        have outside : ¬ isMember first = true := by
          rwa [ascii.eq_of_mem_ofBytes (c := c) (by simp [isCode])]
        rw [bytewise_cons, isCode, List.cons_append, List.takeWhile_cons_of_neg outside,
          List.takeWhile_cons_of_neg inside]
        rfl

theorem dropWhile_bytewise {isMember : Char → Bool} (ascii : IsAsciiClass isMember)
    (text : Text) : (bytewise text).dropWhile isMember = bytewise (text.dropWhile isMember) := by
  have parts : (bytewise text).takeWhile isMember ++ (bytewise text).dropWhile isMember =
      bytewise (text.takeWhile isMember) ++ bytewise (text.dropWhile isMember) := by
    rw [List.takeWhile_append_dropWhile, ← bytewise_append, List.takeWhile_append_dropWhile]
  rw [takeWhile_bytewise ascii] at parts
  exact List.append_cancel_left parts

end Text

/-- Why a text cannot be cut at a position. -/
inductive CutError where
  | beyondEnd
  | insideCharacter
  deriving DecidableEq

namespace Text

/-! ## Cutting at a position -/

/-- What stands behind a number of characters, if there are so many. -/
def dropAt (text : Text) (position : Nat) : Except CutError Text :=
  if position ≤ text.length then .ok (text.drop position) else .error .beyondEnd

/-- Cuts a text behind a number of bytes, if it has so many and the last of them ends a
character. -/
def splitAtByte : Text → Nat → Except CutError (Text × Text)
  | [], position => if position = 0 then .ok ([], []) else .error .beyondEnd
  | c :: rest, position =>
    if position = 0 then
      .ok ([], c :: rest)
    else if position < c.utf8Size then
      .error .insideCharacter
    else
      (splitAtByte rest (position - c.utf8Size)).map fun cut => (c :: cut.1, cut.2)

/-- Where a character occurs in a text first, in bytes. -/
def byteIndex? (c : Char) (text : Text) : Option Nat :=
  if c ∈ text then some (byteLength (text.takeWhile fun d => d != c)) else none

theorem dropAt_append (first rest : Text) : dropAt (first ++ rest) first.length = .ok rest := by
  simp [dropAt]

theorem dropAt_append_cons (first : Text) (c : Char) (rest : Text) :
    dropAt (first ++ c :: rest) (first.length + 1) = .ok rest := by
  have whole := dropAt_append (first ++ [c]) rest
  rwa [List.append_assoc, List.singleton_append, List.length_append] at whole

/-- A text can be cut behind any start of it. -/
theorem splitAtByte_append (first rest : Text) :
    splitAtByte (first ++ rest) (byteLength first) = .ok (first, rest) := by
  induction first with
  | nil => cases rest <;> simp [byteLength, splitAtByte]
  | cons c first ih =>
      have positive : 0 < c.utf8Size := c.utf8Size_pos
      have behind : c.utf8Size + byteLength first - c.utf8Size = byteLength first :=
        Nat.add_sub_cancel_left _ _
      rw [List.cons_append, byteLength, splitAtByte, if_neg (by omega), if_neg (by omega), behind,
        ih]
      rfl

/-- A text is cut exactly behind its starts. -/
theorem splitAtByte_eq_ok_iff {text first rest : Text} {position : Nat} :
    splitAtByte text position = .ok (first, rest) ↔
      text = first ++ rest ∧ position = byteLength first := by
  constructor
  · intro cut
    induction text generalizing position first with
    | nil =>
        rw [splitAtByte] at cut
        split at cut
        · cases cut
          exact ⟨rfl, ‹_›⟩
        · cases cut
    | cons c text ih =>
        rw [splitAtByte] at cut
        split at cut
        · cases cut
          exact ⟨rfl, ‹_›⟩
        · split at cut
          · cases cut
          · rename_i large
            cases later : splitAtByte text (position - c.utf8Size) with
            | error reason =>
                rw [later] at cut
                cases cut
            | ok parts =>
                rw [later] at cut
                cases cut
                rcases ih later with ⟨rfl, isPosition⟩
                refine ⟨rfl, ?_⟩
                rw [byteLength]
                omega
  · rintro ⟨rfl, rfl⟩
    exact splitAtByte_append first rest

theorem byteIndex?_append_cons {c : Char} {first : Text} (notIn : c ∉ first) (rest : Text) :
    byteIndex? c (first ++ c :: rest) = some (byteLength first) := by
  rw [byteIndex?, if_pos (by simp), List.takeWhile_append_of_pos (bne_of_not_mem notIn),
    List.takeWhile_cons_of_neg (by simp), List.append_nil]

/-- A character of ASCII ends one byte behind its start. -/
theorem byteLength_concat {c : Char} (ascii : c.toNat < 0x80) (first : Text) :
    byteLength (first ++ [c]) = byteLength first + 1 := by
  have oneByte : byteLength [c] = 1 := by
    rw [← length_bytewise, bytewise_cons_of_ascii ascii]
    rfl
  rw [byteLength_append, oneByte]

end Text

end UtilityCss
