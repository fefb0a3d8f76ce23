import UtilityCss.Text.Blank

/-!
# Text

Everything the engine reads and writes is text, and a text is the list of its characters: parsing is
recursion on the list, and a statement about a text is a statement about a list. Strings appear only
where text enters or leaves the program.

The module holds the few ways in which texts are cut and put together: pieces between separators,
words between blanks, trimming, joining, and the rest after a literal start.
-/

namespace UtilityCss

/-- A text is the list of its characters. -/
abbrev Text := List Char

namespace Text

/-- The pieces between separators: `n` separators cut a text into `n + 1` pieces. -/
def pieces (isSeparator : Char → Bool) : Text → List Text
  | [] => [[]]
  | c :: rest =>
    if isSeparator c then
      [] :: pieces isSeparator rest
    else
      match pieces isSeparator rest with
      | [] => [[c]]
      | piece :: more => (c :: piece) :: more

/-- The words of a text: the nonempty pieces between blank characters. -/
def words (text : Text) : List Text :=
  (pieces isBlank text).filter fun piece => !piece.isEmpty

/-- A text is blank when every character of it is. -/
def isAllBlank (text : Text) : Bool :=
  text.all isBlank

/-- A text without the blank characters at its two ends. -/
def trim (text : Text) : Text :=
  ((text.dropWhile isBlank).reverse.dropWhile isBlank).reverse

def join (separator : Text) : List Text → Text
  | [] => []
  | [text] => text
  | text :: more => text ++ separator ++ join separator more

/-- What follows `start` in a text that begins with it. -/
def after? : (start text : Text) → Option Text
  | [], text => some text
  | _ :: _, [] => none
  | s :: start, c :: text => if s = c then after? start text else none

/-- Whether one text occurs in another, at any position. -/
def occursIn (part : Text) : Text → Bool
  | [] => part.isEmpty
  | c :: rest => part.isPrefixOf (c :: rest) || occursIn part rest

/-- The number of bytes that a text takes in UTF-8. -/
def byteLength : Text → Nat
  | [] => 0
  | c :: rest => c.utf8Size + byteLength rest

def ofNat (n : Nat) : Text :=
  Nat.toDigits 10 n

/-- A text between single quotes, as messages name what they are about. -/
def quoted (text : Text) : Text :=
  '\'' :: text ++ ['\'']

/-- A text is put between a first and a last character. -/
def isBetween (first last : Char) (text : Text) : Bool :=
  2 ≤ text.length && text.head? == some first && text.getLast? == some last

/-- What stands between the first and the last character of a text. -/
def inner (text : Text) : Text :=
  text.tail.dropLast

end Text

end UtilityCss
