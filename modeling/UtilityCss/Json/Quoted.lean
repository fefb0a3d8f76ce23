import UtilityCss.Text.Basic

/-!
# Quoted JSON strings

`encode` writes a text between quotes: quotes, backslashes and control characters are escaped, all
else stands for itself. `decode?` reads what stands between quotes, with every escape that JSON
knows; an escape that names half of a character must be followed by the other half.
-/

namespace UtilityCss

namespace Json

def hexDigit (n : Nat) : Char :=
  (Nat.toDigits 16 (n % 16)).headD '0'

/-- A character as it is written between quotes. -/
def encodeChar (c : Char) : Text :=
  if c == '"' then ['\\', '"']
  else if c == '\\' then ['\\', '\\']
  else if c == '\x08' then ['\\', 'b']
  else if c == '\t' then ['\\', 't']
  else if c == '\n' then ['\\', 'n']
  else if c == '\x0c' then ['\\', 'f']
  else if c == '\r' then ['\\', 'r']
  else if c.toNat < 0x20 then
    ['\\', 'u', '0', '0', hexDigit (c.toNat / 16), hexDigit c.toNat]
  else [c]

def encode (text : Text) : Text :=
  '"' :: text.flatMap encodeChar ++ ['"']

/-- The value of a hexadecimal digit in either case. -/
def hexValue? (c : Char) : Option Nat :=
  if c.isDigit then some (c.toNat - '0'.toNat)
  else if 'a' ≤ c && c ≤ 'f' then some (c.toNat - 'a'.toNat + 10)
  else if 'A' ≤ c && c ≤ 'F' then some (c.toNat - 'A'.toNat + 10)
  else none

def hexUnit? (a b c d : Char) : Option Nat := do
  let a ← hexValue? a
  let b ← hexValue? b
  let c ← hexValue? c
  let d ← hexValue? d
  return ((a * 16 + b) * 16 + c) * 16 + d

/-- The character that a letter behind a backslash stands for. -/
def escapedChar? (c : Char) : Option Char :=
  if c == '"' || c == '\\' || c == '/' then some c
  else if c == 'b' then some '\x08'
  else if c == 'f' then some '\x0c'
  else if c == 'n' then some '\n'
  else if c == 'r' then some '\r'
  else if c == 't' then some '\t'
  else none

/-- Whether a unit is the first half of a character beyond the basic plane. -/
def isLeadingHalf (unit : Nat) : Bool :=
  0xD800 ≤ unit && unit ≤ 0xDBFF

/-- Whether a unit is the second half of a character beyond the basic plane. -/
def isTrailingHalf (unit : Nat) : Bool :=
  0xDC00 ≤ unit && unit ≤ 0xDFFF

def joinHalves (leading trailing : Nat) : Char :=
  Char.ofNat (0x10000 + (leading - 0xD800) * 0x400 + (trailing - 0xDC00))

def decode? : Text → Option Text
  | [] => some []
  | '\\' :: 'u' :: a :: b :: c :: d :: rest =>
    match hexUnit? a b c d with
    | none => none
    | some unit =>
      if isTrailingHalf unit then
        none
      else if isLeadingHalf unit then
        match rest with
        | '\\' :: 'u' :: e :: f :: g :: h :: tail =>
          match hexUnit? e f g h with
          | none => none
          | some second =>
            if isTrailingHalf second then (decode? tail).map (joinHalves unit second :: ·) else none
        | _ => none
      else
        (decode? rest).map (Char.ofNat unit :: ·)
  | '\\' :: c :: rest =>
    match escapedChar? c with
    | none => none
    | some value => (decode? rest).map (value :: ·)
  | c :: rest => if c == '\\' then none else (decode? rest).map (c :: ·)

end Json

end UtilityCss
