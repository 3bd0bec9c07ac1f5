import TreeStyle.Text.Printable

/-!
# Quoted text

Messages show a piece of text between quotation marks.  The mark is the single
one, unless the text holds a single mark and no double one.  Inside, the
backslash and the mark in use are escaped by a backslash, line feed, carriage
return and tab have letters of their own, and other characters that cannot be
printed are written by their code point in two, four or eight digits.

Bytes are shown as the characters of ASCII that they are, after a letter, and those
beyond ASCII by their codes.
-/

namespace TreeStyle.Text

set_option autoImplicit false

/-- The quotation mark used around a text. -/
def quotationMark (text : List Char) : Char :=
  if '\x27' ∈ text ∧ '\x22' ∉ text then '\x22' else '\x27'

/-- The digit of a number below sixteen, in lower case. -/
def hexDigit (value : Nat) : Char :=
  (['0', '1', '2', '3', '4', '5', '6', '7', '8', '9', 'a', 'b', 'c', 'd', 'e', 'f'][value]?).getD '0'

/-- The last `width` hexadecimal digits of a number. -/
def hexDigits : (width : Nat) → (value : Nat) → List Char
  | 0, _ => []
  | width + 1, value => hexDigits width (value / 16) ++ [hexDigit (value % 16)]

/-- A character written by its code point. -/
def codeEscape (character : Char) : List Char :=
  if character.toNat < 0x100 then '\x5c' :: 'x' :: hexDigits 2 character.toNat
  else if character.toNat < 0x10000 then '\x5c' :: 'u' :: hexDigits 4 character.toNat
  else '\x5c' :: 'U' :: hexDigits 8 character.toNat

/-- A character of ASCII as it stands, and any other one by its code point. -/
def asciiCharacter (character : Char) : List Char :=
  if character.toNat < 0x80 then [character] else codeEscape character

/-- How one character is written between the given quotation marks. -/
def escapeCharacter (mark character : Char) : List Char :=
  if character = mark ∨ character = '\x5c' then ['\x5c', character]
  else if character = '\n' then ['\x5c', 'n']
  else if character = '\r' then ['\x5c', 'r']
  else if character = '\t' then ['\x5c', 't']
  else if isPrintable character then [character]
  else codeEscape character

/-- A text between quotation marks, on one line and printable throughout. -/
def quote (text : String) : String :=
  let characters := text.toList
  let mark := quotationMark characters
  String.ofList (mark :: (characters.flatMap (escapeCharacter mark) ++ [mark]))

/-- Bytes between quotation marks. -/
def quoteBytes (bytes : List UInt8) : String :=
  let characters := bytes.map fun byte => Char.ofNat byte.toNat
  let mark := quotationMark characters
  let written := characters.flatMap fun character =>
    if character.toNat < 0x80 then escapeCharacter mark character else codeEscape character
  String.ofList ('b' :: mark :: (written ++ [mark]))

end TreeStyle.Text
