import TreeStyle.Text.Quoted

/-!
# Tokens of a stylesheet

A stylesheet is written in identifiers, colour literals and nine punctuation
marks, and the end of the input counts as a token too.

Main statements: `Mark.ofChar?_character` (each mark is read from its own
character) and `Mark.character_of_ofChar?` (and from no other).
-/

namespace TreeStyle

set_option autoImplicit false

/-! ## Marks -/

/-- The punctuation marks. -/
inductive Mark where
  | colon | semicolon | comma | plus | tilde | greater | pipe | leftBrace | rightBrace
  deriving DecidableEq, Repr

namespace Mark

/-- The character of a mark. -/
def character : Mark → Char
  | colon => ':'
  | semicolon => ';'
  | comma => ','
  | plus => '+'
  | tilde => '~'
  | greater => '>'
  | pipe => '|'
  | leftBrace => '\x7b'
  | rightBrace => '\x7d'

/-- All marks. -/
def all : List Mark :=
  [colon, semicolon, comma, plus, tilde, greater, pipe, leftBrace, rightBrace]

/-- The mark with the given character. -/
def ofChar? (character : Char) : Option Mark :=
  all.find? fun mark => mark.character == character

/-- Each mark is read from its own character. -/
theorem ofChar?_character (mark : Mark) : ofChar? mark.character = some mark := by
  cases mark <;> decide

/-- A mark is read from its own character alone. -/
theorem character_of_ofChar? {character : Char} {mark : Mark}
    (read : ofChar? character = some mark) : mark.character = character := by
  have found := List.find?_some read
  exact eq_of_beq found

end Mark

/-! ## Tokens -/

/-- A token of a stylesheet. -/
inductive Token where
  /-- The name of a node kind, property, highlight group or attribute. -/
  | identifier (text : String)
  /-- What stands in the place of a colour. -/
  | color (text : String)
  /-- A punctuation mark. -/
  | mark (symbol : Mark)
  | endOfInput
  deriving DecidableEq, Repr

namespace Token

/-- The characters of a token. -/
def text : Token → String
  | .identifier characters => characters
  | .color characters => characters
  | .mark symbol => String.singleton symbol.character
  | .endOfInput => ""

/-- A token as messages name it. -/
def describe : Token → String
  | .identifier characters => "identifier " ++ Text.quote characters
  | .color characters => "color " ++ Text.quote characters
  | .mark symbol => "'" ++ String.singleton symbol.character ++ "'"
  | .endOfInput => "end of input"

end Token

/-! ## Places -/

/-- Something read from a text, with the text from its first character on and the
text after it. -/
structure Piece (α : Type) where
  value : α
  start : List Char
  rest : List Char
  deriving DecidableEq, Repr

end TreeStyle
