/-!
# Names without case

Colour names, attribute names and property keys are compared without regard to
case.  All of these names consist of ASCII characters, so it is enough to know
which characters have an ASCII lower case: the capitals `A` to `Z` and the
Kelvin sign.  Every other character is kept, which no name can match either way.
-/

namespace TreeStyle.Text

set_option autoImplicit false

/-- The Kelvin sign, whose lower case is the letter `k`. -/
def kelvinSign : Char := '\u212a'

/-- The lower case of a character, as far as it is an ASCII character. -/
def lowerCharacter (character : Char) : Char :=
  if character = kelvinSign then 'k' else character.toLower

/-- A text in lower case, for comparison with an ASCII name. -/
def lower (text : List Char) : List Char := text.map lowerCharacter

end TreeStyle.Text
