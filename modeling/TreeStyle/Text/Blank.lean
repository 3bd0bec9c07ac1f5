/-!
# Blank characters

Names and literals may be surrounded by blanks, which are dropped before the
name is looked up.  The blanks are the white space of Unicode together with the
four information separators U+001C to U+001F.

Main statements: `isBlank_of_isWhitespace` (every character the core library
calls white space is a blank) and `strip_eq_self` (a text that neither starts
nor ends with a blank is left alone).
-/

namespace TreeStyle.Text

set_option autoImplicit false

/-- The white space of Unicode. -/
def isWhiteSpace (character : Char) : Bool :=
  let code := character.toNat
  (0x09 ≤ code && code ≤ 0x0D) || code == 0x20 || code == 0x85 || code == 0xA0
    || code == 0x1680 || (0x2000 ≤ code && code ≤ 0x200A) || code == 0x2028 || code == 0x2029
    || code == 0x202F || code == 0x205F || code == 0x3000

/-- The white space of Unicode and the four information separators. -/
def isBlank (character : Char) : Bool :=
  isWhiteSpace character || (0x1C ≤ character.toNat && character.toNat ≤ 0x1F)

/-- The text without the characters of a class at its start and at its end. -/
def trim (isTrimmed : Char → Bool) (text : List Char) : List Char :=
  ((text.dropWhile isTrimmed).reverse.dropWhile isTrimmed).reverse

/-- The text without the blanks at its start and at its end. -/
def strip (text : List Char) : List Char := trim isBlank text

/-- Every white space character of the core library is a blank. -/
theorem isBlank_of_isWhitespace {character : Char} (white : character.isWhitespace = true) :
    isBlank character = true := by
  simp only [Char.isWhitespace, Bool.or_eq_true, decide_eq_true_eq] at white
  rcases white with (((rfl | rfl) | rfl) | rfl) <;> decide

/-- A text that neither starts nor ends with a blank is left alone. -/
theorem strip_eq_self {text : List Char}
    (first : ∀ character ∈ text.head?, isBlank character = false)
    (last : ∀ character ∈ text.getLast?, isBlank character = false) : strip text = text := by
  have keep : ∀ characters : List Char,
      (∀ character ∈ characters.head?, isBlank character = false) →
        characters.dropWhile isBlank = characters := by
    intro characters head
    cases characters with
    | nil => rfl
    | cons character rest => simp [List.dropWhile, head character rfl]
  have reversed : ∀ character ∈ text.reverse.head?, isBlank character = false := by
    simpa [List.head?_reverse] using last
  rw [strip, trim, keep text first, keep text.reverse reversed, List.reverse_reverse]

end TreeStyle.Text
