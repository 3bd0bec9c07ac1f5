/-!
# Positions in a text

A place in a text is reported in three ways: as the number of bytes before it in
UTF-8, as a line, and as a column.  Lines and columns count from one, lines end
at line feeds, and columns count characters.  All three are functions of the
text before the place.

Main statements: `Position.after_append_singleton` (what one more character does to a
position) and `Position.line_after`.
-/

namespace TreeStyle.Text

set_option autoImplicit false

/-- A place in a text. -/
structure Position where
  /-- The number of bytes before the place, in UTF-8. -/
  offset : Nat
  /-- The number of the line, from one. -/
  line : Nat
  /-- The number of the character in its line, from one. -/
  column : Nat
  deriving DecidableEq, Repr

/-- The length of a text in UTF-8. -/
def utf8Length : List Char → Nat
  | [] => 0
  | character :: rest => character.utf8Size + utf8Length rest

/-- The length of a text is that of its parts. -/
theorem utf8Length_append (first second : List Char) :
    utf8Length (first ++ second) = utf8Length first + utf8Length second := by
  induction first with
  | nil => simp [utf8Length]
  | cons character rest ih =>
    rw [List.cons_append, utf8Length, utf8Length, ih]
    omega

namespace Position

/-- The place at the start of a text. -/
def start : Position := ⟨0, 1, 1⟩

/-- The place after one more character. -/
def advance (position : Position) (character : Char) : Position where
  offset := position.offset + character.utf8Size
  line := if character = '\n' then position.line + 1 else position.line
  column := if character = '\n' then 1 else position.column + 1

/-- The place after a text. -/
def after (text : List Char) : Position := text.foldl advance start

/-- One more character advances the place by that character. -/
theorem after_append_singleton (text : List Char) (character : Char) :
    after (text ++ [character]) = (after text).advance character := by
  simp [after, List.foldl_append]

theorem offset_foldl_advance (text : List Char) (position : Position) :
    (text.foldl advance position).offset = position.offset + utf8Length text := by
  induction text generalizing position with
  | nil => simp [utf8Length]
  | cons character rest ih =>
    rw [List.foldl_cons, ih]
    simp only [advance, utf8Length]
    omega

/-- The offset of a place is the length in UTF-8 of the text before it. -/
theorem offset_after (text : List Char) : (after text).offset = utf8Length text := by
  rw [after, offset_foldl_advance, start, Nat.zero_add]

theorem line_foldl_advance (text : List Char) (position : Position) :
    (text.foldl advance position).line = position.line + text.count '\n' := by
  induction text generalizing position with
  | nil => simp
  | cons character rest ih =>
    rw [List.foldl_cons, ih]
    by_cases feed : character = '\n'
    · simp [advance, feed]
      omega
    · simp [advance, feed]

/-- The line of a place is one more than the number of line feeds before it. -/
theorem line_after (text : List Char) : (after text).line = 1 + text.count '\n' := by
  rw [after, line_foldl_advance, start]

end Position

end TreeStyle.Text
