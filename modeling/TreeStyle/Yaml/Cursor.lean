/-!
# Places in a document

A document is read from left to right.  A cursor holds the text from a place on,
the number of characters before it, and its line and column.  Four characters end
a line, and of these the line feed and the next-line character are written as a
line feed when lines are joined.  A line that starts with three hyphens or three
points, followed by a blank or by nothing, is a marker between documents.

Main statement: `length_advance_le` (advancing never gives text back).
-/

namespace TreeStyle.Yaml

set_option autoImplicit false

/-! ## Characters -/

/-- Whether a character ends a line. -/
def isBreak (character : Char) : Bool :=
  character == '\n' || character == '\u0085' || character == '\u2028' || character == '\u2029'

/-- Whether a character separates words. -/
def isSeparator (character : Char) : Bool :=
  character == ' ' || character == '\t' || isBreak character

/-- The character that a line break leaves in a text. -/
def writtenBreak (character : Char) : Char := if character = '\u0085' then '\n' else character

/-- Whether a text is at its end or starts with a separator. -/
def separated : List Char → Bool
  | [] => true
  | character :: _ => isSeparator character

/-- Whether a text starts with a marker between documents that is made of the given
character. -/
def startsWithMarker (character : Char) : List Char → Bool
  | first :: second :: third :: rest =>
    first == character && second == character && third == character && separated rest
  | _ => false

/-- Whether a text starts with a marker between documents. -/
def startsWithAnyMarker (text : List Char) : Bool :=
  startsWithMarker '-' text || startsWithMarker '.' text

/-! ## Cursors -/

/-- A place in a document. -/
structure Cursor where
  rest : List Char
  index : Nat := 0
  line : Nat := 0
  column : Nat := 0
  deriving DecidableEq, Repr

namespace Cursor

/-- The place after the next character.  A byte order mark takes no column. -/
def next (cursor : Cursor) : Cursor :=
  match cursor.rest with
  | [] => cursor
  | character :: rest =>
    if isBreak character then ⟨rest, cursor.index + 1, cursor.line + 1, 0⟩
    else if character = '\uFEFF' then { cursor with rest, index := cursor.index + 1 }
    else { cursor with rest, index := cursor.index + 1, column := cursor.column + 1 }

/-- The place so many characters further on. -/
def advance : Nat → Cursor → Cursor
  | 0, cursor => cursor
  | count + 1, cursor => advance count cursor.next

/-- The place after the characters from here on that satisfy a condition. -/
def skipWhile (condition : Char → Bool) (cursor : Cursor) : Cursor :=
  advance (cursor.rest.takeWhile condition).length cursor

theorem length_next_le (cursor : Cursor) : cursor.next.rest.length ≤ cursor.rest.length := by
  unfold next
  split
  · simp
  · next equation => split <;> (try split) <;> simp [equation]

/-- Advancing never gives text back. -/
theorem length_advance_le (count : Nat) (cursor : Cursor) :
    (advance count cursor).rest.length ≤ cursor.rest.length := by
  induction count generalizing cursor with
  | zero => exact Nat.le_refl _
  | succ count ih => exact Nat.le_trans (ih cursor.next) cursor.length_next_le

end Cursor

end TreeStyle.Yaml
