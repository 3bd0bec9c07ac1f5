import TreeStyle.Yaml.Quoted

/-!
# The extent of plain scalars

A plain scalar is a run of words with blanks and line breaks between them.  A word
ends at a separator, and at a colon that a separator follows; inside of brackets
it ends at further characters as well.  A comment, a marker between documents, and
outside of brackets a line that is not indented enough end the scalar.

Main statement: `wordLength_le` (a word is part of the text it starts).
-/

namespace TreeStyle.Yaml

set_option autoImplicit false

/-- Whether a character has a meaning of its own inside of brackets. -/
def isBracketOrComma (character : Char) : Bool :=
  character == ',' || character == '[' || character == ']' || character == '\x7b' ||
    character == '\x7d'

/-- Whether a colon before the given text ends a word. -/
def colonEndsWord (bracketed : Bool) : List Char → Bool
  | [] => true
  | character :: _ => isSeparator character || (bracketed && isBracketOrComma character)

/-- The length of the word that a text starts with. -/
def wordLength (bracketed : Bool) : List Char → Nat
  | [] => 0
  | character :: rest =>
    if isSeparator character then 0
    else if character == ':' && colonEndsWord bracketed rest then 0
    else if bracketed && (character == '?' || isBracketOrComma character) then 0
    else 1 + wordLength bracketed rest

/-- A word is part of the text it starts. -/
theorem wordLength_le (bracketed : Bool) (text : List Char) :
    wordLength bracketed text ≤ text.length := by
  induction text with
  | nil => exact Nat.le_refl _
  | cons character rest ih =>
    unfold wordLength
    split
    · exact Nat.zero_le _
    · split
      · exact Nat.zero_le _
      · split
        · exact Nat.zero_le _
        · rw [List.length_cons]
          omega

/-- What stands between two words. -/
structure Gap where
  /-- What the gap leaves in the text; nothing if the scalar ends. -/
  text : List Char
  /-- The place after the gap. -/
  stop : Cursor
  /-- Whether the gap goes over the end of a line. -/
  broken : Bool

/-- The line breaks from the start of a line on, with blanks around them dropped, and
whether a marker between documents stands after them. -/
def plainBreaks (cursor : Cursor) : List Char × Cursor × Bool :=
  if startsWithAnyMarker cursor.rest then ([], cursor, true)
  else
    let start := cursor.skipWhile (· == ' ')
    match start.rest with
    | [] => ([], start, false)
    | character :: _ =>
      if isBreak character then
        let after := start.next
        if _shorter : after.rest.length < cursor.rest.length then
          let (breaks, stop, marked) := plainBreaks after
          (writtenBreak character :: breaks, stop, marked)
        else ([], start, false)
      else ([], start, false)
termination_by cursor.rest.length

/-- The gap from a place on. -/
def plainGap (cursor : Cursor) : Gap :=
  let stop := cursor.skipWhile (· == ' ')
  match stop.rest with
  | [] => ⟨cursor.rest.takeWhile (· == ' '), stop, false⟩
  | character :: _ =>
    if isBreak character then
      let (breaks, after, marked) := plainBreaks stop.next
      ⟨if marked then [] else joinedLines character breaks, after, true⟩
    else ⟨cursor.rest.takeWhile (· == ' '), stop, false⟩

/-- The text of a plain scalar from a gap on, and the gap after its last word.
Outside of brackets, lines with fewer columns than `indent` do not belong to it. -/
def plainFrom (bracketed : Bool) (indent : Nat) (gap : Gap) : List Char × Gap :=
  let cursor := gap.stop
  let length := wordLength bracketed cursor.rest
  if length = 0 ∨ cursor.rest.head? = some '#' then ([], gap)
  else
    let word := cursor.rest.take length
    let following := plainGap (cursor.advance length)
    let ends := following.text.isEmpty || (!bracketed && following.stop.column < indent)
    if _shorter : following.stop.rest.length < cursor.rest.length ∧ ends = false then
      let (text, last) := plainFrom bracketed indent following
      (gap.text ++ word ++ text, last)
    else (gap.text ++ word, following)
termination_by gap.stop.rest.length
decreasing_by exact _shorter.1

/-- The text of the plain scalar from a place on, and the gap after it. -/
def plainScalar (bracketed : Bool) (indent : Nat) (cursor : Cursor) : List Char × Gap :=
  plainFrom bracketed indent ⟨[], cursor, false⟩

end TreeStyle.Yaml
