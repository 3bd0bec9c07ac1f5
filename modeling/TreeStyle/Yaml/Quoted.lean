import TreeStyle.Decimal.Digits
import TreeStyle.Yaml.Cursor
import TreeStyle.Yaml.Fault

/-!
# Quoted scalars

Between single quotes a quote is written twice and every other character stands
for itself.  Between double quotes a backslash starts an escape, which names a
character by a letter or by its code, or joins two lines without a blank.

A quoted scalar may go on over several lines.  The blanks around a line break are
dropped; a single break is read as a blank, and of several breaks all but the
first are kept.  A marker between documents ends the scalar with an error, and so
does a code that is above those of the characters.
-/

namespace TreeStyle.Yaml

set_option autoImplicit false

/-- The characters that an escape of one letter stands for. -/
def namedEscape? : Char → Option Char
  | '0' => some '\x00'
  | 'a' => some '\x07'
  | 'b' => some '\x08'
  | 't' => some '\t'
  | '\t' => some '\t'
  | 'n' => some '\n'
  | 'v' => some '\x0b'
  | 'f' => some '\x0c'
  | 'r' => some '\r'
  | 'e' => some '\x1b'
  | ' ' => some ' '
  | '\x22' => some '\x22'
  | '\x5c' => some '\x5c'
  | '/' => some '/'
  | 'N' => some '\u0085'
  | '_' => some '\u00a0'
  | 'L' => some '\u2028'
  | 'P' => some '\u2029'
  | _ => none

/-- The number of hexadecimal digits after the letter of an escape by code. -/
def codeDigits? : Char → Option Nat
  | 'x' => some 2
  | 'u' => some 4
  | 'U' => some 8
  | _ => none

/-- The character with a code. -/
def codedCharacter (code : Nat) : Except TokenFault Char :=
  if code.isValidChar then .ok (Char.ofNat code)
  else if Nat.pow 2 31 ≤ code then .error (.unreadable .codeTooLarge)
  else if 0x110000 ≤ code then .error (.unreadable .noCharacter)
  else .error .malformed

/-- The code that so many hexadecimal digits at the start of a text state. -/
def readCode (count : Nat) (text : List Char) : Except TokenFault Nat :=
  let digits := text.take count
  match Decimal.readNumeral 16 digits with
  | some code => if digits.length = count then .ok code else .error .unfinished
  | none => .error (if digits = [] then .unfinished else .malformed)

/-- The line breaks from the start of a line on, with the blanks around them
dropped, and the place of the first other character. -/
def foldedBreaks (cursor : Cursor) : Option (List Char × Cursor) :=
  if startsWithAnyMarker cursor.rest then none
  else
    let start := cursor.skipWhile fun character => character == ' ' || character == '\t'
    match start.rest with
    | [] => some ([], start)
    | character :: _ =>
      if isBreak character then
        let after := start.next
        if _shorter : after.rest.length < cursor.rest.length then do
          let (breaks, stop) ← foldedBreaks after
          some (writtenBreak character :: breaks, stop)
        else none
      else some ([], start)
termination_by cursor.rest.length

/-- What a line break and the breaks after it leave in a text. -/
def joinedLines (first : Char) (breaks : List Char) : List Char :=
  if writtenBreak first ≠ '\n' then writtenBreak first :: breaks
  else if breaks = [] then [' ']
  else breaks

/-- A run of blanks, with the line breaks in it, and the place after it. -/
def quotedGap (cursor : Cursor) : Except TokenFault (List Char × Cursor) :=
  let blank (character : Char) : Bool := character == ' ' || character == '\t'
  let stop := cursor.skipWhile blank
  match stop.rest with
  | [] => .error .unfinished
  | character :: _ =>
    if isBreak character then do
      let (breaks, after) ← orMalformed (foldedBreaks stop.next)
      .ok (joinedLines character breaks, after)
    else .ok (cursor.rest.takeWhile blank, stop)

/-- The character or the line breaks that an escape stands for, from the place of its
letter on, and the place after it. -/
def escaped (cursor : Cursor) : Except TokenFault (List Char × Cursor) :=
  match cursor.rest with
  | [] => .error .unfinished
  | letter :: rest =>
    match namedEscape? letter, codeDigits? letter with
    | some character, _ => .ok ([character], cursor.next)
    | none, some count => do
      let character ← codedCharacter (← readCode count rest)
      .ok ([character], cursor.advance (count + 1))
    | none, none =>
      if isBreak letter then orMalformed (foldedBreaks cursor.next) else .error .malformed

/-- The next part of a quoted scalar; nothing if the scalar ends there. -/
def quotedPart (quote : Char) (cursor : Cursor) :
    Except TokenFault (Option (List Char) × Cursor) :=
  match cursor.rest with
  | [] => .error .unfinished
  | character :: rest =>
    if character = quote then
      if quote = '\x27' ∧ rest.head? = some '\x27' then .ok (some ['\x27'], cursor.advance 2)
      else .ok (none, cursor.next)
    else if isSeparator character then
      (quotedGap cursor).map fun part => (some part.1, part.2)
    else if quote = '\x22' ∧ character = '\x5c' then
      (escaped cursor.next).map fun part => (some part.1, part.2)
    else .ok (some [character], cursor.next)

/-- The text of a quoted scalar from the place after its opening quote on, and the
place after its closing quote. -/
def quotedFrom (quote : Char) (cursor : Cursor) : Except TokenFault (List Char × Cursor) :=
  match quotedPart quote cursor with
  | .error fault => .error fault
  | .ok (none, after) => .ok ([], after)
  | .ok (some part, after) =>
    if _shorter : after.rest.length < cursor.rest.length then do
      let (text, stop) ← quotedFrom quote after
      .ok (part ++ text, stop)
    else .error .malformed
termination_by cursor.rest.length

end TreeStyle.Yaml
