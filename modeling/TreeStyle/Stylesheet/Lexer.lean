import TreeStyle.Stylesheet.Scan

/-!
# A lexer with one token of lookahead

A lexer hands out the tokens of a source one at a time, and one token may be
looked at before it is taken.  A token that was looked at has already been
scanned, so a colour cannot be read in its place.

Main statements: `peek_peek` (looking twice is looking once) and
`next_of_peek` (the token looked at is the token taken).
-/

namespace TreeStyle

set_option autoImplicit false

/-- A source, the part of it that has not been scanned, and the token that was
looked at but not taken. -/
structure Lexer where
  source : List Char
  rest : List Char
  pending : Option (Piece Token) := none

/-- Why a lexer hands out no token. -/
inductive LexerError where
  /-- A character that starts no token. -/
  | stray (stray : Scan.Stray)
  /-- A colour was asked for after another token had been looked at. -/
  | tokenPending
  deriving DecidableEq, Repr

namespace Lexer

/-- The wording for a colour that was asked for after another token had been
looked at. -/
def pendingMessage : String := "read_color() called with a token already peeked"

/-- A lexer at the start of a source. -/
def ofCharacters (source : List Char) : Lexer := { source, rest := source }

/-- The number of characters that have been scanned. -/
def pos (lexer : Lexer) : Nat := lexer.source.length - lexer.rest.length

/-- The number of characters before the remainder `start` of the source. -/
def indexOf (lexer : Lexer) (start : List Char) : Nat := lexer.source.length - start.length

/-- Looks at the next token.  A scan that finds none stops at the stray character. -/
def peek (lexer : Lexer) : Except LexerError (Piece Token) × Lexer :=
  match lexer.pending with
  | some piece => (.ok piece, lexer)
  | none =>
    match Scan.nextToken lexer.rest with
    | .ok piece => (.ok piece, { lexer with rest := piece.rest, pending := some piece })
    | .error stray => (.error (.stray stray), { lexer with rest := stray.start })

/-- Takes the next token. -/
def next (lexer : Lexer) : Except LexerError (Piece Token) × Lexer :=
  match lexer.peek with
  | (.ok piece, after) => (.ok piece, { after with pending := none })
  | (.error error, after) => (.error error, after)

/-- Takes a colour, which may have no characters; only the end of the input stands
in its place. -/
def nextColor (lexer : Lexer) : Except LexerError (Piece Token) × Lexer :=
  match lexer.pending with
  | some _ => (.error .tokenPending, lexer)
  | none =>
    match Scan.nextColor lexer.rest with
    | none => (.ok ⟨.endOfInput, [], []⟩, { lexer with rest := [] })
    | some piece =>
      (.ok ⟨.color piece.value, piece.start, piece.rest⟩, { lexer with rest := piece.rest })

/-- All tokens up to the end of the input or the first stray character. -/
def tokens (text : List Char) : List (Piece Token) × Option Scan.Stray :=
  match _scanned : Scan.nextToken text with
  | .error stray => ([], some stray)
  | .ok piece =>
    if _ended : piece.value = .endOfInput then ([piece], none)
    else
      let (more, stray) := tokens piece.rest
      (piece :: more, stray)
termination_by text.length
decreasing_by exact Scan.length_rest_nextToken_lt _scanned _ended

/-- Looking twice is looking once. -/
theorem peek_peek {lexer after : Lexer} {piece : Piece Token}
    (looked : lexer.peek = (.ok piece, after)) : after.peek = (.ok piece, after) := by
  unfold peek at looked
  split at looked
  · next found pending =>
    simp only [Prod.mk.injEq, Except.ok.injEq] at looked
    obtain ⟨rfl, rfl⟩ := looked
    simp [peek, pending]
  · split at looked
    · simp only [Prod.mk.injEq, Except.ok.injEq] at looked
      obtain ⟨rfl, rfl⟩ := looked
      rfl
    · simp at looked

/-- The token looked at is the token taken. -/
theorem next_of_peek {lexer after : Lexer} {piece : Piece Token}
    (looked : lexer.peek = (.ok piece, after)) :
    lexer.next = (.ok piece, { after with pending := none }) := by
  simp [next, looked]

end Lexer

end TreeStyle
