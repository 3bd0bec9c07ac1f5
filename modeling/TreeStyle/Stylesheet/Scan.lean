import TreeStyle.Stylesheet.ParseError

/-!
# Scanning

Between tokens, blanks and comments are skipped; a comment runs from a `#` to the
end of its line.  Where a colour is due, blanks alone are skipped, because a `#`
starts a colour there, and the colour is the longest run of characters that a
literal can hold, which may be empty.

Main statements: `skipTrivia_idempotent`, `length_rest_nextToken_lt` and
`length_rest_nextColor_le` (a scan leaves less of the text than it was given).
-/

namespace TreeStyle.Scan

set_option autoImplicit false

/-! ## Character classes -/

/-- The six characters that may stand between tokens. -/
def isSpace (character : Char) : Bool :=
  character == ' ' || character == '\t' || character == '\r' || character == '\n'
    || character == '\x0c' || character == '\x0b'

/-- The characters an identifier starts with. -/
def isIdentifierStart (character : Char) : Bool := character.isAlpha || character == '_'

/-- The characters an identifier goes on with, which also make up colour values. -/
def isWordCharacter (character : Char) : Bool :=
  character.isAlphanum || character == '_' || character == '-'

/-! ## Skipping -/

/-- The text after its leading blanks. -/
def skipSpace (text : List Char) : List Char := text.dropWhile isSpace

/-- The text after its leading blanks and comments; `inComment` tells whether it
starts inside of a comment. -/
def skipTrivia (inComment : Bool) : List Char → List Char
  | [] => []
  | character :: rest =>
    if inComment then skipTrivia (character != '\n') rest
    else if isSpace character then skipTrivia false rest
    else if character = '#' then skipTrivia true rest
    else character :: rest

/-! ## Tokens -/

/-- A scan that found no token: the offending character and the text from it on. -/
structure Stray where
  character : Char
  start : List Char
  deriving DecidableEq, Repr

/-- The next token of a text, colours aside. -/
def nextToken (text : List Char) : Except Stray (Piece Token) :=
  match skipTrivia false text with
  | [] => .ok ⟨.endOfInput, [], []⟩
  | character :: rest =>
    match Mark.ofChar? character with
    | some mark => .ok ⟨.mark mark, character :: rest, rest⟩
    | none =>
      if isIdentifierStart character then
        .ok ⟨.identifier (String.ofList (character :: rest.takeWhile isWordCharacter)),
          character :: rest, rest.dropWhile isWordCharacter⟩
      else .error ⟨character, character :: rest⟩

/-- The text of the next colour, or nothing at the end of the input. -/
def nextColor (text : List Char) : Option (Piece String) :=
  match skipSpace text with
  | [] => none
  | '#' :: rest =>
    some ⟨String.ofList ('#' :: rest.takeWhile isWordCharacter), '#' :: rest,
      rest.dropWhile isWordCharacter⟩
  | start =>
    some ⟨String.ofList (start.takeWhile isWordCharacter), start,
      start.dropWhile isWordCharacter⟩

/-! ## Lengths -/

theorem length_dropWhile_le {α : Type} (test : α → Bool) (list : List α) :
    (list.dropWhile test).length ≤ list.length :=
  (List.dropWhile_suffix test).length_le

theorem length_skipTrivia_le (inComment : Bool) (text : List Char) :
    (skipTrivia inComment text).length ≤ text.length := by
  induction text generalizing inComment with
  | nil => simp [skipTrivia]
  | cons character rest ih =>
    unfold skipTrivia
    split
    · exact Nat.le_succ_of_le (ih _)
    · split
      · exact Nat.le_succ_of_le (ih _)
      · split
        · exact Nat.le_succ_of_le (ih _)
        · exact Nat.le_refl _

/-- What is left after skipping starts with nothing to skip. -/
theorem skipTrivia_idempotent (inComment : Bool) (text : List Char) :
    skipTrivia false (skipTrivia inComment text) = skipTrivia inComment text := by
  induction text generalizing inComment with
  | nil => simp [skipTrivia]
  | cons character rest ih =>
    by_cases comment : inComment = true
    · simp only [skipTrivia, comment, if_true]
      exact ih _
    · by_cases space : isSpace character = true
      · simp only [skipTrivia, comment, space, if_true]
        exact ih _
      · by_cases mark : character = '#'
        · subst mark
          have plain : isSpace '#' = false := by decide
          simp only [skipTrivia, comment, plain, if_true]
          exact ih _
        · simp [skipTrivia, comment, space, mark]

/-- A token takes at least one character from the text. -/
theorem length_rest_nextToken_lt {text : List Char} {piece : Piece Token}
    (scanned : nextToken text = .ok piece) (token : piece.value ≠ .endOfInput) :
    piece.rest.length < text.length := by
  have skipped := length_skipTrivia_le false text
  unfold nextToken at scanned
  split at scanned
  · injection scanned with same
    subst same
    exact absurd rfl token
  · next character rest start =>
    rw [start] at skipped
    simp only [List.length_cons] at skipped
    split at scanned
    · injection scanned with same
      subst same
      simp only
      omega
    · split at scanned
      · injection scanned with same
        subst same
        have dropped := length_dropWhile_le isWordCharacter rest
        simp only
        omega
      · cases scanned

/-- Nothing is left after the end of the input. -/
theorem rest_of_endOfInput {text : List Char} {piece : Piece Token}
    (scanned : nextToken text = .ok piece) (ended : piece.value = .endOfInput) :
    piece.rest = [] := by
  unfold nextToken at scanned
  split at scanned
  · injection scanned with same
    subst same
    rfl
  · split at scanned
    · injection scanned with same
      subst same
      cases ended
    · split at scanned
      · injection scanned with same
        subst same
        cases ended
      · cases scanned

/-- A colour leaves no more of the text than there was, and less if it has any
characters. -/
theorem length_rest_nextColor_le {text : List Char} {piece : Piece String}
    (scanned : nextColor text = some piece) :
    piece.rest.length ≤ text.length ∧ (piece.value ≠ "" → piece.rest.length < text.length) := by
  have skipped : (skipSpace text).length ≤ text.length := length_dropWhile_le isSpace text
  unfold nextColor at scanned
  split at scanned
  · cases scanned
  · next rest start =>
    rw [start] at skipped
    simp only [List.length_cons] at skipped
    injection scanned with same
    subst same
    have dropped := length_dropWhile_le isWordCharacter rest
    simp only
    omega
  · injection scanned with same
    subst same
    have dropped := length_dropWhile_le isWordCharacter (skipSpace text)
    refine ⟨Nat.le_trans dropped skipped, ?_⟩
    intro nonempty
    have parts := congrArg List.length
      (List.takeWhile_append_dropWhile (p := isWordCharacter) (l := skipSpace text))
    have taken : (skipSpace text).takeWhile isWordCharacter ≠ [] := by
      intro none
      apply nonempty
      simp only [none]
    have positive := List.length_pos_iff.mpr taken
    simp only [List.length_append] at parts
    simp only
    omega

end TreeStyle.Scan
