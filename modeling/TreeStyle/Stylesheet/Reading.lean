import TreeStyle.Stylesheet.Scan
import TreeStyle.Stylesheet.Stage

/-!
# Reading a stylesheet

A source is read token by token through the stages of its rules, each token
scanned in the way its stage asks for.  The source is a stylesheet if it ends
between two rules; the first token that its stage refuses, or the end of the
source inside a rule, is the error.

Main statements: `length_rest_readToken_lt` (each token shortens the text, which
is why reading ends) and the equations `readRules_of_stray`,
`readRules_of_end` and `readRules_of_token` by which reading goes on.
-/

namespace TreeStyle

set_option autoImplicit false

namespace Stage

/-- The next token, scanned as the stage asks for.  Where a colour is due and none
starts, the token is the one that stands there instead. -/
def readToken (stage : Stage) (text : List Char) : Except Scan.Stray (Piece Token) :=
  if stage.expectsColor then
    match Scan.nextColor text with
    | none => .ok ⟨.endOfInput, [], []⟩
    | some piece =>
      if piece.value = "" then Scan.nextToken piece.rest
      else .ok ⟨.color piece.value, piece.start, piece.rest⟩
  else Scan.nextToken text

/-- A token that is not the end of the input shortens the text. -/
theorem length_rest_readToken_lt {stage : Stage} {text : List Char} {piece : Piece Token}
    (read : stage.readToken text = .ok piece) (token : piece.value ≠ .endOfInput) :
    piece.rest.length < text.length := by
  unfold readToken at read
  split at read
  · split at read
    · injection read with same
      subst same
      exact absurd rfl token
    · next colored scanned =>
      have bounds := Scan.length_rest_nextColor_le scanned
      split at read
      · exact Nat.lt_of_lt_of_le (Scan.length_rest_nextToken_lt read token) bounds.1
      · next nonempty =>
        injection read with same
        subst same
        exact bounds.2 nonempty
  · exact Scan.length_rest_nextToken_lt read token

/-- The start of the open rule, given the place of the next token. -/
def openedAt (stage : Stage) (opened start : List Char) : List Char :=
  match stage with
  | between => start
  | _ => opened

end Stage

/-! ## Rules -/

/-- The rules of a text, from a stage on; `opened` is the text from the first token
of the open rule on. -/
def readRules (stage : Stage) (opened text : List Char) : Except Fault (List Rule) :=
  match _read : stage.readToken text with
  | .error stray =>
    .error ⟨.strayCharacter stray.character, stray.start, stage.openedAt opened stray.start⟩
  | .ok piece =>
    if _ended : piece.value = .endOfInput then
      match stage with
      | .between => .ok []
      | _ => .error ⟨.unterminated, piece.start, opened⟩
    else
      match stage.step piece.value with
      | .error cause => .error ⟨cause, piece.start, stage.openedAt opened piece.start⟩
      | .ok (.proceed next) => readRules next (stage.openedAt opened piece.start) piece.rest
      | .ok (.close rule) =>
        match readRules .between [] piece.rest with
        | .ok rules => .ok (rule :: rules)
        | .error fault => .error fault
termination_by text.length
decreasing_by all_goals exact Stage.length_rest_readToken_lt _read _ended

/-- The stylesheet that a source states. -/
def Stylesheet.ofCharacters (source : List Char) : Except ParseError Stylesheet :=
  match readRules .between [] source with
  | .ok rules => .ok ⟨rules⟩
  | .error fault => .error (ParseError.ofFault source fault)

/-- The stylesheet that a source states. -/
def Stylesheet.ofString (source : String) : Except ParseError Stylesheet :=
  Stylesheet.ofCharacters source.toList

/-! ## How reading goes on -/

/-- A stray character ends reading. -/
theorem readRules_of_stray {stage : Stage} {opened text : List Char} {stray : Scan.Stray}
    (read : stage.readToken text = .error stray) :
    readRules stage opened text =
      .error ⟨.strayCharacter stray.character, stray.start,
        stage.openedAt opened stray.start⟩ := by
  rw [readRules]
  split
  · next found equation => rw [read] at equation; cases equation; rfl
  · next found equation => rw [read] at equation; cases equation

/-- A text that holds no more tokens is complete between two rules alone. -/
theorem readRules_of_end {stage : Stage} {opened text : List Char} {piece : Piece Token}
    (read : stage.readToken text = .ok piece) (ended : piece.value = .endOfInput) :
    readRules stage opened text =
      match stage with
      | .between => .ok []
      | _ => .error ⟨.unterminated, piece.start, opened⟩ := by
  rw [readRules]
  split
  · next found equation => rw [read] at equation; cases equation
  · next found equation =>
    rw [read] at equation
    cases equation
    rw [dif_pos ended]

/-- A token takes reading one step on. -/
theorem readRules_of_token {stage : Stage} {opened text : List Char} {piece : Piece Token}
    (read : stage.readToken text = .ok piece) (token : piece.value ≠ .endOfInput) :
    readRules stage opened text =
      match stage.step piece.value with
      | .error cause => .error ⟨cause, piece.start, stage.openedAt opened piece.start⟩
      | .ok (.proceed next) => readRules next (stage.openedAt opened piece.start) piece.rest
      | .ok (.close rule) =>
        match readRules .between [] piece.rest with
        | .ok rules => .ok (rule :: rules)
        | .error fault => .error fault := by
  rw [readRules]
  split
  · next found equation => rw [read] at equation; cases equation
  · next found equation =>
    rw [read] at equation
    cases equation
    rw [dif_neg token]

end TreeStyle
