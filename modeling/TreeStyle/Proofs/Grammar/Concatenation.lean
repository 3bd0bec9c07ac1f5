import TreeStyle.Proofs.Grammar.Descent
import TreeStyle.Proofs.Source.Places

/-!
# One source after another

A source that is read to its end leaves nothing behind: after it and a line feed, a
second source is read as if it stood alone.  A comment at the end of the first source
is closed by the line feed, and the rules of the first source come before those of the
second one.

If the second source has an error, so has the whole, with the same cause.  Only what is
counted from the start of the source changes: the offset, the line, and the line of the
open rule, which a message may quote.  But a surrogate in a comment of the first source
keeps the whole from being encoded up to the error, so the error is not reported then.

Main statements: `readRules_append_line` and `Stylesheet.ofSource_append_line`.
-/

namespace TreeStyle

set_option autoImplicit false

/-! ## Rules after rules -/

/-- Reading depends on the next token and on the place where the open rule starts, which
makes no difference between two rules. -/
theorem readRules_congr {stage : Stage} {first second : List Char}
    (same : stage.readToken first = stage.readToken second) {opened other : List Char}
    (agree : ∀ start, stage.openedAt opened start = stage.openedAt other start) :
    readRules stage opened first = readRules stage other second := by
  cases read : stage.readToken second with
  | error stray =>
    rw [readRules_of_stray read, readRules_of_stray (same.trans read), agree]
  | ok piece =>
    by_cases ended : piece.value = .endOfInput
    · rw [readRules_of_end read ended, readRules_of_end (same.trans read) ended]
      cases stage with
      | between => rfl
      | _ =>
        have rule : opened = other := agree []
        rw [rule]
    · rw [readRules_of_token read ended, readRules_of_token (same.trans read) ended, agree]

/-- Between two rules, reading depends on the next token alone. -/
theorem readRules_between_congr {first second : List Char}
    (same : Scan.nextToken first = Scan.nextToken second) (opened other : List Char) :
    readRules .between opened first = readRules .between other second :=
  @readRules_congr .between _ _ same _ _ fun _ => rfl

/-- **Tokens that are accepted leave nothing behind.**  After them and a line feed, a
text is read as if it stood alone. -/
theorem readRules_append_line {stage : Stage} {tokens : List Token} {rules : List Rule}
    (accepted : stage.Accepts tokens rules) {opened text : List Char}
    (spelled : Spells tokens text) (more : List Char) :
    readRules stage opened (text ++ '\n' :: more) =
      (readRules .between [] more).map (rules ++ ·) := by
  have ends : WordEnds ('\n' :: more) := .cons (by decide) more
  induction accepted generalizing opened text with
  | done =>
    cases spelled with
    | ending ending =>
      have skipped := ending.gap_line.skipTrivia_append more
      rw [List.append_assoc, List.singleton_append] at skipped
      have same : Scan.nextToken (text ++ '\n' :: more) = Scan.nextToken more := by
        unfold Scan.nextToken
        rw [skipped]
      rw [readRules_between_congr same opened []]
      cases readRules .between [] more <;> rfl
  | proceed taken _ ih =>
    cases spelled with
    | token first later =>
      have read := Stage.readToken_of_lexeme (first.append ends) taken.isColor
      rw [readRules_of_token read taken.ne_endOfInput, taken.step_eq]
      exact ih later
  | close taken _ ih =>
    cases spelled with
    | token first later =>
      have read := Stage.readToken_of_lexeme (first.append ends) taken.isColor
      rw [readRules_of_token read taken.ne_endOfInput, taken.step_eq]
      simp only [ih later]
      cases readRules .between [] more <;> rfl

/-! ## Errors after rules -/

namespace ParseError

/-- The error with so many bytes and lines more in front of it. -/
def movedBy (error : ParseError) (bytes lines : Nat) : ParseError where
  cause := error.cause
  position := error.position.movedBy bytes lines
  ruleLine := error.ruleLine + lines

/-- A remainder of the second text is a place in the whole, moved by the first one. -/
theorem place_append_line {first second remainder : List Char}
    (inside : remainder <:+ second) :
    place (first ++ '\n' :: second) remainder =
      (place second remainder).movedBy (Text.utf8Length first + 1) (first.count '\n' + 1) := by
  obtain ⟨passed, rfl⟩ := inside
  have front : (first ++ '\n' :: (passed ++ remainder)).take
      ((first ++ '\n' :: (passed ++ remainder)).length - remainder.length) =
        first ++ '\n' :: passed := by
    rw [← List.cons_append, ← List.append_assoc, List.length_append, Nat.add_sub_cancel,
      List.take_left]
  have back : (passed ++ remainder).take ((passed ++ remainder).length - remainder.length) =
      passed := by
    rw [List.length_append, Nat.add_sub_cancel, List.take_left]
  rw [place, place, front, back, Text.Position.after_line]

theorem ofFault_append_line {first second : List Char} {fault : Fault}
    (start : fault.start <:+ second) (opened : fault.opened <:+ second) :
    ofFault (first ++ '\n' :: second) fault =
      (ofFault second fault).movedBy (Text.utf8Length first + 1) (first.count '\n' + 1) := by
  simp only [ofFault, movedBy, place_append_line start, place_append_line opened]
  rfl

/-- The wording of an error tells its cause alone, unless it quotes the line of the open
rule. -/
theorem message_congr {error other : ParseError} (same : other.cause = error.cause)
    (complete : error.kind ≠ .unterminatedRule) : other.message = error.message := by
  obtain ⟨cause, position, ruleLine⟩ := error
  obtain ⟨_, _, _⟩ := other
  cases same
  cases cause with
  | unterminated => exact absurd rfl complete
  | _ => rfl

theorem message_of_unterminated {error : ParseError} (open_rule : error.kind = .unterminatedRule) :
    error.message = s!"end of input inside rule starting on line {error.ruleLine}" := by
  obtain ⟨cause, position, ruleLine⟩ := error
  cases cause with
  | unterminated => rfl
  | _ => cases open_rule

end ParseError

/-! ## Sources after sources -/

/-- After a text that is read and a line feed, a second text is read to its own rules or
fault. -/
theorem readRules_between_append_line {first : List Char} {rules : List Rule}
    (read : readRules .between [] first = .ok rules) (second : List Char) :
    readRules .between [] (first ++ '\n' :: second) =
      (readRules .between [] second).map (rules ++ ·) := by
  obtain ⟨tokens, spelled, accepted⟩ := readRules_eq_ok_iff.mp read
  exact readRules_append_line accepted spelled second

/-- A failure of the second source is behind all of the first one. -/
theorem SourceFailure.behind_append_line (first front : List Text.CodePoint)
    (error : ParseError) :
    behind (first ++ .character '\n' :: front) error =
      match Text.unencodable? first, Text.unencodable? front with
      | some failure, _ => .unencodable failure
      | none, some failure => .unencodable (failure.movedBy (first.length + 1))
      | none, none => .error error := by
  cases found : Text.unencodable? first with
  | some failure =>
    rw [behind, Text.unencodable?_append_left found (by rintro _ ⟨⟩; rfl)]
  | none =>
    have characters : ∀ point ∈ first ++ [.character '\n'], point.isSurrogate = false := by
      intro point member
      rcases List.mem_append.mp member with inside | feed
      · exact Text.unencodable?_eq_none_iff.mp found point inside
      · rw [List.mem_singleton.mp feed]
        rfl
    rw [← List.singleton_append, ← List.append_assoc, behind,
      Text.unencodable?_append_right characters, List.length_append, List.length_singleton]
    cases Text.unencodable? front <;> rfl

namespace ParseError

/-- An error of a source that comes after another one and a line feed, as it is reported of
the whole. -/
structure MovedOver (first : List Char) (error moved : ParseError) : Prop where
  kind : moved.kind = error.kind
  column : moved.position.column = error.position.column
  line : moved.position.line = error.position.line + (first.count '\n' + 1)
  offset : moved.position.offset = error.position.offset + (Text.utf8Length first + 1)
  message : error.kind ≠ .unterminatedRule → moved.message = error.message
  ruleLine : error.kind = .unterminatedRule →
    error.message = s!"end of input inside rule starting on line {error.ruleLine}" ∧
    moved.message = s!"end of input inside rule starting on line {moved.ruleLine}" ∧
    moved.ruleLine = error.ruleLine + (first.count '\n' + 1)

theorem movedOver_movedBy (first : List Char) (error : ParseError) :
    error.MovedOver first (error.movedBy (Text.utf8Length first + 1) (first.count '\n' + 1)) where
  kind := rfl
  column := rfl
  line := rfl
  offset := rfl
  message := message_congr rfl
  ruleLine := fun inside => ⟨message_of_unterminated inside, message_of_unterminated inside, rfl⟩

end ParseError

namespace Stylesheet

/-- The failures of a source and of the whole in which it comes after another one and a line
feed.  If the first source can be encoded, an error is moved over it, and so is the row of
surrogates that keeps an error from being reported.  If it cannot, its own first row is
reported instead. -/
inductive FailsBehind (first : List Text.CodePoint) : SourceFailure → SourceFailure → Prop where
  | error {error moved : ParseError}
    (characters : ∀ point ∈ first, point.isSurrogate = false)
    (shifted : error.MovedOver (first.map Text.CodePoint.standIn) moved) :
    FailsBehind first (.error error) (.error moved)
  | unencodable {failure : Text.Unencodable}
    (characters : ∀ point ∈ first, point.isSurrogate = false) :
    FailsBehind first (.unencodable failure) (.unencodable (failure.movedBy (first.length + 1)))
  | first {before row after : List Text.CodePoint} {number : Fin 0x800}
    (split : first = before ++ .surrogate number :: (row ++ after))
    (characters : ∀ point ∈ before, point.isSurrogate = false)
    (surrogates : ∀ point ∈ row, point.isSurrogate = true)
    (stops : ∀ point ∈ after.head?, point.isSurrogate = false) (failure : SourceFailure) :
    FailsBehind first failure (.unencodable ⟨number, before.length, row.length + 1⟩)

/-- Failures behind a line feed are moved over what is in front of it. -/
theorem failsBehind_behind (first front : List Text.CodePoint) {error moved : ParseError}
    (shifted : error.MovedOver (first.map Text.CodePoint.standIn) moved) :
    FailsBehind first (.behind front error)
      (.behind (first ++ .character '\n' :: front) moved) := by
  rw [SourceFailure.behind_append_line]
  cases found : Text.unencodable? first with
  | some failure =>
    obtain ⟨before, row, after, split, characters, surrogates, stops, start, count⟩ :=
      Text.unencodable?_eq_some_iff.mp found
    obtain ⟨number, _, _⟩ := failure
    obtain rfl := start
    obtain rfl := count
    exact .first split characters surrogates stops _
  | none =>
    have characters := Text.unencodable?_eq_none_iff.mp found
    rw [SourceFailure.behind]
    cases Text.unencodable? front with
    | some failure => exact .unencodable characters
    | none => exact .error characters shifted

/-- **A source after a source.**  If the first one is read, then after it and a line feed
the second one is read to the same rules, which come after those of the first one.  An
error of the second one stays the same but for what is counted from the start: its
offset, its line, and the line of the open rule where the wording quotes it.  It is not
reported if a surrogate stands in the first source. -/
theorem ofSource_append_line {first : List Text.CodePoint} {sheet : Stylesheet}
    (read : ofSource first = .ok sheet) (second : List Text.CodePoint) :
    (∃ other, ofSource second = .ok other ∧
      ofSource (first ++ .character '\n' :: second) = .ok ⟨sheet.rules ++ other.rules⟩) ∨
    ∃ failure moved, ofSource second = .error (.error failure) ∧
      ofSource (first ++ .character '\n' :: second) = .error (.error moved) ∧
      FailsBehind first failure moved := by
  have rules : readRules .between [] (first.map Text.CodePoint.standIn) = .ok sheet.rules := by
    rw [ofSource_eq] at read
    cases found : readRules .between [] (first.map Text.CodePoint.standIn) with
    | error fault => simp [found] at read
    | ok rules =>
      simp only [found, Except.ok.injEq] at read
      rw [← read]
  have joined := readRules_between_append_line rules (second.map Text.CodePoint.standIn)
  have whole : (first ++ .character '\n' :: second).map Text.CodePoint.standIn =
      first.map Text.CodePoint.standIn ++ '\n' :: second.map Text.CodePoint.standIn :=
    List.map_append
  rw [← whole] at joined
  rw [ofSource_eq, ofSource_eq, joined]
  cases later : readRules .between [] (second.map Text.CodePoint.standIn) with
  | ok others => exact .inl ⟨_, rfl, rfl⟩
  | error fault =>
    refine .inr ⟨_, _, rfl, rfl, ?_⟩
    obtain ⟨start, opened⟩ := readRules_between_suffix later
    obtain ⟨front, back, rfl, ends⟩ := SourceFailure.exists_front later
    have size : fault.start.length = back.length := by rw [ends, List.length_map]
    rw [SourceFailure.ofFault_append front size, ← List.cons_append, ← List.append_assoc,
      SourceFailure.ofFault_append _ size, List.append_assoc, List.cons_append, whole]
    generalize fault.cause.atPoint back.head? = cause
    have moved := @ParseError.ofFault_append_line (first.map Text.CodePoint.standIn) _
      { fault with cause } start opened
    rw [moved]
    exact failsBehind_behind first front (ParseError.movedOver_movedBy _ _)

/-- A source that ends in a comment, and after it one that ends inside its rule. -/
theorem error_after_comment :
    ∃ sheet error moved, ofSource (Text.codePoints "a>b:fg:1; # done") = .ok sheet ∧
      ofSource (Text.codePoints "\nb:fg") = .error (.error (.error error)) ∧
      ofSource (Text.codePoints ("a>b:fg:1; # done" ++ "\n" ++ "\nb:fg")) =
        .error (.error (.error moved)) ∧
      (error.position = ⟨5, 2, 5⟩ ∧
        error.message = "end of input inside rule starting on line 2") ∧
      moved.position = ⟨22, 3, 5⟩ ∧
        moved.message = "end of input inside rule starting on line 3" := by
  have complete : (ofString "a>b:fg:1; # done").isOk = true := by
    with_unfolding_all rfl
  obtain ⟨sheet, read⟩ : ∃ sheet, ofSource (Text.codePoints "a>b:fg:1; # done") = .ok sheet := by
    rw [ofSource_codePoints]
    cases found : ofString "a>b:fg:1; # done" with
    | ok sheet => exact ⟨sheet, rfl⟩
    | error error =>
      rw [found] at complete
      cases complete
  have refused : ofSource (Text.codePoints "\nb:fg") =
      .error (.error (.error ⟨.unterminated, ⟨5, 2, 5⟩, 2⟩)) := by
    rw [ofSource_codePoints]
    with_unfolding_all rfl
  rcases ofSource_append_line read (Text.codePoints "\nb:fg") with
    ⟨other, stated, _⟩ | ⟨failure, moved, failed, whole, behind⟩
  · rw [refused] at stated
    cases stated
  rw [refused] at failed
  cases failed
  have joined : Text.codePoints "a>b:fg:1; # done" ++ .character '\n' :: Text.codePoints "\nb:fg" =
      Text.codePoints ("a>b:fg:1; # done" ++ "\n" ++ "\nb:fg") := by decide
  rw [joined] at whole
  cases behind with
  | @error _ moved characters shifted =>
    obtain ⟨_, message, ruleLine⟩ := shifted.ruleLine rfl
    refine ⟨sheet, _, moved, read, refused, whole, ⟨rfl, by decide⟩, ?_, ?_⟩
    · change (⟨_, _, _⟩ : Text.Position) = _
      rw [shifted.offset, shifted.line, shifted.column]
      decide
    · rw [message, ruleLine]
      decide
  | first split =>
    have surrogate := Text.isSurrogate_of_mem_codePoints _
      (split ▸ List.mem_append_right _ List.mem_cons_self)
    cases surrogate

/-- A surrogate in a comment of the first source, and an error in the second one: the whole
has no error that is reported. -/
theorem ofSource_surrogate_before_error :
    let first := [Text.CodePoint.character '#', .surrogate 0]
    ofSource first = .ok ⟨[]⟩ ∧
      ofSource (Text.codePoints ";") =
        .error (.error (.error ⟨.unexpected .nodeKind (.mark .semicolon), ⟨0, 1, 1⟩, 1⟩)) ∧
      ofSource (first ++ .character '\n' :: Text.codePoints ";") =
        .error (.error (.unencodable ⟨0, 1, 1⟩)) := by
  refine ⟨?_, ?_, ?_⟩ <;> rw [ofSource_eq] <;> with_unfolding_all rfl

end Stylesheet

end TreeStyle
