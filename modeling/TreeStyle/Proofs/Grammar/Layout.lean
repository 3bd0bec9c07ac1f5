import TreeStyle.Proofs.Grammar.Descent
import TreeStyle.Proofs.Grammar.Incomplete

/-!
# Layout makes no difference

Blanks and whole comments may be put in at the start of a source and behind any token that is
read, blanks alone where a colour is due (`Reader.Admits`).  The source states the same
stylesheet with them, or it has the same error at the same token (`ParseError.Shifted`): a
place in front of the layout stays, and a place behind it moves by what was put in.

The tokens up to the layout are as long as they can be before it, so they are read as they
were.  What is put in is skipped, and reading goes on as it did, apart from where the open
rule starts, which is only passed on.  Behind a token that its stage refuses, nothing is read.

A surrogate in a comment that is put in makes a difference after all: the text before a later
error cannot be encoded then, and the error is not reported.

Main statements: `readRules_insert_layout` and `Stylesheet.ofSource_insert_layout`.
-/

namespace TreeStyle

set_option autoImplicit false

/-! ## Words and layout -/

/-- No word goes on with a gap. -/
theorem Gap.wordEnds {gap : List Char} (blank : Gap gap) : WordEnds gap := by
  cases blank with
  | nil => exact fun _ none => by cases none
  | @space character rest blank =>
    refine .cons ?_ rest
    rw [← Bool.not_eq_true]
    intro word
    rw [Scan.isSpace_of_isWordCharacter word] at blank
    cases blank
  | comment => exact .cons (by decide) _

/-- A token stays as long as it can be in front of a gap. -/
theorem Token.IsLongest.gap_append {token : Token} {rest : List Char}
    (longest : token.IsLongest rest) {gap : List Char} (blank : Gap gap) :
    token.IsLongest (gap ++ rest) := by
  cases token with
  | mark symbol => trivial
  | _ => exact blank.wordEnds.append longest

/-- Whatever a stage skips is a gap. -/
theorem Stage.Skips.gap {stage : Stage} {gap : List Char} (skips : stage.Skips gap) :
    Gap gap := by
  unfold Skips at skips
  split at skips
  · exact .of_spaces skips
  · exact skips

/-! ## Places for layout -/

namespace Reader

/-- The layout that may be put in front of a remainder of a source: what the stage skips where
a run ends, and a gap behind a token that its stage refuses. -/
inductive Admits (source : List Char) : List Char → List Char → Prop where
  | ahead {tokens : List Token} {rules : List Rule} {last : Reader} {layout : List Char}
      (run : Run (start source) tokens rules last) (skips : last.stage.Skips layout) :
      Admits source last.text layout
  | behind {tokens : List Token} {rules : List Rule} {last : Reader} {piece : Piece Token}
      {cause : Cause} {layout : List Char} (run : Run (start source) tokens rules last)
      (read : last.stage.readToken last.text = .ok piece) (token : piece.value ≠ .endOfInput)
      (refused : last.stage.step piece.value = .error cause) (blank : Gap layout) :
      Admits source piece.rest layout

/-- **A token that is refused is refused wherever it is as long as it can be.** -/
theorem Run.exists_refused {source : List Char} {tokens : List Token} {rules : List Rule}
    {last : Reader} (run : Run (start source) tokens rules last) {piece : Piece Token}
    (read : last.stage.readToken last.text = .ok piece) (token : piece.value ≠ .endOfInput)
    {cause : Cause} (refused : last.stage.step piece.value = .error cause) :
    ∃ (front : List Char) (fault : Fault), source = front ++ piece.rest ∧ fault.cause = cause ∧
      piece.value.IsLongest piece.rest ∧ fault.start ≠ [] ∧
      ∀ more, piece.value.IsLongest more →
        (start (front ++ more)).rules = .error (fault.followedBy more) := by
  generalize split : last.text = text at read
  obtain @⟨_, gap, lexeme, rest, _, spelling, longest, again⟩ :=
    Stage.finds_of_readToken read token
  rw [← List.append_assoc] at split
  obtain ⟨front, opened, whole, _, reads⟩ := run.exists_front split
  refine ⟨front, ⟨cause, lexeme, last.stage.openedAt opened lexeme⟩, whole, rfl, longest,
    spelling.ne_nil, fun more stays => ?_⟩
  have longer : ∀ final ∈ tokens.getLast?, final.IsLongest ((gap ++ lexeme) ++ more) := by
    intro final member
    have before := run.isLongest_getLast final member
    rw [split] at before
    exact before.of_append.append_of_ne_nil
      (List.append_ne_nil_of_right_ne_nil _ spelling.ne_nil) more
  have found := again more stays
  rw [← List.append_assoc] at found
  have stops := @Stops.refused ⟨last.stage, opened ++ more, (gap ++ lexeme) ++ more⟩ _ _ found
    token refused
  have stopped : readRules last.stage (opened ++ more) ((gap ++ lexeme) ++ more) = _ :=
    stops.rules_eq
  rw [reads more longer, stopped, Stage.openedAt_append]
  rfl

/-- A run into a rule up to the end of the source leaves the text of that rule, which starts
within the source. -/
theorem Run.opened_suffix {source opened : List Char} {tokens : List Token} {rules : List Rule}
    {stage : Stage} (run : Run (start source) tokens rules ⟨stage, opened, []⟩)
    (inside : stage ≠ .between) : opened <:+ source ∧ opened ≠ [] := by
  constructor
  · have stops : Stops ⟨stage, opened, []⟩ ⟨.unterminated, [], opened⟩ :=
      .ended inside (Stage.readToken_of_skips stage.skips_nil)
    have failed := run.rules_eq
    rw [stops.rules_eq] at failed
    exact (readRules_between_suffix failed).2
  · obtain ⟨_, breaksOff, _⟩ := run.exists_breaksOff inside (.gap .nil)
    exact breaksOff.opened_ne_nil

end Reader

/-! ## What moves -/

/-- Where a place in a text is when a layout is put in between the front and the back of the
text.  A place in the front stays, and a place behind it has the layout in front of it. -/
inductive Text.Position.Shifted (front layout back : List Char) :
    Text.Position → Text.Position → Prop where
  | before {index : Nat} (inside : index < front.length) :
      Shifted front layout back (.after (front.take index)) (.after (front.take index))
  | behind {index : Nat} (inside : index ≤ back.length) :
      Shifted front layout back (.after (front ++ back.take index))
        (.after (front ++ (layout ++ back.take index)))

/-- What a remainder of a text is when a layout is put in between the front and the back. -/
inductive Text.Shifts (front layout back : List Char) : List Char → List Char → Prop where
  | before {remainder : List Char} (inside : remainder <:+ front) (nonempty : remainder ≠ []) :
      Shifts front layout back (remainder ++ back) (remainder ++ (layout ++ back))
  | behind {remainder : List Char} (inside : remainder <:+ back) :
      Shifts front layout back remainder remainder

/-- A fault when a layout is put in: the same cause at the same token, in the same rule if the
rule is quoted. -/
structure Fault.Shifted (front layout back : List Char) (fault other : Fault) : Prop where
  cause : other.cause = fault.cause
  start : Text.Shifts front layout back fault.start other.start
  opened : fault.cause.kind = .unterminatedRule →
    Text.Shifts front layout back fault.opened other.opened

/-- What a text is read to and what it is read to with a layout in it: the same rules, or the
same fault. -/
inductive SameReading (front layout back : List Char) :
    Except Fault (List Rule) → Except Fault (List Rule) → Prop where
  | ok (rules : List Rule) : SameReading front layout back (.ok rules) (.ok rules)
  | error {fault other : Fault} (shifted : fault.Shifted front layout back other) :
    SameReading front layout back (.error fault) (.error other)

/-- What a stage skips may be put in where a run leads to it. -/
theorem sameReading_ahead {front layout back : List Char} {tokens : List Token}
    {rules : List Rule} {stage : Stage} {opened : List Char}
    (run : Reader.Run (.start (front ++ back)) tokens rules ⟨stage, opened, back⟩)
    (skips : stage.Skips layout) :
    SameReading front layout back (Reader.start (front ++ back)).rules
      (Reader.start (front ++ (layout ++ back))).rules := by
  obtain ⟨same, rule, whole, cut, reads⟩ := run.exists_front (List.nil_append back).symm
  rw [List.append_left_inj] at whole
  subst whole
  have here := reads back run.isLongest_getLast
  have there := reads (layout ++ back) fun final member =>
    (run.isLongest_getLast final member).gap_append skips.gap
  simp only [List.nil_append, readRules_skips skips] at here there
  rw [here, there]
  -- Both texts are read on from the same stage, but the open rule has the layout in one of them.
  cases readRules_verdict stage back with
  | @rules others read =>
    rw [read, read]
    exact .ok _
  | @later fault place opening read =>
    rw [read, read]
    exact .error ⟨rfl, .behind place, fun _ => .behind opening⟩
  | @inside cause start within place read =>
    rw [read, read]
    obtain ⟨opening, nonempty⟩ := cut.opened_suffix within
    exact .error ⟨rfl, .behind place, fun _ => .before opening nonempty⟩

/-- A gap may be put in behind a token that its stage refuses. -/
theorem sameReading_behind {front layout : List Char} {tokens : List Token}
    {rules : List Rule} {last : Reader} {piece : Piece Token} {cause : Cause}
    (run : Reader.Run (.start (front ++ piece.rest)) tokens rules last)
    (read : last.stage.readToken last.text = .ok piece) (token : piece.value ≠ .endOfInput)
    (refused : last.stage.step piece.value = .error cause) (blank : Gap layout) :
    SameReading front layout piece.rest (Reader.start (front ++ piece.rest)).rules
      (Reader.start (front ++ (layout ++ piece.rest))).rules := by
  obtain ⟨same, fault, whole, rfl, longest, nonempty, failed⟩ :=
    run.exists_refused read token refused
  rw [List.append_left_inj] at whole
  subst whole
  -- The front alone ends with the refused token.
  have place : fault.start <:+ front := by
    have alone := readRules_suffix (failed [] (@Token.IsLongest.of_append _ [] _ longest))
    rw [List.append_nil, Fault.followedBy, List.append_nil] at alone
    exact alone
  rw [failed _ longest, failed _ (longest.gap_append blank)]
  refine .error ⟨rfl, .before place nonempty, fun inside => ?_⟩
  exact absurd (Cause.kind_eq_unterminatedRule_iff.mp inside) (Stage.step_ne_unterminated refused)

/-- **Layout makes no difference to what is read.** -/
theorem readRules_insert_layout {front layout back : List Char}
    (admits : Reader.Admits (front ++ back) back layout) :
    SameReading front layout back (readRules .between [] (front ++ back))
      (readRules .between [] (front ++ (layout ++ back))) := by
  generalize behind : back = remainder at admits
  cases admits with
  | ahead run skips =>
    subst behind
    exact sameReading_ahead run skips
  | behind run read token refused blank =>
    subst behind
    exact sameReading_behind run read token refused blank

namespace ParseError

/-- An error when a layout is put in between the front and the back of the source: its place
moves, and so does the place of the open rule, whose line the wording may quote. -/
structure Shifted (front layout back : List Char) (error other : ParseError) : Prop where
  kind : other.kind = error.kind
  position : error.position.Shifted front layout back other.position
  message : error.kind ≠ .unterminatedRule → other.message = error.message
  ruleLine : error.kind = .unterminatedRule → ∃ opening later : Text.Position,
    opening.Shifted front layout back later ∧
    error.message = s!"end of input inside rule starting on line {opening.line}" ∧
    other.message = s!"end of input inside rule starting on line {later.line}"

/-- The place of a remainder is shifted as the remainder is. -/
theorem place_shifted {front layout back first second : List Char}
    (shifts : Text.Shifts front layout back first second) :
    (place (front ++ back) first).Shifted front layout back
      (place (front ++ (layout ++ back)) second) := by
  cases shifts with
  | @before remainder inside nonempty =>
    rw [place_append, place_append]
    have positive := List.length_pos_iff.mpr nonempty
    have size := inside.length_le
    exact .before (by omega)
  | behind inside =>
    obtain ⟨passed, rfl⟩ := inside
    have size : passed.length ≤ (passed ++ first).length := by
      rw [List.length_append]
      exact Nat.le_add_right _ _
    have shifted := @Text.Position.Shifted.behind front layout _ _ size
    rw [List.take_left] at shifted
    have here := place_append_right (front ++ passed) first
    have there := place_append_right (front ++ (layout ++ passed)) first
    rw [List.append_assoc] at here
    rw [List.append_assoc, List.append_assoc] at there
    rw [here, there]
    exact shifted

/-- The error of a fault is shifted as the fault is. -/
theorem ofFault_shifted {front layout back : List Char} {fault other : Fault}
    (shifted : fault.Shifted front layout back other) :
    (ofFault (front ++ back) fault).Shifted front layout back
      (ofFault (front ++ (layout ++ back)) other) where
  kind := congrArg Cause.kind shifted.cause
  position := place_shifted shifted.start
  message := message_congr shifted.cause
  ruleLine := fun inside => ⟨_, _, place_shifted (shifted.opened inside),
    message_of_unterminated inside,
    message_of_unterminated ((congrArg Cause.kind shifted.cause).trans inside)⟩

end ParseError

/-! ## Sources with layout -/

namespace Stylesheet

/-- The same outcome with a layout between the front and the back of the source: the same
stylesheet, or the same error at the place where its token is now.  In both sources, the error
is reported unless a surrogate stands before it. -/
inductive SameOutcome (front layout back : List Text.CodePoint) :
    Except (Interruption SourceFailure) Stylesheet →
      Except (Interruption SourceFailure) Stylesheet → Prop where
  | ok (sheet : Stylesheet) : SameOutcome front layout back (.ok sheet) (.ok sheet)
  | before {passed rest : List Text.CodePoint} {error other : ParseError}
    {failure later : SourceFailure} (split : front = passed ++ rest) (nonempty : rest ≠ [])
    (shifted : error.Shifted (front.map Text.CodePoint.standIn)
      (layout.map Text.CodePoint.standIn) (back.map Text.CodePoint.standIn) other)
    (first : failure.IsBehind error passed) (second : later.IsBehind other passed) :
    SameOutcome front layout back (.error (.error failure)) (.error (.error later))
  | behind {passed rest : List Text.CodePoint} {error other : ParseError}
    {failure later : SourceFailure} (split : back = passed ++ rest)
    (shifted : error.Shifted (front.map Text.CodePoint.standIn)
      (layout.map Text.CodePoint.standIn) (back.map Text.CodePoint.standIn) other)
    (first : failure.IsBehind error (front ++ passed))
    (second : later.IsBehind other (front ++ (layout ++ passed))) :
    SameOutcome front layout back (.error (.error failure)) (.error (.error later))

theorem sameOutcome_of_shifted {front layout back : List Text.CodePoint} {fault other : Fault}
    (shifted : fault.Shifted (front.map Text.CodePoint.standIn)
      (layout.map Text.CodePoint.standIn) (back.map Text.CodePoint.standIn) other) :
    SameOutcome front layout back
      (.error (.error (SourceFailure.ofFault (front ++ back) fault)))
      (.error (.error (SourceFailure.ofFault (front ++ (layout ++ back)) other))) := by
  have moved (point : Option Text.CodePoint) :
      (ParseError.ofFault ((front ++ back).map Text.CodePoint.standIn)
          { fault with cause := fault.cause.atPoint point }).Shifted
        (front.map Text.CodePoint.standIn) (layout.map Text.CodePoint.standIn)
        (back.map Text.CodePoint.standIn)
        (ParseError.ofFault ((front ++ (layout ++ back)).map Text.CodePoint.standIn)
          { other with cause := other.cause.atPoint point }) := by
    rw [List.map_append, List.map_append, List.map_append]
    refine ParseError.ofFault_shifted ⟨by rw [shifted.cause], shifted.start, fun inside => ?_⟩
    exact shifted.opened (by rwa [Cause.kind_atPoint] at inside)
  obtain ⟨cause, start, opened⟩ := fault
  obtain ⟨_, later, opening⟩ := other
  obtain ⟨rfl, start, -⟩ := shifted
  dsimp only at start moved
  cases start with
  | @before remainder inside nonempty =>
    obtain ⟨_, whole⟩ := inside
    obtain ⟨passed, rest, rfl, _, rfl⟩ := List.map_eq_append_iff.mp whole.symm
    have filled : rest ≠ [] := fun empty => nonempty (by rw [empty]; rfl)
    have moved := moved rest.head?
    rw [List.append_assoc, List.append_assoc] at moved
    rw [List.append_assoc, List.append_assoc, SourceFailure.ofFault_append passed (by simp),
      SourceFailure.ofFault_append passed (by simp), List.head?_append_of_ne_nil _ filled,
      List.head?_append_of_ne_nil _ filled]
    exact .before rfl filled moved (SourceFailure.isBehind_behind _ _)
      (SourceFailure.isBehind_behind _ _)
  | behind inside =>
    obtain ⟨_, whole⟩ := inside
    obtain ⟨passed, rest, rfl, _, rfl⟩ := List.map_eq_append_iff.mp whole.symm
    have moved := moved rest.head?
    have here : front ++ (passed ++ rest) = (front ++ passed) ++ rest := by simp
    have there : front ++ (layout ++ (passed ++ rest)) = (front ++ (layout ++ passed)) ++ rest := by
      simp
    rw [here, there] at moved ⊢
    rw [SourceFailure.ofFault_append _ (by simp), SourceFailure.ofFault_append _ (by simp)]
    exact .behind rfl moved (SourceFailure.isBehind_behind _ _)
      (SourceFailure.isBehind_behind _ _)

/-- **Layout makes no difference.**  Blanks and comments may be put in at the start of a source
and behind each token that is read, blanks alone where a colour is due.  The source states the
same stylesheet then, or it has the same error at the same token.  What may change is whether
the error is reported: it is not if a surrogate has been put in before it. -/
theorem ofSource_insert_layout {front layout back : List Text.CodePoint}
    (admits : Reader.Admits ((front ++ back).map Text.CodePoint.standIn)
      (back.map Text.CodePoint.standIn) (layout.map Text.CodePoint.standIn)) :
    SameOutcome front layout back (ofSource (front ++ back))
      (ofSource (front ++ (layout ++ back))) := by
  rw [List.map_append] at admits
  have same := readRules_insert_layout admits
  rw [← List.map_append, ← List.map_append, ← List.map_append] at same
  rw [ofSource_eq, ofSource_eq]
  revert same
  generalize readRules .between [] ((front ++ back).map Text.CodePoint.standIn) = here
  generalize readRules .between [] ((front ++ (layout ++ back)).map Text.CodePoint.standIn) = there
  intro same
  cases same with
  | ok rules => exact .ok ⟨rules⟩
  | error shifted => exact sameOutcome_of_shifted shifted

/-- A comment between a node kind and its colon: the unknown group behind it is reported on the
next line, with the same wording. -/
theorem unknown_group_behind_comment :
    let front := Text.codePoints "a"
    let layout := Text.codePoints " #,\n"
    let back := Text.codePoints ":x;"
    Reader.Admits ((front ++ back).map Text.CodePoint.standIn)
      (back.map Text.CodePoint.standIn) (layout.map Text.CodePoint.standIn) ∧
    ∃ error other, ofSource (front ++ back) = .error (.error (.error error)) ∧
      ofSource (front ++ (layout ++ back)) = .error (.error (.error other)) ∧
      error.position = ⟨2, 1, 3⟩ ∧ other.position = ⟨6, 2, 2⟩ ∧ other.message = error.message := by
  intro front layout back
  have read : Stage.between.readToken ((front ++ back).map Text.CodePoint.standIn) =
      .ok ⟨.identifier "a", "a:x;".toList, ":x;".toList⟩ := by
    with_unfolding_all rfl
  have spelled := Stage.exists_lexeme_of_readToken read Token.noConfusion rfl
  have blank : Gap " #,\n".toList := .space (by decide) (@Gap.comment [','] [] (by decide) .nil)
  have admits : Reader.Admits ((front ++ back).map Text.CodePoint.standIn)
      (back.map Text.CodePoint.standIn) (layout.map Text.CodePoint.standIn) :=
    .ahead (.proceed spelled (.opening "a") (.stay _)) blank
  have here : ofSource (front ++ back) =
      .error (.error (.error ⟨.unknownHighlight "x", ⟨2, 1, 3⟩, 1⟩)) := by
    rw [ofSource_eq]
    with_unfolding_all rfl
  have there : ofSource (front ++ (layout ++ back)) =
      .error (.error (.error ⟨.unknownHighlight "x", ⟨6, 2, 2⟩, 1⟩)) := by
    rw [ofSource_eq]
    with_unfolding_all rfl
  have same := ofSource_insert_layout admits
  rw [here, there] at same
  refine ⟨admits, _, _, here, there, rfl, rfl, ?_⟩
  cases same with
  | before _ _ shifted first second =>
    cases first
    cases second
    exact shifted.message (by decide)
  | behind _ shifted first second =>
    cases first
    cases second
    exact shifted.message (by decide)

/-- A comment with a surrogate in it, put in before an error: the error is not reported. -/
theorem ofSource_surrogate_in_layout :
    let layout := Text.CodePoint.character '#' :: .surrogate 0 :: Text.codePoints "\n"
    ofSource (Text.codePoints ";") =
        .error (.error (.error ⟨.unexpected .nodeKind (.mark .semicolon), ⟨0, 1, 1⟩, 1⟩)) ∧
      Reader.Admits ((Text.codePoints ";").map Text.CodePoint.standIn)
        ((Text.codePoints ";").map Text.CodePoint.standIn) (layout.map Text.CodePoint.standIn) ∧
      ofSource (layout ++ Text.codePoints ";") = .error (.error (.unencodable ⟨0, 1, 1⟩)) := by
  refine ⟨?_, .ahead (.stay _) (@Gap.comment ['\ufffd'] [] (by decide) .nil), ?_⟩ <;>
    rw [ofSource_eq] <;> with_unfolding_all rfl

end Stylesheet

end TreeStyle
