import TreeStyle.Proofs.Grammar.Completion
import TreeStyle.Proofs.Grammar.FirstError

/-!
# Sources that break off inside a rule

A source that ends inside a rule is incomplete rather than wrong.  It consists of complete
rules and the first tokens of one more (`BreaksOff`); its error stands at the end of the
source, which no other error does, and names the line on which the open rule starts.

Such a source can be continued to a stylesheet, by a line feed and a completion of the
open rule, unless its last tokens are a dead end.

Main statement: `Stylesheet.unterminated_iff_at_end`.
-/

namespace TreeStyle

set_option autoImplicit false

open Grammar

/-! ## Open rules -/

/-- A text that starts with the spellings of the given tokens, and what they leave. -/
inductive SpellsUpTo : List Token → List Char → List Char → Prop where
  | nil (text : List Char) : SpellsUpTo [] text text
  | token {text start rest remainder : List Char} {token : Token} {tokens : List Token}
      (first : Spelled text ⟨token, start, rest⟩) (more : SpellsUpTo tokens rest remainder) :
      SpellsUpTo (token :: tokens) text remainder

/-- The tokens of an open rule: those that some tokens complete, and the dead ends. -/
def Grammar.IsBegun (tokens : List Token) : Prop :=
  IsDeadEnd tokens ∨ ∃ more rule, more ≠ [] ∧ IsRule (tokens ++ more) rule

/-- A source that consists of complete rules and the tokens of an open one; `opened` is
the text from the first token of the open rule on. -/
inductive BreaksOff : List Char → List Char → List Token → Prop where
  | intro {source text opened rest : List Char} {complete : List Token} {rules : List Rule}
      {first : Token} {others : List Token} (sheet : IsSheet complete rules)
      (front : SpellsUpTo complete source text) (opening : Spelled text ⟨first, opened, rest⟩)
      (back : Spells others rest) (begun : IsBegun (first :: others)) :
      BreaksOff source opened (first :: others)

theorem BreaksOff.opened_ne_nil {source opened : List Char} {begun : List Token}
    (breaksOff : BreaksOff source opened begun) : opened ≠ [] := by
  obtain ⟨_, _, opening, _, _⟩ := breaksOff
  exact opening.start_ne_nil

/-! ## Runs into a rule -/

/-- A text of which all is skipped makes no difference in front of another. -/
theorem readRules_skips {stage : Stage} {gap : List Char} (skips : stage.Skips gap)
    (opened text : List Char) :
    readRules stage opened (gap ++ text) = readRules stage opened text :=
  readRules_congr (Stage.readToken_skips skips text) fun _ => rfl

/-- Only a mark leads to where nothing is left to take. -/
theorem Stage.Takes.exists_mark {stage next : Stage} {token : Token}
    (taken : Takes stage token (.proceed next)) (exhausted : next.IsExhausted) :
    ∃ mark, token = .mark mark := by
  cases taken with
  | leftBrace | keyColon | pipe | propertyComma => exact ⟨_, rfl⟩
  | _ => exact exhausted.elim

namespace Reader

theorem Run.spellsUpTo {reader last : Reader} {tokens : List Token} {rules : List Rule}
    (run : Run reader tokens rules last) : SpellsUpTo tokens reader.text last.text := by
  induction run with
  | stay reader => exact .nil _
  | proceed spelled _ _ ih => exact .token spelled ih
  | close spelled _ _ ih => exact .token spelled ih

theorem Run.spells {reader last : Reader} {tokens : List Token} {rules : List Rule}
    (run : Run reader tokens rules last) (ending : Ending last.text) :
    Spells tokens reader.text := by
  induction run with
  | stay => exact .ending ending
  | proceed spelled _ _ ih => exact .token spelled (ih ending)
  | close spelled _ _ ih => exact .token spelled (ih ending)

/-- A run into a rule goes over a dead end exactly if nothing is left to take behind it. -/
theorem Run.isDeadEnd_iff {opened text : List Char} {last : Reader} {tokens : List Token}
    (run : Run ⟨.between, opened, text⟩ tokens [] last) (inside : last.stage ≠ .between) :
    IsDeadEnd tokens ↔ last.stage.IsExhausted := by
  rcases run.exists_concat inside with ⟨_, _, rfl⟩ | ⟨before, token, middle, rfl, front, led⟩
  · exact absurd rfl inside
  · exact isDeadEnd_concat_iff (fun more rule => front.accepts_iff more [rule]) led

/-- A run into a rule goes over the tokens of an open rule. -/
theorem Run.isBegun {opened text : List Char} {last : Reader} {tokens : List Token}
    (run : Run ⟨.between, opened, text⟩ tokens [] last) (inside : last.stage ≠ .between) :
    IsBegun tokens := by
  by_cases exhausted : last.stage.IsExhausted
  · exact .inl ((run.isDeadEnd_iff inside).mpr exhausted)
  · obtain ⟨more, _, rule, accepted, _⟩ := Stage.completes_of_not_isExhausted inside exhausted
    have whole := isRule_iff_accepts.mpr ((run.accepts_iff more [rule]).mpr accepted)
    refine .inr ⟨more, rule, ?_, whole⟩
    rintro rfl
    generalize last.stage = stage at accepted
    cases accepted

/-- **A run that leads into a rule at the end of the source** shows that the source breaks
off there. -/
theorem Run.exists_breaksOff {source : List Char} {last : Reader} {tokens : List Token}
    {rules : List Rule} (run : Run (start source) tokens rules last)
    (inside : last.stage ≠ .between) (ending : Ending last.text) :
    ∃ begun, BreaksOff source last.opened begun ∧
      (IsDeadEnd begun ↔ last.stage.IsExhausted) := by
  -- The last rule that the run closes ends the complete rules.
  obtain ⟨complete, begun, opened, text, front, back⟩ : ∃ complete begun opened text,
      Run (start source) complete rules ⟨.between, opened, text⟩ ∧
        Run ⟨.between, opened, text⟩ begun [] last := by
    rcases run.exists_split with rfl | ⟨complete, begun, opened, text, _, front, back⟩
    · exact ⟨[], tokens, [], source, .stay _, run⟩
    · exact ⟨complete, begun, opened, text, front, back⟩
  have sheet : IsSheet complete rules := by
    have accepted := (front.accepts_iff [] []).mpr .done
    rw [List.append_nil, List.append_nil] at accepted
    exact accepted.isSheet
  refine ⟨begun, ?_, back.isDeadEnd_iff inside⟩
  have isBegun := back.isBegun inside
  cases back with
  | stay => exact absurd rfl inside
  | proceed spelled taken later =>
    rw [later.opened_eq taken.ne_between]
    exact .intro sheet front.spellsUpTo spelled (later.spells ending) isBegun

/-- **A source that ends inside a rule can be continued exactly if something is left to
take** at the stage it leads to. -/
theorem Run.exists_continuation_iff {source : List Char} {last : Reader} {tokens : List Token}
    {rules : List Rule} (run : Run (start source) tokens rules last)
    (inside : last.stage ≠ .between) (skips : last.stage.Skips (last.text ++ ['\n'])) :
    (∃ more sheet, (start (source ++ more)).rules = .ok sheet) ↔ ¬ last.stage.IsExhausted := by
  constructor
  · rintro ⟨more, sheet, read⟩ exhausted
    have stays : ∀ final ∈ tokens.getLast?, final.IsLongest (last.text ++ more) := by
      rcases run.exists_concat inside with ⟨_, _, rfl⟩ | ⟨before, token, middle, rfl, _, led⟩
      · exact absurd rfl inside
      · obtain ⟨mark, rfl⟩ := led.exists_mark exhausted
        rw [List.getLast?_concat]
        rintro _ ⟨⟩
        trivial
    rw [(run.followedBy stays).rules_start_append] at read
    cases later : (last.followedBy more).rules with
    | error fault =>
      rw [later] at read
      cases read
    | ok others =>
      obtain ⟨tokens, _, accepted⟩ := readRules_eq_ok_iff.mp later
      exact exhausted.not_accepts tokens others accepted
  · intro open_end
    obtain ⟨more, text, rule, accepted, written⟩ :=
      Stage.completes_of_not_isExhausted inside open_end
    have ends : WordEnds ('\n' :: text) := .cons (by decide) text
    have read : (last.followedBy ('\n' :: text)).rules = .ok [rule] := by
      have split : last.text ++ '\n' :: text = (last.text ++ ['\n']) ++ text := by simp
      unfold Reader.rules Reader.followedBy
      rw [split]
      exact (readRules_skips skips _ _).trans (readRules_of_accepts accepted written.spells)
    refine ⟨'\n' :: text, rules ++ [rule], ?_⟩
    rw [(run.followedBy_of_wordEnds ends).rules_start_append, read]
    rfl

/-- A reader that stops for an open rule stands inside of it, at the end of the input. -/
theorem Stops.ended_of_unterminated {reader : Reader} {fault : Fault}
    (stops : reader.Stops fault) (cause : fault.cause = .unterminated) :
    reader.stage ≠ .between ∧ reader.stage.readToken reader.text = .ok ⟨.endOfInput, [], []⟩ ∧
      fault = ⟨.unterminated, [], reader.opened⟩ := by
  cases stops with
  | stray => cases cause
  | ended inside read => exact ⟨inside, read, rfl⟩
  | refused _ _ refused => exact absurd cause (Stage.step_ne_unterminated refused)

end Reader

/-! ## The error at the end of a source -/

theorem Text.utf8Length_pos {text : List Char} (nonempty : text ≠ []) : 0 < utf8Length text := by
  cases text with
  | nil => exact absurd rfl nonempty
  | cons character rest =>
    have size := character.utf8Size_pos
    rw [utf8Length]
    omega

namespace Stylesheet

/-- The error for an open rule, and no other, stands at the end of the source. -/
theorem unterminated_iff_offset {source : List Char} {fault : Fault}
    (failed : (Reader.start source).rules = .error fault) :
    fault.cause = .unterminated ↔
      (ParseError.ofFault source fault).position.offset = Text.utf8Length source := by
  constructor
  · intro cause
    obtain ⟨tokens, rules, last, run, stops⟩ := Reader.exists_run_of_error failed
    obtain ⟨_, _, rfl⟩ := stops.ended_of_unterminated cause
    have place := ParseError.place_append_right source []
    rw [List.append_nil] at place
    rw [ParseError.ofFault, place, Text.Position.offset_after]
  · intro atEnd
    refine Decidable.byContradiction fun cause => ?_
    obtain ⟨front, whole, nonempty, _⟩ := Reader.exists_front_of_error failed cause
    have positive := Text.utf8Length_pos nonempty
    rw [whole, ParseError.ofFault, ParseError.place_append_right, Text.Position.offset_after,
      Text.utf8Length_append] at atEnd
    omega

/-- **A source with an error for an open rule is one that breaks off.**  No other error
stands at the end of its source.  The wording names the line of the first token of the
open rule, and the source can be continued to a stylesheet exactly if the tokens of the
open rule are no dead end. -/
theorem unterminated_iff_at_end {source : String} {error : ParseError}
    (refused : ofString source = .error error) :
    (error.kind = .unterminatedRule ↔ error.position.offset = source.utf8ByteSize) ∧
    (error.kind = .unterminatedRule →
      ∃ front opened begun, source.toList = front ++ opened ∧
        BreaksOff source.toList opened begun ∧
        error.message =
          s!"end of input inside rule starting on line {(Text.Position.after front).line}" ∧
        ((∃ more sheet, ofString (source ++ more) = .ok sheet) ↔ ¬ IsDeadEnd begun)) := by
  obtain ⟨fault, failed, rfl⟩ := exists_fault_of_ofCharacters refused
  have cause : (ParseError.ofFault source.toList fault).kind = .unterminatedRule ↔
      fault.cause = .unterminated := Cause.kind_eq_unterminatedRule_iff
  refine ⟨?_, fun kind => ?_⟩
  · rw [cause, unterminated_iff_offset failed, Text.utf8Length_toList]
  · obtain ⟨tokens, rules, last, run, stops⟩ := Reader.exists_run_of_error failed
    obtain ⟨inside, read, rfl⟩ := stops.ended_of_unterminated (cause.mp kind)
    obtain ⟨_, ending, skips⟩ := Stage.skips_line_of_endOfInput read rfl
    obtain ⟨begun, breaksOff, deadEnd⟩ := run.exists_breaksOff inside ending
    obtain ⟨front, whole⟩ : last.opened <:+ source.toList := (readRules_between_suffix failed).2
    refine ⟨front, last.opened, begun, whole.symm, breaksOff, ?_, ?_⟩
    · rw [ParseError.message_of_unterminated kind, ParseError.ofFault, ← whole,
        ParseError.place_append_right]
    · rw [deadEnd, ← run.exists_continuation_iff inside skips]
      constructor
      · rintro ⟨more, sheet, read⟩
        rw [ofString, String.toList_append] at read
        cases found : (Reader.start (source.toList ++ more.toList)).rules with
        | ok rules => exact ⟨more.toList, rules, found⟩
        | error fault =>
          rw [ofCharacters_of_error found] at read
          cases read
      · rintro ⟨more, rules, read⟩
        refine ⟨.ofList more, ⟨rules⟩, ?_⟩
        rw [ofString, String.toList_append, String.toList_ofList]
        exact ofCharacters_of_ok read

/-- A source that ends behind a key, on the second line: the rule is open there, and a
value completes it. -/
theorem open_behind_key :
    ∃ error, ofString "\na:fg" = .error error ∧ error.kind = .unterminatedRule ∧
      error.position.offset = "\na:fg".utf8ByteSize ∧
      error.message = "end of input inside rule starting on line 2" ∧
      ∃ opened begun, BreaksOff "\na:fg".toList opened begun ∧ ¬ IsDeadEnd begun := by
  have refused : ofString "\na:fg" = .error ⟨.unterminated, ⟨5, 2, 5⟩, 2⟩ := by
    with_unfolding_all rfl
  have completed : (ofString ("\na:fg" ++ ":1;")).isOk = true := by
    with_unfolding_all rfl
  obtain ⟨atEnd, incomplete⟩ := unterminated_iff_at_end refused
  obtain ⟨front, opened, begun, _, breaksOff, _, continues⟩ := incomplete rfl
  refine ⟨_, refused, rfl, atEnd.mp rfl, by decide, opened, begun, breaksOff, ?_⟩
  refine continues.mp ⟨":1;", ?_⟩
  cases found : ofString ("\na:fg" ++ ":1;") with
  | ok sheet => exact ⟨sheet, rfl⟩
  | error error =>
    rw [found] at completed
    cases completed

end Stylesheet

end TreeStyle
