import TreeStyle.Proofs.Grammar.Runs

/-!
# The first error is final

Reading stops at the first stray character or refused token.  What stands in front of it
is no error yet: a source that breaks off there is a stylesheet, or it ends inside a rule.
And what stands behind it is never looked at, so no continuation of the source, from the
next line on, gives another error or moves this one.

The end of the input inside a rule is the only error that a continuation may mend.

Main statement: `Stylesheet.error_is_first_and_final`.
-/

namespace TreeStyle

set_option autoImplicit false

/-! ## Refusals -/

/-- A stage that refuses a token does not take it for the end of the input. -/
theorem Stage.step_ne_unterminated {stage : Stage} {token : Token} {cause : Cause}
    (refused : stage.step token = .error cause) : cause ≠ .unterminated := by
  rintro rfl
  cases stage with
  | between | selectorStart | linkedKind =>
    simp only [step, stepKind] at refused
    split at refused <;> cases refused
  | afterKind =>
    simp only [step, stepAfterKind] at refused
    split at refused
    · cases refused
    · cases refused
    · cases refused
    · split at refused <;> cases refused
    · cases refused
  | declaration =>
    simp only [step, stepDeclaration] at refused
    split at refused
    · cases refused
    · split at refused
      · cases refused
      · split at refused <;> cases refused
    · cases refused
  | key =>
    simp only [step, stepKey] at refused
    split at refused
    · split at refused
      · cases refused
      · split at refused <;> cases refused
    · cases refused
  | colorValue =>
    simp only [step, stepColor] at refused
    split at refused
    · split at refused <;> cases refused
    · cases refused
  | attributeName =>
    simp only [step, stepAttribute] at refused
    split at refused
    · split at refused <;> cases refused
    · cases refused
  | afterValue =>
    simp only [step, stepAfterValue] at refused
    split at refused <;> cases refused
  | afterKey | ruleEnd =>
    simp only [step] at refused
    split at refused <;> cases refused

theorem Cause.kind_eq_unterminatedRule_iff {cause : Cause} :
    cause.kind = .unterminatedRule ↔ cause = .unterminated := by
  cases cause <;> simp [kind]

/-! ## Faults in longer texts -/

/-- The fault when the text goes on behind. -/
def Fault.followedBy (fault : Fault) (more : List Char) : Fault :=
  ⟨fault.cause, fault.start ++ more, fault.opened ++ more⟩

namespace ParseError

/-- A place in a source stays where it is when the source goes on behind. -/
theorem place_append (source remainder more : List Char) :
    place (source ++ more) (remainder ++ more) = place source remainder := by
  have size : (source ++ more).length - (remainder ++ more).length =
      source.length - remainder.length := by
    simp only [List.length_append]
    omega
  rw [place, size, List.take_append_of_le_length (Nat.sub_le _ _), place]

theorem place_append_right (front remainder : List Char) :
    place (front ++ remainder) remainder = .after front := by
  rw [place, List.length_append, Nat.add_sub_cancel, List.take_left]

/-- An error stays the same when the source goes on behind. -/
theorem ofFault_followedBy (source : List Char) (fault : Fault) (more : List Char) :
    ofFault (source ++ more) (fault.followedBy more) = ofFault source fault := by
  simp only [ofFault, Fault.followedBy, place_append]

end ParseError

namespace Reader

/-- A reader that stops at a token or at a stray character stops there whatever comes
behind. -/
theorem Stops.followedBy {reader : Reader} {fault : Fault} (stops : reader.Stops fault)
    (refused : fault.cause ≠ .unterminated) {more : List Char} (ends : WordEnds more) :
    (reader.followedBy more).Stops (fault.followedBy more) := by
  cases stops with
  | stray read =>
    have later := @Stops.stray (reader.followedBy more) _ (Stage.readToken_stray_append read more)
    rw [Reader.followedBy, Stage.openedAt_append] at later
    exact later
  | ended => exact absurd rfl refused
  | refused read token step =>
    have later := @Stops.refused (reader.followedBy more) _ _
      (Stage.readToken_append read token ends) token step
    rw [Reader.followedBy, Piece.followedBy, Stage.openedAt_append] at later
    exact later

/-- In front of the place where a reader stops there is nothing to read, and there is
something behind it. -/
theorem Stops.exists_skips {reader : Reader} {fault : Fault} (stops : reader.Stops fault)
    (refused : fault.cause ≠ .unterminated) :
    ∃ gap, reader.stage.Skips gap ∧ reader.text = gap ++ fault.start ∧ fault.start ≠ [] := by
  cases stops with
  | stray read =>
    obtain ⟨gap, rest, skips, _, split, start⟩ := Stage.exists_skips_of_stray read
    exact ⟨gap, skips, split, start ▸ List.cons_ne_nil _ _⟩
  | ended => exact absurd rfl refused
  | refused read token _ => exact Stage.exists_skips read token

/-- A reader with nothing to read is at the end of the stylesheet, or inside a rule. -/
theorem rules_of_skips {reader : Reader} (skips : reader.stage.Skips reader.text) :
    reader.rules = .ok [] ∨ reader.rules = .error ⟨.unterminated, [], reader.opened⟩ := by
  have read := Stage.readToken_of_skips skips
  obtain ⟨stage, opened, text⟩ := reader
  rw [Reader.rules, readRules_of_end read rfl]
  cases stage with
  | between => exact .inl rfl
  | _ => exact .inr rfl

/-- **A fault in front of which the text breaks off is none.** -/
theorem exists_front_of_error {source : List Char} {fault : Fault}
    (failed : (start source).rules = .error fault) (refused : fault.cause ≠ .unterminated) :
    ∃ front, source = front ++ fault.start ∧ fault.start ≠ [] ∧
      ((∃ rules, (start front).rules = .ok rules) ∨
        ∃ opened, (start front).rules = .error ⟨.unterminated, [], opened⟩) := by
  obtain ⟨tokens, rules, last, run, stops⟩ := exists_run_of_error failed
  obtain ⟨gap, skips, split, nonempty⟩ := stops.exists_skips refused
  obtain ⟨front, opened, whole, cut, _⟩ := run.exists_front split
  have read := cut.rules_eq
  refine ⟨front, whole, nonempty, ?_⟩
  rcases @rules_of_skips ⟨last.stage, opened, gap⟩ skips with done | inside
  · rw [done] at read
    exact .inl ⟨_, read⟩
  · rw [inside] at read
    exact .inr ⟨opened, read⟩

/-- **A fault stays where it is** when the text goes on behind, and not with a word. -/
theorem error_followedBy {source : List Char} {fault : Fault}
    (failed : (start source).rules = .error fault) (refused : fault.cause ≠ .unterminated)
    {more : List Char} (ends : WordEnds more) :
    (start (source ++ more)).rules = .error (fault.followedBy more) := by
  obtain ⟨tokens, rules, last, run, stops⟩ := exists_run_of_error failed
  have read := (run.followedBy_of_wordEnds ends).rules_start_append
  rw [(stops.followedBy refused ends).rules_eq] at read
  exact read

end Reader

/-! ## Errors of a source -/

namespace Stylesheet

theorem exists_fault_of_ofCharacters {source : List Char} {error : ParseError}
    (refused : ofCharacters source = .error error) :
    ∃ fault, (Reader.start source).rules = .error fault ∧
      error = ParseError.ofFault source fault := by
  unfold ofCharacters at refused
  split at refused
  · cases refused
  · next fault failed =>
    cases refused
    exact ⟨fault, failed, rfl⟩

theorem ofCharacters_of_error {source : List Char} {fault : Fault}
    (failed : (Reader.start source).rules = .error fault) :
    ofCharacters source = .error (ParseError.ofFault source fault) := by
  have read : readRules .between [] source = .error fault := failed
  simp only [ofCharacters, read]

theorem ofCharacters_of_ok {source : List Char} {rules : List Rule}
    (done : (Reader.start source).rules = .ok rules) : ofCharacters source = .ok ⟨rules⟩ := by
  have read : readRules .between [] source = .ok rules := done
  simp only [ofCharacters, read]

/-- **The error of a source is the first one, and it is final.**  A source that breaks off
in front of it is a stylesheet or ends inside a rule.  A source that goes on behind it, on
the next line, has the same error in the same place. -/
theorem error_is_first_and_final {source : String} {error : ParseError}
    (refused : ofString source = .error error) (inside : error.kind ≠ .unterminatedRule) :
    (∃ index ≤ source.length,
      error.position = .after (source.toList.take index) ∧
      ((∃ sheet, ofString (.ofList (source.toList.take index)) = .ok sheet) ∨
        ∃ other, ofString (.ofList (source.toList.take index)) = .error other ∧
          other.kind = .unterminatedRule)) ∧
    ∀ more : String, ofString (source ++ "\n" ++ more) = .error error := by
  obtain ⟨fault, failed, rfl⟩ := exists_fault_of_ofCharacters refused
  have cause : fault.cause ≠ .unterminated :=
    fun same => inside (Cause.kind_eq_unterminatedRule_iff.mpr same)
  constructor
  · obtain ⟨front, whole, _, read⟩ := Reader.exists_front_of_error failed cause
    have taken : source.toList.take front.length = front := by
      rw [whole, List.take_left]
    refine ⟨front.length, ?_, ?_, ?_⟩
    · rw [← String.length_toList, whole, List.length_append]
      exact Nat.le_add_right _ _
    · rw [taken, whole, ParseError.ofFault, ParseError.place_append_right]
    · rw [taken, ofString, String.toList_ofList]
      rcases read with ⟨rules, done⟩ | ⟨opened, ended⟩
      · exact .inl ⟨_, ofCharacters_of_ok done⟩
      · exact .inr ⟨_, ofCharacters_of_error ended, rfl⟩
  · intro more
    have ends : WordEnds ('\n' :: more.toList) := .cons (by decide) _
    have later := ofCharacters_of_error (Reader.error_followedBy failed cause ends)
    rw [ParseError.ofFault_followedBy] at later
    have joined : (source ++ "\n" ++ more).toList = source.toList ++ '\n' :: more.toList := by
      simp
    rw [ofString, joined]
    exact later

/-- A field that is given twice: the source may break off in front of the second key, and
nothing behind it mends it. -/
theorem repeated_key_is_final :
    ofString "a:fg:1,fg:2" = .error ⟨.duplicateProperty .fg, ⟨7, 1, 8⟩, 1⟩ ∧
      ofString "a:fg:1," = .error ⟨.unterminated, ⟨7, 1, 8⟩, 1⟩ ∧
      ∀ more : String, ofString ("a:fg:1,fg:2" ++ "\n" ++ more) =
        .error ⟨.duplicateProperty .fg, ⟨7, 1, 8⟩, 1⟩ := by
  have refused : ofString "a:fg:1,fg:2" = .error ⟨.duplicateProperty .fg, ⟨7, 1, 8⟩, 1⟩ := by
    with_unfolding_all rfl
  have inside : ofString "a:fg:1," = .error ⟨.unterminated, ⟨7, 1, 8⟩, 1⟩ := by
    with_unfolding_all rfl
  exact ⟨refused, inside, (error_is_first_and_final refused (by decide)).2⟩

end Stylesheet

end TreeStyle
