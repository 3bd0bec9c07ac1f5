import TreeStyle.Proofs.Grammar.FirstError

/-!
# The place of an error

An error stands where its token starts.  Some tokens are read up to there; behind them the
stage skips blanks and comments, and then comes what it refuses: the end of the source inside
a rule, a stray character, or a token (`Reader.OffendsAt`).  So an error is at the end of the
source, or at a character that is no blank and stands in no comment.

The offset, the line and the column of the error are all counted up to that one place, and
the line and the column alone tell it.

Main statement: `Stylesheet.error_position_coherent`.
-/

namespace TreeStyle

set_option autoImplicit false

namespace Reader

/-! ## What is refused -/

/-- The remainder of a source that is refused, and why.  A run leads to a stage, and the
remainder stands behind what the stage skips: it is the end of the source, or it starts with
a stray character or with a token that the stage refuses. -/
inductive OffendsAt (source : List Char) : List Char → Cause → Prop where
  | ended {tokens : List Token} {rules : List Rule} {last : Reader}
      (run : Run (start source) tokens rules last) (inside : last.stage ≠ .between)
      (read : last.stage.readToken last.text = .ok ⟨.endOfInput, [], []⟩) :
      OffendsAt source [] .unterminated
  | stray {tokens : List Token} {rules : List Rule} {last : Reader} {gap rest : List Char}
      {character : Char} (run : Run (start source) tokens rules last)
      (skips : last.stage.Skips gap) (split : last.text = gap ++ character :: rest)
      (isStray : Scan.IsStray character) :
      OffendsAt source (character :: rest) (.strayCharacter character)
  | refused {tokens : List Token} {rules : List Rule} {last : Reader} {token : Token}
      {gap lexeme rest : List Char} {cause : Cause} (run : Run (start source) tokens rules last)
      (skips : last.stage.Skips gap) (split : last.text = gap ++ (lexeme ++ rest))
      (spelling : Lexeme token lexeme) (longest : token.IsLongest rest)
      (refused : last.stage.step token = .error cause) : OffendsAt source (lexeme ++ rest) cause

/-- A reader that stops does so at what is refused. -/
theorem Run.offendsAt {source : List Char} {tokens : List Token} {rules : List Rule}
    {last : Reader} (run : Run (start source) tokens rules last) {fault : Fault}
    (stops : last.Stops fault) : OffendsAt source fault.start fault.cause := by
  cases stops with
  | stray read =>
    obtain ⟨gap, rest, skips, isStray, split, start⟩ := Stage.exists_skips_of_stray read
    rw [start] at split ⊢
    exact .stray run skips split isStray
  | ended inside read => exact .ended run inside read
  | refused read token refused =>
    generalize whole : last.text = text at read
    obtain ⟨skips, spelling, longest, _⟩ := Stage.finds_of_readToken read token
    exact .refused run skips whole spelling longest refused

/-- What is refused starts with no blank. -/
theorem OffendsAt.isSpace_head {source remainder : List Char} {cause : Cause}
    (offends : OffendsAt source remainder cause) :
    ∀ character ∈ remainder.head?, Scan.isSpace character = false := by
  intro character first
  cases offends with
  | ended => cases first
  | stray _ _ _ isStray =>
    cases first
    exact isStray.solid
  | refused _ _ _ spelling =>
    rw [List.head?_append_of_ne_nil _ spelling.ne_nil] at first
    exact spelling.isSpace_head character first

/-! ## Comments -/

/-- A remainder of a source that starts inside of a comment.  A run leads to a stage that
skips comments, and the comment stands behind a gap there. -/
inductive InComment (source : List Char) : List Char → Prop where
  | intro {tokens : List Token} {rules : List Rule} {last : Reader}
      {gap line passed inside rest : List Char} (run : Run (start source) tokens rules last)
      (plain : last.stage.expectsColor = false) (blank : Gap gap) (oneLine : '\n' ∉ line)
      (split : last.text = gap ++ '#' :: (line ++ rest)) (part : '#' :: line = passed ++ inside)
      (nonempty : inside ≠ []) : InComment source (inside ++ rest)

/-- A fault behind a run is the fault of the whole. -/
theorem Run.rules_of_error {reader last : Reader} {tokens : List Token} {rules : List Rule}
    (run : Run reader tokens rules last) {fault : Fault} (failed : reader.rules = .error fault) :
    last.rules = .error fault := by
  rw [run.rules_eq] at failed
  cases found : last.rules with
  | ok others =>
    rw [found] at failed
    cases failed
  | error other =>
    rw [found] at failed
    cases failed
    rfl

/-- A reader whose stage skips comments finds no fault in front of what it skips. -/
theorem start_suffix_skipTrivia {reader : Reader} (plain : reader.stage.expectsColor = false)
    {fault : Fault} (failed : reader.rules = .error fault) :
    fault.start <:+ Scan.skipTrivia false reader.text := by
  have same : reader.stage.readToken (Scan.skipTrivia false reader.text) =
      reader.stage.readToken reader.text := by
    unfold Stage.readToken Scan.nextToken
    simp only [plain, Scan.skipTrivia_idempotent, Bool.false_eq_true, if_false]
  have skipped : readRules reader.stage reader.opened (Scan.skipTrivia false reader.text) =
      reader.rules := readRules_congr same fun _ => rfl
  exact readRules_suffix (skipped.trans failed)

/-- **No fault is found inside of a comment.** -/
theorem not_inComment {source : List Char} {fault : Fault}
    (failed : (start source).rules = .error fault) : ¬ InComment source fault.start := by
  intro commented
  generalize same : fault.start = remainder at commented
  obtain ⟨run, plain, blank, oneLine, split, part, nonempty⟩ := commented
  have within := start_suffix_skipTrivia plain (run.rules_of_error failed)
  rw [split, blank.skipTrivia_append, Scan.skipTrivia_hash, Scan.skipTrivia_line oneLine, same]
    at within
  -- What is left of the comment would have to be a part of what stands behind it.
  have shorter := (within.trans (Scan.skipTrivia_suffix true _)).length_le
  rw [List.length_append] at shorter
  exact nonempty (List.eq_nil_of_length_eq_zero (by omega))

end Reader

/-! ## Positions of errors -/

namespace Stylesheet

/-- **An error has a place**: a front of the source and a remainder behind it, which is
refused and stands in no comment. -/
theorem exists_place_of_error {source : List Char} {error : ParseError}
    (refused : ofCharacters source = .error error) :
    ∃ front remainder, source = front ++ remainder ∧ error.position = .after front ∧
      Reader.OffendsAt source remainder error.cause ∧ ¬ Reader.InComment source remainder := by
  obtain ⟨fault, failed, rfl⟩ := exists_fault_of_ofCharacters refused
  obtain ⟨tokens, rules, last, run, stops⟩ := Reader.exists_run_of_error failed
  obtain ⟨front, whole⟩ : fault.start <:+ source := readRules_suffix failed
  refine ⟨front, fault.start, whole.symm, ?_, run.offendsAt stops, Reader.not_inComment failed⟩
  rw [ParseError.ofFault, ← whole, ParseError.place_append_right]

/-- **The position of an error is coherent.**  The offset, the line and the column are those
of one place in the source, counted in bytes, lines and characters.  The place is where the
refused token starts: it is the end of the source, or the character there is no blank and
stands in no comment.  And the line and the column tell the place. -/
theorem error_position_coherent {source : String} {error : ParseError}
    (refused : ofString source = .error error) :
    ∃ index ≤ source.length,
      error.position.offset = (String.ofList (source.toList.take index)).utf8ByteSize ∧
      error.position.line = 1 + (source.toList.take index).count '\n' ∧
      error.position.column =
        1 + ((source.toList.take index).rtakeWhile (· != '\n')).length ∧
      Reader.OffendsAt source.toList (source.toList.drop index) error.cause ∧
      (index = source.length ∨ ∃ character, source.toList[index]? = some character ∧
        Scan.isSpace character = false ∧
        ¬ Reader.InComment source.toList (source.toList.drop index)) ∧
      (∃ part, (Text.partsAt '\n' source.toList)[error.position.line - 1]? = some part ∧
        error.position.column ≤ part.length + 1) ∧
      Text.indexOf source.toList error.position.line error.position.column = index := by
  obtain ⟨front, remainder, whole, position, offends, outside⟩ := exists_place_of_error refused
  have taken : source.toList.take front.length = front := by rw [whole, List.take_left]
  have dropped : source.toList.drop front.length = remainder := by rw [whole, List.drop_left]
  have size : source.length = front.length + remainder.length := by
    rw [← String.length_toList, whole, List.length_append]
  obtain ⟨line, index⟩ := Text.Position.indexOf_after front remainder
  rw [← whole] at line index
  rw [position]
  refine ⟨front.length, by omega, ?_, ?_, ?_, ?_, ?_, line, index⟩
  · rw [taken, Text.Position.offset_after, ← Text.utf8Length_toList, String.toList_ofList]
  · rw [taken, Text.Position.line_after]
  · rw [taken, Text.Position.column_after]
  · rw [dropped]
    exact offends
  · rw [dropped]
    cases first : remainder with
    | nil =>
      rw [first, List.length_nil] at size
      exact .inl size.symm
    | cons character rest =>
      subst first
      refine .inr ⟨character, ?_, offends.isSpace_head character rfl, outside⟩
      rw [whole, List.getElem?_append_right (Nat.le_refl _), Nat.sub_self,
        List.getElem?_cons_zero]

/-- An unknown group behind a comment with a letter of two bytes: the seventh character is the
third one in the second line, and the group starts there. -/
theorem unknown_group_place :
    ofString "# é\na:x;" = .error ⟨.unknownHighlight "x", ⟨7, 2, 3⟩, 2⟩ ∧
      Text.indexOf "# é\na:x;".toList 2 3 = 6 ∧
      Reader.OffendsAt "# é\na:x;".toList "x;".toList (.unknownHighlight "x") := by
  have refused : ofString "# é\na:x;" = .error ⟨.unknownHighlight "x", ⟨7, 2, 3⟩, 2⟩ := by
    with_unfolding_all rfl
  have sixth : Text.indexOf "# é\na:x;".toList 2 3 = 6 := by decide
  obtain ⟨index, _, _, _, _, offends, _, _, found⟩ := error_position_coherent refused
  rw [sixth] at found
  subst found
  exact ⟨refused, sixth, offends⟩

end Stylesheet

end TreeStyle
