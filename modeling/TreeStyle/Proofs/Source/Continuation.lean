import TreeStyle.Proofs.Source.Lexemes

/-!
# Texts that go on, and texts that break off

A stage skips a gap and then reads a token, or refuses a character that starts none.
What it finds there is settled by the text up to the end of the token, whatever stands
behind, as long as the token stays as long as it can be (`Stage.finds_of_readToken`).  If the
text goes on behind, and not with a word character, the stage finds the same
(`Stage.readToken_append`, `Stage.readToken_stray_append`).  If the text breaks off in
front of the token, the stage finds the end of the input (`Stage.readToken_of_skips`).

A colour that has no characters is no token: where a colour is due and none starts, the
next token stands immediately behind the blanks.
-/

namespace TreeStyle

set_option autoImplicit false

/-- The piece when its text goes on behind. -/
def Piece.followedBy {α : Type} (piece : Piece α) (more : List Char) : Piece α :=
  ⟨piece.value, piece.start ++ more, piece.rest ++ more⟩

theorem Lexeme.ne_nil {token : Token} {lexeme : List Char} (spelling : Lexeme token lexeme) :
    lexeme ≠ [] := by
  cases spelling with
  | color nonempty => exact nonempty
  | _ => exact List.cons_ne_nil _ _

/-- A token starts with no blank. -/
theorem Lexeme.isSpace_head {token : Token} {lexeme : List Char} (spelling : Lexeme token lexeme) :
    ∀ character ∈ lexeme.head?, Scan.isSpace character = false := by
  rintro _ first
  cases spelling with
  | mark symbol =>
    cases first
    exact Scan.isSpace_mark symbol
  | identifier start word =>
    cases first
    exact Scan.isSpace_of_isWordCharacter (Scan.isWordCharacter_of_isIdentifierStart start)
  | color _ word =>
    exact Scan.isSpace_of_isWordCharacter (word _ (List.mem_of_mem_head? first))
  | hashColor =>
    cases first
    exact Scan.isSpace_hash

/-! ## Words that end -/

theorem WordEnds.of_append {text more : List Char} (ends : WordEnds (text ++ more)) :
    WordEnds text := by
  intro character first
  apply ends character
  cases text with
  | nil => cases first
  | cons => exact first

/-- A text that is not empty ends a word whatever stands behind it. -/
theorem WordEnds.append_of_ne_nil {text : List Char} (ends : WordEnds text)
    (nonempty : text ≠ []) (more : List Char) : WordEnds (text ++ more) := by
  obtain ⟨character, rest, rfl⟩ := List.exists_cons_of_ne_nil nonempty
  exact ends

theorem Token.IsLongest.of_append {token : Token} {rest more : List Char}
    (longest : token.IsLongest (rest ++ more)) : token.IsLongest rest := by
  cases token with
  | mark symbol => trivial
  | _ => exact WordEnds.of_append longest

theorem Token.IsLongest.append_of_ne_nil {token : Token} {rest : List Char}
    (longest : token.IsLongest rest) (nonempty : rest ≠ []) (more : List Char) :
    token.IsLongest (rest ++ more) := by
  cases token with
  | mark symbol => trivial
  | _ => exact WordEnds.append_of_ne_nil longest nonempty more

/-! ## Scanning -/

namespace Scan

/-- A character that starts neither a gap nor a token. -/
structure IsStray (character : Char) : Prop where
  solid : isSpace character = false
  plain : character ≠ '#'
  noMark : Mark.ofChar? character = none
  noWord : isIdentifierStart character = false

/-- **A scan fails at a stray character behind a gap**, and nowhere else. -/
theorem nextToken_eq_error_iff {text : List Char} {stray : Stray} :
    nextToken text = .error stray ↔
      ∃ gap character rest, Gap gap ∧ IsStray character ∧ text = gap ++ character :: rest ∧
        stray = ⟨character, character :: rest⟩ := by
  constructor
  · intro failed
    rcases exists_gap_of_skipTrivia text with ⟨gap, blank, split⟩ | ⟨_, none⟩
    · unfold nextToken at failed
      cases left : skipTrivia false text with
      | nil =>
        rw [left] at failed
        cases failed
      | cons character rest =>
        rw [left] at failed split
        simp only at failed
        split at failed
        · cases failed
        · next noMark =>
          split at failed
          · cases failed
          · next noWord =>
            cases failed
            have word : isIdentifierStart character = false := by simpa using noWord
            obtain ⟨solid, plain⟩ := solid_of_skipTrivia left
            exact ⟨gap, character, rest, blank, ⟨solid, plain, noMark, word⟩, split, rfl⟩
    · unfold nextToken at failed
      rw [none] at failed
      cases failed
  · rintro ⟨gap, character, rest, blank, stray, rfl, rfl⟩
    unfold nextToken
    rw [blank.skipTrivia_append, skipTrivia_other stray.solid stray.plain]
    simp only [stray.noMark, stray.noWord, Bool.false_eq_true, if_false]

theorem nextToken_stray_append {text : List Char} {stray : Stray}
    (scanned : nextToken text = .error stray) (more : List Char) :
    nextToken (text ++ more) = .error ⟨stray.character, stray.start ++ more⟩ := by
  obtain ⟨gap, character, rest, blank, isStray, rfl, rfl⟩ := nextToken_eq_error_iff.mp scanned
  refine nextToken_eq_error_iff.mpr ⟨gap, character, rest ++ more, blank, isStray, ?_, rfl⟩
  rw [List.append_assoc, List.cons_append]

/-! ### Where no colour starts -/

/-- A character behind blanks that starts no colour. -/
structure StartsNoColor (character : Char) : Prop where
  solid : isSpace character = false
  plain : character ≠ '#'
  noWord : isWordCharacter character = false

/-- Where no colour starts, no identifier starts. -/
theorem StartsNoColor.noStart {character : Char} (starts : StartsNoColor character) :
    isIdentifierStart character = false := by
  rw [← Bool.not_eq_true]
  intro start
  have word := isWordCharacter_of_isIdentifierStart start
  rw [starts.noWord] at word
  cases word

theorem nextColor_of_startsNoColor {gap : List Char} {character : Char}
    (spaces : ∀ other ∈ gap, isSpace other = true) (starts : StartsNoColor character)
    (rest : List Char) :
    nextColor (gap ++ character :: rest) =
      some ⟨"", character :: rest, character :: rest⟩ := by
  have kept : skipSpace (character :: rest) = character :: rest := by
    simp [skipSpace, starts.solid]
  unfold nextColor
  rw [skipSpace_append spaces, kept]
  split
  · next none => cases none
  · next hash =>
    cases hash
    exact absurd rfl starts.plain
  · rw [List.takeWhile_cons_of_neg (by simp [starts.noWord]),
      List.dropWhile_cons_of_neg (by simp [starts.noWord])]

/-- A colour without characters stands in front of a character that starts none. -/
theorem exists_startsNoColor {text : List Char} {piece : Piece String}
    (scanned : nextColor text = some piece) (empty : piece.value = "") :
    ∃ gap character rest, (∀ other ∈ gap, isSpace other = true) ∧ StartsNoColor character ∧
      text = gap ++ character :: rest ∧ piece.rest = character :: rest := by
  have split := List.takeWhile_append_dropWhile (p := isSpace) (l := text)
  have spaces := List.all_eq_true.mp (List.all_takeWhile (p := isSpace) (l := text))
  have stop := List.head?_dropWhile_not isSpace text
  unfold nextColor skipSpace at scanned
  cases left : text.dropWhile isSpace with
  | nil =>
    rw [left] at scanned
    cases scanned
  | cons character rest =>
    rw [left] at scanned split stop
    have solid : isSpace character = false := by simpa using stop
    split at scanned
    · next none => cases none
    · next hash =>
      cases scanned
      exact absurd empty (by simp [← String.toList_inj])
    · next plain =>
      cases scanned
      have noWord : isWordCharacter character = false := by
        rw [← Bool.not_eq_true]
        intro word
        simp [word, ← String.toList_inj] at empty
      refine ⟨_, character, rest, spaces, ⟨solid, ?_, noWord⟩, split.symm, ?_⟩
      · rintro rfl
        exact plain _ rfl
      · rw [List.dropWhile_cons_of_neg (by simp [noWord])]

/-- Where there is nothing to scan for a colour, there are blanks alone. -/
theorem isSpace_of_nextColor_eq_none {text : List Char} (none : nextColor text = none) :
    ∀ character ∈ text, isSpace character = true := by
  have whole := List.takeWhile_append_dropWhile (p := isSpace) (l := text)
  have front := List.all_takeWhile (p := isSpace) (l := text)
  unfold nextColor skipSpace at none
  split at none
  · next left =>
    rw [left, List.append_nil] at whole
    rw [whole] at front
    exact List.all_eq_true.mp front
  · cases none
  · cases none

/-- Where no colour starts, nothing is skipped, and a mark stands there or a stray
character. -/
theorem nextToken_of_startsNoColor {character : Char} (starts : StartsNoColor character)
    (rest : List Char) :
    nextToken (character :: rest) =
      match Mark.ofChar? character with
      | some mark => .ok ⟨.mark mark, character :: rest, rest⟩
      | none => .error ⟨character, character :: rest⟩ := by
  unfold nextToken
  rw [skipTrivia_other starts.solid starts.plain]
  cases mark : Mark.ofChar? character <;> simp only [starts.noStart, mark, Bool.false_eq_true, if_false]

end Scan

/-- Blanks are a gap. -/
theorem Gap.of_spaces {gap : List Char}
    (spaces : ∀ character ∈ gap, Scan.isSpace character = true) : Gap gap := by
  induction gap with
  | nil => exact .nil
  | cons character gap ih =>
    exact .space (spaces character List.mem_cons_self) <|
      ih fun other member => spaces other (List.mem_cons_of_mem _ member)

/-- A line feed ends whatever may stand at the end of a source. -/
theorem Ending.gap_line {text : List Char} (ending : Ending text) : Gap (text ++ ['\n']) := by
  have feed : Gap ['\n'] := .space (by decide) .nil
  cases ending with
  | gap blank => exact blank.append feed
  | comment blank oneLine =>
    rw [List.append_assoc, List.cons_append]
    exact blank.append (.comment oneLine .nil)

/-! ## Reading -/

namespace Stage

/-- What a stage skips in front of a token. -/
def Skips (stage : Stage) (gap : List Char) : Prop :=
  if stage.expectsColor then ∀ character ∈ gap, Scan.isSpace character = true else Gap gap

theorem skips_nil (stage : Stage) : stage.Skips [] := by
  unfold Skips
  split
  · exact fun _ none => by cases none
  · exact .nil

theorem readToken_skips {stage : Stage} {gap : List Char} (skips : stage.Skips gap)
    (text : List Char) : stage.readToken (gap ++ text) = stage.readToken text := by
  unfold Skips at skips
  unfold readToken
  split
  · next expected =>
    rw [if_pos expected] at skips
    have same : Scan.nextColor (gap ++ text) = Scan.nextColor text := by
      unfold Scan.nextColor
      rw [Scan.skipSpace_append skips]
    rw [same]
  · next expected =>
    rw [if_neg expected] at skips
    unfold Scan.nextToken
    rw [skips.skipTrivia_append]

/-- **In a gap alone, the end of the input is found.** -/
theorem readToken_of_skips {stage : Stage} {gap : List Char} (skips : stage.Skips gap) :
    stage.readToken gap = .ok ⟨.endOfInput, [], []⟩ := by
  have read := readToken_skips skips []
  rw [List.append_nil] at read
  rw [read]
  unfold readToken
  split <;> rfl

/-- Where a colour is due and none starts, the token that stands there is read. -/
theorem readToken_of_startsNoColor {stage : Stage} (expected : stage.expectsColor = true)
    {gap : List Char} {character : Char}
    (spaces : ∀ other ∈ gap, Scan.isSpace other = true) (starts : Scan.StartsNoColor character)
    (rest : List Char) :
    stage.readToken (gap ++ character :: rest) = Scan.nextToken (character :: rest) := by
  unfold readToken
  rw [if_pos expected, Scan.nextColor_of_startsNoColor spaces starts]
  rfl

/-- What a stage does with a text: it scans a token, or it scans a colour.  In front of the
colour there may be nothing but blanks, and where none starts, the token that stands there
is scanned. -/
inductive Reads (stage : Stage) (text : List Char) : Except Scan.Stray (Piece Token) → Prop where
  | token {outcome : Except Scan.Stray (Piece Token)} (expected : stage.expectsColor = false)
      (scanned : Scan.nextToken text = outcome) : Reads stage text outcome
  | blank (expected : stage.expectsColor = true)
      (spaces : ∀ character ∈ text, Scan.isSpace character = true) :
      Reads stage text (.ok ⟨.endOfInput, [], []⟩)
  | color {piece : Piece String} (expected : stage.expectsColor = true)
      (scanned : Scan.nextColor text = some piece) (nonempty : piece.value ≠ "") :
      Reads stage text (.ok ⟨.color piece.value, piece.start, piece.rest⟩)
  | other {outcome : Except Scan.Stray (Piece Token)} {gap : List Char} {character : Char}
      {rest : List Char} (expected : stage.expectsColor = true)
      (spaces : ∀ other ∈ gap, Scan.isSpace other = true) (starts : Scan.StartsNoColor character)
      (split : text = gap ++ character :: rest)
      (scanned : Scan.nextToken (character :: rest) = outcome) : Reads stage text outcome

theorem reads_of_readToken {stage : Stage} {text : List Char}
    {outcome : Except Scan.Stray (Piece Token)} (read : stage.readToken text = outcome) :
    stage.Reads text outcome := by
  subst read
  unfold readToken
  split
  · next expected =>
    split
    · next none => exact .blank expected (Scan.isSpace_of_nextColor_eq_none none)
    · next scanned =>
      split
      · next empty =>
        obtain ⟨_, _, _, spaces, starts, split, left⟩ := Scan.exists_startsNoColor scanned empty
        rw [left]
        exact .other expected spaces starts split rfl
      · next nonempty => exact .color expected scanned nonempty
  · next expected => exact .token (Bool.eq_false_iff.mpr expected) rfl

theorem skips_of_expectsColor {stage : Stage} (expected : stage.expectsColor = true)
    {gap : List Char} (spaces : ∀ character ∈ gap, Scan.isSpace character = true) :
    stage.Skips gap := by
  unfold Skips
  rw [if_pos expected]
  exact spaces

theorem skips_of_gap {stage : Stage} (expected : stage.expectsColor = false) {gap : List Char}
    (blank : Gap gap) : stage.Skips gap := by
  unfold Skips
  rw [if_neg (by simp [expected])]
  exact blank

/-- **Where the end of the input is found, an ending is left**, and the stage skips it
together with a line feed. -/
theorem skips_line_of_endOfInput {stage : Stage} {text : List Char} {piece : Piece Token}
    (read : stage.readToken text = .ok piece) (ended : piece.value = .endOfInput) :
    piece = ⟨.endOfInput, [], []⟩ ∧ Ending text ∧ stage.Skips (text ++ ['\n']) := by
  cases reads_of_readToken read with
  | token expected scanned =>
    rcases Scan.exists_lexeme_of_nextToken scanned with ⟨same, ending⟩ | ⟨_, _, token⟩
    · exact ⟨same, ending, skips_of_gap expected ending.gap_line⟩
    · exact absurd ended token
  | blank expected spaces =>
    refine ⟨rfl, .gap (.of_spaces spaces), skips_of_expectsColor expected ?_⟩
    intro character member
    rcases List.mem_append.mp member with inside | feed
    · exact spaces character inside
    · rw [List.mem_singleton.mp feed]
      decide
  | color => cases ended
  | other _ _ starts _ scanned =>
    rw [Scan.nextToken_of_startsNoColor starts] at scanned
    split at scanned <;> cases scanned
    cases ended

/-- A text in which a stage finds a token behind what it skips.  What stands behind the token
makes no difference to that, as long as the token stays as long as it can be. -/
inductive Finds (stage : Stage) : List Char → Piece Token → Prop where
  | intro {token : Token} {gap lexeme rest : List Char} (skips : stage.Skips gap)
      (spelling : Lexeme token lexeme) (longest : token.IsLongest rest)
      (read : ∀ more, token.IsLongest more →
        stage.readToken (gap ++ (lexeme ++ more)) = .ok ⟨token, lexeme ++ more, more⟩) :
      Finds stage (gap ++ (lexeme ++ rest)) ⟨token, lexeme ++ rest, rest⟩

/-- A token that is spelled in the way that the stage asks for is found. -/
theorem finds_of_spelled {stage : Stage} {text : List Char} {piece : Piece Token}
    (spelled : Spelled text piece) (mode : piece.value.isColor = stage.expectsColor) :
    stage.Finds text piece := by
  obtain ⟨before, spelling, longest⟩ := spelled
  refine .intro ?_ spelling longest fun more stays =>
    readToken_of_lexeme (.intro before spelling stays) mode
  cases spelling with
  | mark | identifier => exact skips_of_gap mode.symm before
  | color | hashColor => exact skips_of_expectsColor mode.symm before

/-- **A token that is read is found.** -/
theorem finds_of_readToken {stage : Stage} {text : List Char} {piece : Piece Token}
    (read : stage.readToken text = .ok piece) (token : piece.value ≠ .endOfInput) :
    stage.Finds text piece := by
  cases reads_of_readToken read with
  | token expected scanned =>
    rcases Scan.exists_lexeme_of_nextToken scanned with ⟨rfl, _⟩ | ⟨spelled, plain, _⟩
    · exact absurd rfl token
    · exact finds_of_spelled spelled (plain.trans expected.symm)
  | blank => exact absurd rfl token
  | color expected scanned nonempty =>
    exact finds_of_spelled (Scan.exists_lexeme_of_nextColor scanned nonempty) expected.symm
  | @other _ gap character rest expected spaces starts split scanned =>
    subst split
    rw [Scan.nextToken_of_startsNoColor starts] at scanned
    split at scanned
    · next mark marked =>
      cases scanned
      cases Mark.character_of_ofChar? marked
      refine @Finds.intro stage _ gap _ rest (skips_of_expectsColor expected spaces) (.mark mark)
        trivial fun more _ => ?_
      rw [List.singleton_append, readToken_of_startsNoColor expected spaces starts,
        Scan.nextToken_of_startsNoColor starts, marked]
    · cases scanned

/-- **A token stands behind what its stage skips.** -/
theorem exists_skips {stage : Stage} {text : List Char} {piece : Piece Token}
    (read : stage.readToken text = .ok piece) (token : piece.value ≠ .endOfInput) :
    ∃ gap, stage.Skips gap ∧ text = gap ++ piece.start ∧ piece.start ≠ [] := by
  obtain ⟨skips, spelling, _, _⟩ := finds_of_readToken read token
  exact ⟨_, skips, rfl, List.append_ne_nil_of_left_ne_nil spelling.ne_nil _⟩

/-- **A token is read whatever stands behind it**, if its word does not go on. -/
theorem readToken_append {stage : Stage} {text : List Char} {piece : Piece Token}
    (read : stage.readToken text = .ok piece) (token : piece.value ≠ .endOfInput)
    {more : List Char} (ends : WordEnds more) :
    stage.readToken (text ++ more) = .ok (piece.followedBy more) := by
  obtain ⟨_, _, longest, again⟩ := finds_of_readToken read token
  rw [Piece.followedBy, List.append_assoc, List.append_assoc]
  exact again _ (longest.append ends)

/-- A stray character stands behind what the stage skips. -/
theorem exists_skips_of_stray {stage : Stage} {text : List Char} {stray : Scan.Stray}
    (read : stage.readToken text = .error stray) :
    ∃ gap rest, stage.Skips gap ∧ Scan.IsStray stray.character ∧ text = gap ++ stray.start ∧
      stray.start = stray.character :: rest := by
  cases reads_of_readToken read with
  | token expected scanned =>
    obtain ⟨gap, character, rest, blank, isStray, rfl, rfl⟩ :=
      Scan.nextToken_eq_error_iff.mp scanned
    exact ⟨gap, rest, skips_of_gap expected blank, isStray, rfl, rfl⟩
  | @other _ gap character rest expected spaces starts split scanned =>
    rw [Scan.nextToken_of_startsNoColor starts] at scanned
    split at scanned
    · cases scanned
    · next noMark =>
      cases scanned
      exact ⟨gap, rest, skips_of_expectsColor expected spaces,
        ⟨starts.solid, starts.plain, noMark, starts.noStart⟩, split, rfl⟩

/-- **A stray character is refused whatever stands behind it.** -/
theorem readToken_stray_append {stage : Stage} {text : List Char} {stray : Scan.Stray}
    (read : stage.readToken text = .error stray) (more : List Char) :
    stage.readToken (text ++ more) = .error ⟨stray.character, stray.start ++ more⟩ := by
  cases reads_of_readToken read with
  | token expected scanned =>
    unfold readToken
    rw [if_neg (by simp [expected])]
    exact Scan.nextToken_stray_append scanned more
  | other expected spaces starts split scanned =>
    rw [split, List.append_assoc, List.cons_append,
      readToken_of_startsNoColor expected spaces starts]
    exact Scan.nextToken_stray_append scanned more

end Stage

end TreeStyle
