import TreeStyle.Stylesheet.Reading

/-!
# How a source spells its tokens

A token is spelled by its characters, its lexeme, and a gap of blanks and comments
may stand before it.  Identifiers and colours are as long as they can be, so what
follows them cannot go on with a word character.  Before a colour there are no
comments, because a `#` starts a colour there.  The end of the source may be taken
up by a comment that no line feed closes.

None of this mentions how a source is scanned.  The scanner finds these spellings:
it reads a token that is spelled (`readToken_of_lexeme`), and whatever it reads is
spelled (`exists_lexeme_of_readToken`), provided that the stage asks for a colour
exactly where the token is one.

Main statements: `Gap.skipTrivia_append`, `exists_gap_of_skipTrivia`,
`readToken_of_lexeme` and `exists_lexeme_of_readToken`.
-/

namespace TreeStyle

set_option autoImplicit false

/-! ## Gaps -/

/-- Blanks and whole comments, as they may stand before a token. -/
inductive Gap : List Char → Prop where
  | nil : Gap []
  | space {character : Char} {rest : List Char} (blank : Scan.isSpace character = true)
      (more : Gap rest) : Gap (character :: rest)
  | comment {line rest : List Char} (oneLine : '\n' ∉ line) (more : Gap rest) :
      Gap ('#' :: (line ++ '\n' :: rest))

/-- What may stand at the end of a source: a gap, and perhaps a comment that the end
of the source closes. -/
inductive Ending : List Char → Prop where
  | gap {gap : List Char} (blank : Gap gap) : Ending gap
  | comment {gap line : List Char} (blank : Gap gap) (oneLine : '\n' ∉ line) :
      Ending (gap ++ '#' :: line)

theorem Ending.space {character : Char} {text : List Char}
    (blank : Scan.isSpace character = true) (ending : Ending text) :
    Ending (character :: text) := by
  cases ending with
  | gap more => exact .gap (.space blank more)
  | comment more oneLine => exact .comment (.space blank more) oneLine

theorem Ending.comment_cons {line text : List Char} (oneLine : '\n' ∉ line)
    (ending : Ending text) : Ending ('#' :: (line ++ '\n' :: text)) := by
  cases ending with
  | gap more => exact .gap (.comment oneLine more)
  | @comment gap last more lastLine =>
    have joined : '#' :: (line ++ '\n' :: (gap ++ '#' :: last)) =
        ('#' :: (line ++ '\n' :: gap)) ++ '#' :: last := by simp
    rw [joined]
    exact .comment (.comment oneLine more) lastLine

/-! ## Skipping gaps -/

namespace Scan

/-- A comment goes on up to a line feed. -/
theorem skipTrivia_line {line : List Char} (oneLine : '\n' ∉ line) (rest : List Char) :
    skipTrivia true (line ++ rest) = skipTrivia true rest := by
  induction line with
  | nil => rfl
  | cons character line ih =>
    rw [List.mem_cons, not_or] at oneLine
    have other : (character != '\n') = true := by simpa [bne_iff_ne] using Ne.symm oneLine.1
    simp only [List.cons_append, skipTrivia, if_true, other]
    exact ih oneLine.2

/-- A line feed ends a comment. -/
theorem skipTrivia_comment {line : List Char} (oneLine : '\n' ∉ line) (rest : List Char) :
    skipTrivia true (line ++ '\n' :: rest) = skipTrivia false rest := by
  rw [skipTrivia_line oneLine]
  simp [skipTrivia]

/-- A comment without a line feed takes up the whole text. -/
theorem skipTrivia_openComment {line : List Char} (oneLine : '\n' ∉ line) :
    skipTrivia true line = [] := by
  have skipped := skipTrivia_line oneLine []
  rw [List.append_nil] at skipped
  rw [skipped, skipTrivia]

theorem isSpace_hash : isSpace '#' = false := by decide

theorem skipTrivia_hash (rest : List Char) :
    skipTrivia false ('#' :: rest) = skipTrivia true rest := by
  simp [skipTrivia, isSpace_hash]

theorem skipTrivia_space {character : Char} (blank : isSpace character = true)
    (rest : List Char) : skipTrivia false (character :: rest) = skipTrivia false rest := by
  simp [skipTrivia, blank]

theorem skipTrivia_other {character : Char} (solid : isSpace character = false)
    (plain : character ≠ '#') (rest : List Char) :
    skipTrivia false (character :: rest) = character :: rest := by
  simp [skipTrivia, solid, plain]

/-- Nothing that is skipped is left at the front. -/
theorem solid_of_skipTrivia {inComment : Bool} {text rest : List Char} {character : Char}
    (left : skipTrivia inComment text = character :: rest) :
    isSpace character = false ∧ character ≠ '#' := by
  induction text generalizing inComment with
  | nil => simp [skipTrivia] at left
  | cons first others ih =>
    unfold skipTrivia at left
    split at left
    · exact ih left
    · split at left
      · exact ih left
      · next solid =>
        split at left
        · exact ih left
        · next plain =>
          cases left
          exact ⟨Bool.not_eq_true _ ▸ solid, plain⟩

end Scan

/-- A gap is skipped. -/
theorem Gap.skipTrivia_append {gap : List Char} (blank : Gap gap) (rest : List Char) :
    Scan.skipTrivia false (gap ++ rest) = Scan.skipTrivia false rest := by
  induction blank with
  | nil => rfl
  | space blank _ ih => rw [List.cons_append, Scan.skipTrivia_space blank, ih]
  | comment oneLine _ ih =>
    rw [List.cons_append, Scan.skipTrivia_hash, List.append_assoc, List.cons_append,
      Scan.skipTrivia_comment oneLine, ih]

/-- An ending is skipped altogether. -/
theorem Ending.skipTrivia_eq {text : List Char} (ending : Ending text) :
    Scan.skipTrivia false text = [] := by
  cases ending with
  | gap blank =>
    have skipped := blank.skipTrivia_append []
    rw [List.append_nil] at skipped
    rw [skipped, Scan.skipTrivia]
  | comment blank oneLine =>
    rw [blank.skipTrivia_append, Scan.skipTrivia_hash, Scan.skipTrivia_openComment oneLine]

/-- A text is one line, or a line feed closes its first line. -/
theorem oneLine_or_split (text : List Char) :
    '\n' ∉ text ∨ ∃ line rest, '\n' ∉ line ∧ text = line ++ '\n' :: rest := by
  induction text with
  | nil => exact .inl (by simp)
  | cons character text ih =>
    by_cases feed : character = '\n'
    · subst feed
      exact .inr ⟨[], text, by simp, rfl⟩
    · rcases ih with oneLine | ⟨line, rest, oneLine, rfl⟩
      · exact .inl (by simp [oneLine, Ne.symm feed])
      · exact .inr ⟨character :: line, rest, by simp [oneLine, Ne.symm feed], rfl⟩

/-- **What is skipped is a gap.**  If nothing is left, the text was an ending. -/
theorem exists_gap_of_skipTrivia (text : List Char) :
    (∃ gap, Gap gap ∧ text = gap ++ Scan.skipTrivia false text) ∨
      (Ending text ∧ Scan.skipTrivia false text = []) := by
  -- A comment is skipped as a whole, so the induction is on the length of the text.
  induction size : text.length using Nat.strongRecOn generalizing text with
  | ind size ih =>
    cases text with
    | nil => exact .inl ⟨[], .nil, by simp [Scan.skipTrivia]⟩
    | cons character rest =>
      rw [List.length_cons] at size
      by_cases blank : Scan.isSpace character = true
      · rw [Scan.skipTrivia_space blank]
        rcases ih rest.length (by omega) rest rfl with ⟨gap, more, split⟩ | ⟨ending, none⟩
        · refine .inl ⟨character :: gap, .space blank more, ?_⟩
          rw [List.cons_append, ← split]
        · exact .inr ⟨ending.space blank, none⟩
      · by_cases hash : character = '#'
        · subst hash
          rw [Scan.skipTrivia_hash]
          rcases oneLine_or_split rest with oneLine | ⟨line, more, oneLine, rfl⟩
          · exact .inr ⟨.comment .nil oneLine, Scan.skipTrivia_openComment oneLine⟩
          · rw [Scan.skipTrivia_comment oneLine]
            rw [List.length_append, List.length_cons] at size
            rcases ih more.length (by omega) more rfl with ⟨gap, blanks, split⟩ | ⟨ending, none⟩
            · refine .inl ⟨'#' :: (line ++ '\n' :: gap), .comment oneLine blanks, ?_⟩
              rw [List.cons_append, List.append_assoc, List.cons_append, ← split]
            · exact .inr ⟨ending.comment_cons oneLine, none⟩
        · rw [Bool.not_eq_true] at blank
          rw [Scan.skipTrivia_other blank hash]
          exact .inl ⟨[], .nil, rfl⟩

/-! ## Character classes -/

namespace Scan

/-- Word characters are no blanks. -/
theorem isSpace_of_isWordCharacter {character : Char}
    (word : isWordCharacter character = true) : isSpace character = false := by
  rw [← Bool.not_eq_true]
  intro blank
  simp only [isSpace, Bool.or_eq_true, beq_iff_eq] at blank
  rcases blank with ((((rfl | rfl) | rfl) | rfl) | rfl) | rfl <;> exact absurd word (by decide)

theorem ne_hash_of_isWordCharacter {character : Char}
    (word : isWordCharacter character = true) : character ≠ '#' := by
  rintro rfl
  exact absurd word (by decide)

/-- Word characters are no marks. -/
theorem ofChar?_of_isIdentifierStart {character : Char}
    (start : isIdentifierStart character = true) : Mark.ofChar? character = none := by
  cases read : Mark.ofChar? character with
  | none => rfl
  | some mark =>
    have same := Mark.character_of_ofChar? read
    subst same
    cases mark <;> exact absurd start (by decide)

theorem isWordCharacter_of_isIdentifierStart {character : Char}
    (start : isIdentifierStart character = true) : isWordCharacter character = true := by
  simp only [isIdentifierStart, Bool.or_eq_true] at start
  simp only [isWordCharacter, Char.isAlphanum, Bool.or_eq_true]
  rcases start with alpha | underscore
  · exact .inl (.inl (.inl alpha))
  · exact .inl (.inr underscore)

/-- Marks are no word characters. -/
theorem isWordCharacter_mark (mark : Mark) : isWordCharacter mark.character = false := by
  cases mark <;> decide

theorem isSpace_mark (mark : Mark) : isSpace mark.character = false := by
  cases mark <;> decide

theorem mark_ne_hash (mark : Mark) : mark.character ≠ '#' := by
  cases mark <;> decide

end Scan

/-- A text that does not go on with a word character. -/
def WordEnds (text : List Char) : Prop :=
  ∀ character ∈ text.head?, Scan.isWordCharacter character = false

theorem wordEnds_dropWhile (text : List Char) :
    WordEnds (text.dropWhile Scan.isWordCharacter) := by
  intro character first
  have stopped := List.head?_dropWhile_not Scan.isWordCharacter text
  rw [Option.mem_def.mp first] at stopped
  simpa using stopped

theorem WordEnds.append {text rest : List Char} (first : WordEnds text) (second : WordEnds rest) :
    WordEnds (text ++ rest) := by
  cases text with
  | nil => exact second
  | cons character text => exact first

theorem WordEnds.cons {character : Char} (stop : Scan.isWordCharacter character = false)
    (text : List Char) : WordEnds (character :: text) := by
  intro other first
  cases first
  exact stop

/-- A word is taken whole from before a text that does not go on with it. -/
theorem takeWhile_word {word rest : List Char}
    (characters : ∀ character ∈ word, Scan.isWordCharacter character = true)
    (ends : WordEnds rest) : (word ++ rest).takeWhile Scan.isWordCharacter = word := by
  rw [List.takeWhile_append_of_pos characters]
  cases rest with
  | nil => simp
  | cons character rest => simp [ends character rfl]

theorem dropWhile_word {word rest : List Char}
    (characters : ∀ character ∈ word, Scan.isWordCharacter character = true)
    (ends : WordEnds rest) : (word ++ rest).dropWhile Scan.isWordCharacter = rest := by
  rw [List.dropWhile_append_of_pos characters]
  cases rest with
  | nil => simp
  | cons character rest => simp [ends character rfl]

/-! ## Lexemes -/

namespace Token

/-- Whether a token is a colour. -/
def isColor : Token → Bool
  | .color _ => true
  | _ => false

/-- Whether a gap may stand before a token: a colour follows blanks alone. -/
def MayFollow (gap : List Char) : Token → Prop
  | .color _ => ∀ character ∈ gap, Scan.isSpace character = true
  | _ => Gap gap

/-- Whether a token is as long as it can be before the given text. -/
def IsLongest (rest : List Char) : Token → Prop
  | .mark _ => True
  | _ => WordEnds rest

end Token

/-- The characters that spell a token. -/
inductive Lexeme : Token → List Char → Prop where
  | mark (symbol : Mark) : Lexeme (.mark symbol) [symbol.character]
  | identifier {first : Char} {others : List Char}
      (start : Scan.isIdentifierStart first = true)
      (word : ∀ character ∈ others, Scan.isWordCharacter character = true) :
      Lexeme (.identifier (String.ofList (first :: others))) (first :: others)
  | color {characters : List Char} (nonempty : characters ≠ [])
      (word : ∀ character ∈ characters, Scan.isWordCharacter character = true) :
      Lexeme (.color (String.ofList characters)) characters
  | hashColor {characters : List Char}
      (word : ∀ character ∈ characters, Scan.isWordCharacter character = true) :
      Lexeme (.color (String.ofList ('#' :: characters))) ('#' :: characters)

/-- A text that starts, after a gap, with the spelling of a token. -/
inductive Spelled : List Char → Piece Token → Prop where
  | intro {token : Token} {gap lexeme rest : List Char} (before : token.MayFollow gap)
      (spelling : Lexeme token lexeme) (longest : token.IsLongest rest) :
      Spelled (gap ++ (lexeme ++ rest)) ⟨token, lexeme ++ rest, rest⟩

/-- A source that consists of the spellings of the given tokens, up to its ending. -/
inductive Spells : List Token → List Char → Prop where
  | ending {text : List Char} (ending : Ending text) : Spells [] text
  | token {text : List Char} {piece : Piece Token} {tokens : List Token}
      (first : Spelled text piece) (more : Spells tokens piece.rest) :
      Spells (piece.value :: tokens) text

theorem Gap.append {first second : List Char} (front : Gap first) (back : Gap second) :
    Gap (first ++ second) := by
  induction front with
  | nil => exact back
  | space blank _ ih => exact .space blank ih
  | comment oneLine _ ih =>
    rw [List.cons_append, List.append_assoc, List.cons_append]
    exact .comment oneLine ih

/-- A token that is as long as it can be stays so if no word goes on behind it. -/
theorem Token.IsLongest.append {token : Token} {rest more : List Char}
    (longest : token.IsLongest rest) (ends : WordEnds more) : token.IsLongest (rest ++ more) := by
  cases token with
  | mark symbol => trivial
  | _ => exact WordEnds.append longest ends

/-- A spelled token stays spelled if no word goes on behind the text. -/
theorem Spelled.append {text more : List Char} {piece : Piece Token}
    (spelled : Spelled text piece) (ends : WordEnds more) :
    Spelled (text ++ more) ⟨piece.value, piece.start ++ more, piece.rest ++ more⟩ := by
  obtain ⟨before, spelling, longest⟩ := spelled
  rw [List.append_assoc, List.append_assoc]
  exact .intro before spelling (longest.append ends)

/-! ## Scanning lexemes -/

namespace Scan

/-- A spelled token other than a colour is scanned. -/
theorem nextToken_of_lexeme {token : Token} {gap lexeme rest : List Char}
    (plain : token.isColor = false) (blank : Gap gap) (spelling : Lexeme token lexeme)
    (longest : token.IsLongest rest) :
    nextToken (gap ++ (lexeme ++ rest)) = .ok ⟨token, lexeme ++ rest, rest⟩ := by
  unfold nextToken
  rw [blank.skipTrivia_append]
  cases spelling with
  | mark symbol =>
    rw [List.cons_append, skipTrivia_other (isSpace_mark symbol) (mark_ne_hash symbol)]
    simp only [Mark.ofChar?_character]
    rfl
  | @identifier first others start word =>
    have wordStart := isWordCharacter_of_isIdentifierStart start
    rw [List.cons_append, skipTrivia_other (isSpace_of_isWordCharacter wordStart)
      (ne_hash_of_isWordCharacter wordStart)]
    simp only [ofChar?_of_isIdentifierStart start, start, if_true, takeWhile_word word longest,
      dropWhile_word word longest]
  | color => cases plain
  | hashColor => cases plain

/-- Whatever token is scanned is spelled; at the end of the input an ending is left. -/
theorem exists_lexeme_of_nextToken {text : List Char} {piece : Piece Token}
    (scanned : nextToken text = .ok piece) :
    (piece = ⟨.endOfInput, [], []⟩ ∧ Ending text) ∨
      (Spelled text piece ∧ piece.value.isColor = false ∧ piece.value ≠ .endOfInput) := by
  rcases exists_gap_of_skipTrivia text with ⟨gap, blank, split⟩ | ⟨ending, none⟩
  · unfold nextToken at scanned
    cases left : skipTrivia false text with
    | nil =>
      rw [left] at scanned split
      injection scanned with same
      rw [split, List.append_nil]
      exact .inl ⟨same.symm, .gap blank⟩
    | cons character rest =>
      rw [left] at scanned split
      rw [split]
      cases read : Mark.ofChar? character with
      | some mark =>
        simp only [read, Except.ok.injEq] at scanned
        subst scanned
        have same := Mark.character_of_ofChar? read
        subst same
        have spelled := @Spelled.intro (.mark mark) gap _ rest blank (.mark mark) trivial
        exact .inr ⟨spelled, rfl, by simp⟩
      | none =>
        simp only [read] at scanned
        split at scanned
        · next start =>
          injection scanned with same
          subst same
          have whole := List.takeWhile_append_dropWhile (p := isWordCharacter) (l := rest)
          have word := List.all_eq_true.mp (List.all_takeWhile (p := isWordCharacter) (l := rest))
          have spelled := @Spelled.intro (.identifier _) gap _ _ blank (.identifier start word)
            (wordEnds_dropWhile rest)
          rw [List.cons_append, whole] at spelled
          exact .inr ⟨spelled, rfl, by simp⟩
        · cases scanned
  · unfold nextToken at scanned
    rw [none] at scanned
    injection scanned with same
    exact .inl ⟨same.symm, ending⟩

theorem skipSpace_append {gap : List Char}
    (spaces : ∀ character ∈ gap, isSpace character = true) (rest : List Char) :
    skipSpace (gap ++ rest) = skipSpace rest :=
  List.dropWhile_append_of_pos spaces

/-- A spelled colour is scanned. -/
theorem nextColor_of_lexeme {text : String} {gap lexeme rest : List Char}
    (spaces : ∀ character ∈ gap, isSpace character = true)
    (spelling : Lexeme (.color text) lexeme) (longest : WordEnds rest) :
    nextColor (gap ++ (lexeme ++ rest)) = some ⟨text, lexeme ++ rest, rest⟩ ∧ text ≠ "" := by
  unfold nextColor
  rw [skipSpace_append spaces]
  cases spelling with
  | color nonempty word =>
    obtain ⟨first, others, rfl⟩ := List.exists_cons_of_ne_nil nonempty
    have wordStart := word first List.mem_cons_self
    have kept : skipSpace (first :: others ++ rest) = first :: others ++ rest := by
      simp [skipSpace, isSpace_of_isWordCharacter wordStart]
    rw [kept]
    split
    · next none => simp at none
    · next hash =>
      rw [List.cons_append, List.cons.injEq] at hash
      exact absurd hash.1 (ne_hash_of_isWordCharacter wordStart)
    · refine ⟨?_, by simp [← String.toList_inj]⟩
      rw [takeWhile_word word longest, dropWhile_word word longest]
  | hashColor word =>
    have kept : ∀ more, skipSpace ('#' :: more) = '#' :: more := by
      intro more
      simp [skipSpace, isSpace_hash]
    rw [List.cons_append, kept]
    refine ⟨?_, by simp [← String.toList_inj]⟩
    simp only [takeWhile_word word longest, dropWhile_word word longest]

/-- A colour that is scanned and has characters is spelled. -/
theorem exists_lexeme_of_nextColor {text : List Char} {piece : Piece String}
    (scanned : nextColor text = some piece) (nonempty : piece.value ≠ "") :
    Spelled text ⟨.color piece.value, piece.start, piece.rest⟩ := by
  have split := List.takeWhile_append_dropWhile (p := isSpace) (l := text)
  have spaces := List.all_eq_true.mp (List.all_takeWhile (p := isSpace) (l := text))
  unfold nextColor at scanned
  split at scanned
  · cases scanned
  · next rest left =>
    injection scanned with same
    subst same
    have whole := List.takeWhile_append_dropWhile (p := isWordCharacter) (l := rest)
    have word := List.all_eq_true.mp (List.all_takeWhile (p := isWordCharacter) (l := rest))
    have spelled := @Spelled.intro (.color _) _ _ _ spaces (.hashColor word)
      (wordEnds_dropWhile rest)
    rw [List.cons_append, whole, ← left, skipSpace, split] at spelled
    rw [← left]
    exact spelled
  · injection scanned with same
    subst same
    have whole := List.takeWhile_append_dropWhile (p := isWordCharacter) (l := skipSpace text)
    have word := List.all_eq_true.mp
      (List.all_takeWhile (p := isWordCharacter) (l := skipSpace text))
    have taken : (skipSpace text).takeWhile isWordCharacter ≠ [] := by
      intro none
      apply nonempty
      simp only [none]
    have spelled := @Spelled.intro (.color _) _ _ _ spaces (.color taken word)
      (wordEnds_dropWhile (skipSpace text))
    rw [whole, skipSpace, split] at spelled
    exact spelled

end Scan

/-! ## Reading lexemes -/

namespace Stage

/-- **A spelled token is read** at a stage that asks for a colour exactly if the token
is one. -/
theorem readToken_of_lexeme {stage : Stage} {text : List Char} {piece : Piece Token}
    (spelled : Spelled text piece) (mode : piece.value.isColor = stage.expectsColor) :
    stage.readToken text = .ok piece := by
  obtain ⟨before, spelling, longest⟩ := spelled
  unfold readToken
  rw [← mode]
  cases spelling with
  | mark symbol => exact Scan.nextToken_of_lexeme rfl before (.mark symbol) longest
  | identifier start word =>
    exact Scan.nextToken_of_lexeme rfl before (.identifier start word) longest
  | color nonempty word =>
    obtain ⟨scanned, filled⟩ := Scan.nextColor_of_lexeme before (.color nonempty word) longest
    simp only [Token.isColor, if_true, scanned, filled, if_false]
  | hashColor word =>
    obtain ⟨scanned, filled⟩ := Scan.nextColor_of_lexeme before (.hashColor word) longest
    simp only [Token.isColor, if_true, scanned, filled, if_false]

/-- **Whatever token is read is spelled**, if it is a colour exactly where the stage
asks for one. -/
theorem exists_lexeme_of_readToken {stage : Stage} {text : List Char} {piece : Piece Token}
    (read : stage.readToken text = .ok piece) (token : piece.value ≠ .endOfInput)
    (mode : piece.value.isColor = stage.expectsColor) : Spelled text piece := by
  unfold readToken at read
  split at read
  · next expected =>
    rw [expected] at mode
    split at read
    · injection read with same
      subst same
      exact absurd rfl token
    · next colored scanned =>
      split at read
      · rcases Scan.exists_lexeme_of_nextToken read with ⟨ended, _⟩ | ⟨_, plain, _⟩
        · rw [ended] at token
          exact absurd rfl token
        · rw [plain] at mode
          cases mode
      · next nonempty =>
        injection read with same
        subst same
        exact Scan.exists_lexeme_of_nextColor scanned nonempty
  · rcases Scan.exists_lexeme_of_nextToken read with ⟨ended, _⟩ | ⟨spelled, _, _⟩
    · rw [ended] at token
      exact absurd rfl token
    · exact spelled

/-- Between two rules an ending, and nothing else, is read as the end of the input. -/
theorem readToken_between_eq_endOfInput_iff {text : List Char} :
    (∃ piece, between.readToken text = .ok piece ∧ piece.value = .endOfInput) ↔
      Ending text := by
  constructor
  · rintro ⟨piece, read, ended⟩
    rcases Scan.exists_lexeme_of_nextToken read with ⟨_, ending⟩ | ⟨_, _, token⟩
    · exact ending
    · exact absurd ended token
  · intro ending
    refine ⟨⟨.endOfInput, [], []⟩, ?_, rfl⟩
    simp [readToken, expectsColor, Scan.nextToken, ending.skipTrivia_eq]

end Stage

end TreeStyle
