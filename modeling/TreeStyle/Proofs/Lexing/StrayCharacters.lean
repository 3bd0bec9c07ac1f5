import Mathlib.Data.List.DropRight
import TreeStyle.Proofs.Lexing.Tiling

/-!
# Where a tiling breaks off

The place where the tokens of a source break off can be told without the scanner.  It is the
first character that starts neither a gap nor a token, stands behind no `#` of its line, and
belongs to no token (`StraysAt`).  Every other character in front of it is a blank, or it
stands in a comment or in a token.

Main statements: `Tiles.fault_eq_some_iff` and `Lexer.drains_tiles`.
-/

namespace TreeStyle

set_option autoImplicit false

/-! ## Comments -/

/-- Whether no comment is open behind a text: there is no `#` in its last line. -/
def Uncommented (front : List Char) : Prop := '#' ∉ front.rtakeWhile (· != '\n')

theorem uncommented_nil : Uncommented [] := List.not_mem_nil

theorem uncommented_concat_iff {front : List Char} {character : Char} :
    Uncommented (front ++ [character]) ↔
      character = '\n' ∨ Uncommented front ∧ character ≠ '#' := by
  rw [Uncommented, List.rtakeWhile_concat]
  by_cases feed : character = '\n'
  · simp [feed]
  · have other : (character != '\n') = true := bne_iff_ne.mpr feed
    rw [if_pos other, List.mem_append, List.mem_singleton, not_or, or_iff_right feed]
    exact and_congr_right fun _ => ne_comm

/-- A text without a `#` opens no comment. -/
theorem Uncommented.append {front text : List Char} (closed : Uncommented front)
    (free : ∀ character ∈ text, character ≠ '#') : Uncommented (front ++ text) := by
  induction text using List.reverseRecOn with
  | nil => rwa [List.append_nil]
  | append_singleton text character ih =>
    obtain ⟨free, other⟩ := List.forall_mem_append.mp free
    rw [← List.append_assoc]
    exact uncommented_concat_iff.mpr (.inr ⟨ih free, other character List.mem_cons_self⟩)

theorem not_uncommented_of_line {line : List Char} (oneLine : '\n' ∉ line) (front : List Char) :
    ¬Uncommented (front ++ '#' :: line) := by
  induction line using List.reverseRecOn with
  | nil => simp [uncommented_concat_iff]
  | append_singleton line character ih =>
    rw [List.mem_append, List.mem_singleton, not_or] at oneLine
    rw [← List.cons_append, ← List.append_assoc, uncommented_concat_iff, not_or]
    exact ⟨Ne.symm oneLine.2, fun both => ih oneLine.1 both.1⟩

/-- A gap opens no comment that it does not close. -/
theorem Gap.uncommented {gap : List Char} (blank : Gap gap) {front : List Char}
    (closed : Uncommented front) : Uncommented (front ++ gap) := by
  induction blank generalizing front with
  | nil => rwa [List.append_nil]
  | @space character rest blank _ ih =>
    have other : character ≠ '#' := by
      rintro rfl
      cases blank
    rw [← List.singleton_append, ← List.append_assoc]
    exact ih (uncommented_concat_iff.mpr (.inr ⟨closed, other⟩))
  | @comment line rest _ _ ih =>
    have split : front ++ '#' :: (line ++ '\n' :: rest) =
        (front ++ '#' :: line ++ ['\n']) ++ rest := by simp
    rw [split]
    exact ih (uncommented_concat_iff.mpr (.inl rfl))

/-! ## Stray characters -/

/-- A character that starts nothing, behind a text that leaves no comment open. -/
structure IsLoose (front : List Char) (character : Char) : Prop where
  isStray : Scan.IsStray character
  uncommented : Uncommented front

/-- A character behind a first part of a text is a part of it or stands further on. -/
theorem exists_place_of_append_eq {part rest before after : List Char} {character : Char}
    (split : part ++ rest = before ++ character :: after) :
    (∃ inside, part = before ++ character :: inside) ∨
      ∃ further, before = part ++ further ∧ rest = further ++ character :: after := by
  rcases List.append_eq_append_iff.mp split with ⟨further, rfl, rfl⟩ | ⟨inside, rfl, cut⟩
  · exact .inr ⟨further, rfl, rfl⟩
  · cases inside with
    | nil => exact .inr ⟨[], (List.append_nil _).symm.trans (List.append_nil _).symm, cut.symm⟩
    | cons first inside =>
      obtain ⟨rfl, -⟩ := List.cons.inj cut
      exact .inl ⟨inside, rfl⟩

/-- No character of a gap is loose: it is a blank, or it starts a comment or stands in one. -/
theorem Gap.not_isLoose {gap before after : List Char} {character : Char} (blank : Gap gap)
    (split : gap = before ++ character :: after) (front : List Char) :
    ¬IsLoose (front ++ before) character := by
  rintro ⟨isStray, closed⟩
  induction blank generalizing front before with
  | nil => simp at split
  | @space first rest blank _ ih =>
    cases before with
    | nil =>
      obtain ⟨rfl, -⟩ := List.cons.inj split
      rw [isStray.solid] at blank
      cases blank
    | cons other before =>
      obtain ⟨rfl, later⟩ := List.cons.inj split
      exact ih later (front ++ [first]) (by simpa using closed)
  | @comment line rest oneLine _ ih =>
    cases before with
    | nil =>
      obtain ⟨rfl, -⟩ := List.cons.inj split
      exact isStray.plain rfl
    | cons other before =>
      obtain ⟨rfl, later⟩ := List.cons.inj split
      rcases exists_place_of_append_eq later with ⟨inside, rfl⟩ | ⟨further, rfl, behind⟩
      · refine not_uncommented_of_line ?_ front closed
        exact fun feed => oneLine (List.mem_append_left _ feed)
      · cases further with
        | nil =>
          obtain ⟨rfl, -⟩ := List.cons.inj behind
          exact absurd isStray.solid (by decide)
        | cons feed further =>
          obtain ⟨rfl, beyond⟩ := List.cons.inj behind
          exact ih beyond (front ++ '#' :: line ++ ['\n']) (by simpa using closed)

theorem Ending.not_isLoose {text before after : List Char} {character : Char}
    (ending : Ending text) (split : text = before ++ character :: after) (front : List Char) :
    ¬IsLoose (front ++ before) character := by
  cases ending with
  | gap blank => exact blank.not_isLoose split front
  | @comment gap line blank oneLine =>
    rcases exists_place_of_append_eq split with ⟨inside, same⟩ | ⟨further, rfl, behind⟩
    · exact blank.not_isLoose same front
    · rintro ⟨isStray, closed⟩
      cases further with
      | nil =>
        obtain ⟨rfl, -⟩ := List.cons.inj behind
        exact isStray.plain rfl
      | cons hash further =>
        obtain ⟨rfl, rfl⟩ := List.cons.inj behind
        rw [← List.append_assoc] at closed
        refine not_uncommented_of_line ?_ (front ++ gap) closed
        exact fun feed => oneLine (List.mem_append_left _ feed)

/-- A token other than a colour opens no comment. -/
theorem Lexeme.ne_hash {token : Token} {lexeme : List Char} (spelling : Lexeme token lexeme)
    (plain : token.isColor = false) : ∀ character ∈ lexeme, character ≠ '#' := by
  cases spelling with
  | mark symbol => exact List.forall_mem_singleton.mpr (Scan.mark_ne_hash symbol)
  | identifier start word =>
    refine List.forall_mem_cons.mpr ⟨?_, fun character listed => ?_⟩
    · exact Scan.ne_hash_of_isWordCharacter (Scan.isWordCharacter_of_isIdentifierStart start)
    · exact Scan.ne_hash_of_isWordCharacter (word character listed)
  | color | hashColor => cases plain

/-- Whether a remainder of a text starts within a token. -/
def Piece.Covers (piece : Piece Token) (remainder : List Char) : Prop :=
  piece.rest.length < remainder.length ∧ remainder.length ≤ piece.start.length

namespace Tiles

variable {text : List Char} {pieces : List (Piece Token)} {fault : Option Scan.Stray}

/-- **What is loose and belongs to no token breaks the text off**, unless it was broken off
before. -/
theorem exists_stray_of_isLoose (tiles : Tiles text pieces fault) {front before after : List Char}
    {character : Char} (split : text = before ++ character :: after)
    (loose : IsLoose (front ++ before) character)
    (uncovered : ∀ piece ∈ pieces, ¬piece.Covers (character :: after)) :
    ∃ culprit, fault = some culprit ∧ character :: after <:+ culprit.start := by
  induction tiles generalizing front before with
  | ended ending => exact absurd loose (ending.not_isLoose split front)
  | @stray gap rest other blank =>
    rcases exists_place_of_append_eq split with ⟨inside, same⟩ | ⟨further, rfl, behind⟩
    · exact absurd loose (blank.not_isLoose same front)
    · exact ⟨_, rfl, further, behind.symm⟩
  | @token text piece pieces fault spelled plain _ ih =>
    obtain ⟨gap, lexeme, blank, spelling, whole, start, _⟩ := spelled.exists_gap plain
    obtain ⟨here, later⟩ := List.forall_mem_cons.mp uncovered
    rw [whole] at split
    rcases exists_place_of_append_eq split with ⟨inside, same⟩ | ⟨further, rfl, behind⟩
    · exact absurd loose (blank.not_isLoose same front)
    · rw [start] at behind
      rcases exists_place_of_append_eq behind with ⟨inside, rfl⟩ | ⟨beyond, rfl, rest⟩
      · refine absurd ⟨?_, ?_⟩ here
        · have sizes := congrArg List.length behind
          simp only [List.length_append, List.length_cons] at sizes ⊢
          omega
        · rw [start, behind, List.length_append]
          exact Nat.le_add_left _ _
      · refine @ih (front ++ (gap ++ lexeme)) beyond rest ?_ later
        simpa using loose

/-- **A text is broken off by what is loose and belongs to no token.** -/
theorem isLoose_of_stray {culprit : Scan.Stray} (tiles : Tiles text pieces (some culprit))
    {front : List Char} (closed : Uncommented front) :
    ∃ before after, text = before ++ culprit.character :: after ∧
      culprit.start = culprit.character :: after ∧
      IsLoose (front ++ before) culprit.character ∧
      ∀ piece ∈ pieces, ¬piece.Covers culprit.start := by
  generalize same : some culprit = fault at tiles
  induction tiles generalizing front with
  | ended => cases same
  | @stray gap rest character blank isStray =>
    cases same
    refine ⟨gap, rest, rfl, rfl, ⟨isStray, blank.uncommented closed⟩, ?_⟩
    exact fun piece listed => absurd listed List.not_mem_nil
  | @token text piece pieces fault spelled plain _ ih =>
    obtain ⟨gap, lexeme, blank, spelling, whole, start, _⟩ := spelled.exists_gap plain
    have behind := (blank.uncommented closed).append (spelling.ne_hash plain)
    obtain ⟨before, after, rest, begins, loose, uncovered⟩ := ih behind same
    refine ⟨gap ++ (lexeme ++ before), after, ?_, begins, ?_,
      List.forall_mem_cons.mpr ⟨?_, uncovered⟩⟩
    · rw [whole, start, rest, List.append_assoc, List.append_assoc]
    · simpa using loose
    · rintro ⟨inside, -⟩
      rw [rest, begins, List.length_append] at inside
      omega

/-- Only the end of the input is handed out as such, and it is behind all else. -/
theorem eq_of_endOfInput (tiles : Tiles text pieces fault) {piece : Piece Token}
    (listed : piece ∈ pieces) (last : piece.value = .endOfInput) :
    piece = ⟨.endOfInput, [], []⟩ ∧ fault = none := by
  have ends := tiles.exists_gap_of_fault
  cases fault with
  | none =>
    obtain ⟨before, rfl, others⟩ := ends
    rcases List.mem_append.mp listed with earlier | here
    · exact absurd last (others piece earlier)
    · exact ⟨List.mem_singleton.mp here, rfl⟩
  | some culprit => exact absurd last (ends.2 piece listed)

end Tiles

/-! ## Places in a source -/

/-- The index of a character that is loose in a source and belongs to none of the tokens. -/
structure StraysAt (source : List Char) (pieces : List (Piece Token)) (index : Nat)
    (character : Char) : Prop where
  here : source[index]? = some character
  loose : IsLoose (source.take index) character
  uncovered : ∀ piece ∈ pieces,
    ¬((Lexer.ofCharacters source).indexOf piece.start ≤ index ∧
      index < (Lexer.ofCharacters source).indexOf piece.rest)

/-- A remainder is as far from the start of its source as it is short. -/
theorem Piece.covers_iff {source remainder : List Char} {index : Nat}
    (size : source.length = index + remainder.length) (piece : Piece Token) :
    piece.Covers remainder ↔ (Lexer.ofCharacters source).indexOf piece.start ≤ index ∧
      index < (Lexer.ofCharacters source).indexOf piece.rest := by
  simp only [Piece.Covers, Lexer.ofCharacters, Lexer.indexOf]
  omega

theorem straysAt_iff {source : List Char} {pieces : List (Piece Token)} {index : Nat}
    {character : Char} :
    StraysAt source pieces index character ↔ ∃ before after,
      source = before ++ character :: after ∧ before.length = index ∧
        IsLoose before character ∧ ∀ piece ∈ pieces, ¬piece.Covers (character :: after) := by
  constructor
  · rintro ⟨here, loose, uncovered⟩
    obtain ⟨bound, found⟩ := List.getElem?_eq_some_iff.mp here
    have split : source = source.take index ++ character :: source.drop (index + 1) := by
      rw [← found, List.getElem_cons_drop, List.take_append_drop]
    have size : (source.take index).length = index := List.length_take_of_le (Nat.le_of_lt bound)
    have sizes := congrArg List.length split
    rw [List.length_append, size] at sizes
    exact ⟨_, _, split, size, loose,
      fun piece listed covers => uncovered piece listed ((Piece.covers_iff sizes piece).mp covers)⟩
  · rintro ⟨before, after, rfl, rfl, loose, uncovered⟩
    refine ⟨by simp, ?_, fun piece listed covered => ?_⟩
    · rwa [List.take_left]
    · exact uncovered piece listed ((Piece.covers_iff List.length_append piece).mpr covered)

namespace Tiles

variable {source : List Char} {pieces : List (Piece Token)} {fault : Option Scan.Stray}

/-- The character that breaks a source off is the first one that strays. -/
theorem straysAt_of_stray {culprit : Scan.Stray} (tiles : Tiles source pieces (some culprit)) :
    ∃ index character, culprit = ⟨character, source.drop index⟩ ∧
      StraysAt source pieces index character ∧
        ∀ earlier other, StraysAt source pieces earlier other → index ≤ earlier := by
  obtain ⟨before, after, split, begins, loose, uncovered⟩ := tiles.isLoose_of_stray uncommented_nil
  refine ⟨before.length, culprit.character, ?_, ?_, ?_⟩
  · obtain ⟨character, start⟩ := culprit
    rw [split, List.drop_left]
    exact congrArg _ begins
  · exact straysAt_iff.mpr ⟨before, after, split, rfl, loose, begins ▸ uncovered⟩
  · intro earlier other strays
    obtain ⟨front, rest, cut, rfl, otherLoose, outside⟩ := straysAt_iff.mp strays
    have outer : IsLoose ([] ++ front) other := otherLoose
    obtain ⟨_, same, suffix⟩ := tiles.exists_stray_of_isLoose cut outer outside
    obtain rfl := Option.some.inj same
    have shorter := suffix.length_le
    have sizes := congrArg List.length (split.symm.trans cut)
    rw [begins, List.length_cons, List.length_cons] at shorter
    simp only [List.length_append, List.length_cons] at sizes
    omega

/-- **An error arises exactly at the first character that strays.** -/
theorem fault_eq_some_iff (tiles : Tiles source pieces fault) {culprit : Scan.Stray} :
    fault = some culprit ↔ ∃ index character, culprit = ⟨character, source.drop index⟩ ∧
      StraysAt source pieces index character ∧
        ∀ earlier < index, ∀ other, ¬StraysAt source pieces earlier other := by
  constructor
  · rintro rfl
    obtain ⟨index, character, same, strays, first⟩ := tiles.straysAt_of_stray
    exact ⟨index, character, same, strays,
      fun earlier less other also => absurd less (Nat.not_lt.mpr (first earlier other also))⟩
  · rintro ⟨index, character, rfl, strays, first⟩
    obtain ⟨before, after, split, -, loose, uncovered⟩ := straysAt_iff.mp strays
    have outer : IsLoose ([] ++ before) character := loose
    obtain ⟨found, rfl, -⟩ := tiles.exists_stray_of_isLoose split outer uncovered
    obtain ⟨place, other, rfl, also, least⟩ := tiles.straysAt_of_stray
    have same : place = index := by
      rcases Nat.lt_or_eq_of_le (least index character strays) with less | same
      · exact absurd also (first place less other)
      · exact same
    subst same
    have characters := also.here.symm.trans strays.here
    rw [Option.some.inj characters]

end Tiles

theorem Lexer.drop_indexOf {source start : List Char} (suffix : start <:+ source) :
    source.drop ((ofCharacters source).indexOf start) = start :=
  (List.suffix_iff_eq_drop.mp suffix).symm

/-- A shorter remainder stands further on. -/
theorem Lexer.indexOf_le_indexOf {source : List Char} (start rest : List Char)
    (shorter : rest.length ≤ start.length) :
    (ofCharacters source).indexOf start ≤ (ofCharacters source).indexOf rest :=
  Nat.sub_le_sub_left shorter _

/-- A text in a source is as long as the way from its place to the place behind it. -/
theorem Lexer.indexOf_rest {source text rest : List Char} (suffix : text ++ rest <:+ source) :
    (ofCharacters source).indexOf rest =
      (ofCharacters source).indexOf (text ++ rest) + text.length := by
  have within := suffix.length_le
  rw [List.length_append] at within
  simp only [ofCharacters, indexOf, List.length_append]
  omega

namespace Tiles

variable {source : List Char} {pieces : List (Piece Token)} {fault : Option Scan.Stray}
  (tiles : Tiles source pieces fault)
include tiles

/-- **A token is the text of the source at its place**, and as long as its span. -/
theorem text_at {piece : Piece Token} (listed : piece ∈ pieces) :
    source.drop ((Lexer.ofCharacters source).indexOf piece.start) =
        piece.value.text.toList ++ piece.rest ∧
      (Lexer.ofCharacters source).indexOf piece.rest =
        (Lexer.ofCharacters source).indexOf piece.start + piece.value.text.length := by
  obtain ⟨suffix, text⟩ := tiles.start_eq piece listed
  refine ⟨(Lexer.drop_indexOf suffix).trans text, ?_⟩
  rw [text] at suffix ⊢
  exact (Lexer.indexOf_rest suffix).trans (congrArg _ String.length_toList)

/-- **Spans increase**, and do not overlap. -/
theorem spans_ordered :
    pieces.Pairwise fun first second =>
      (Lexer.ofCharacters source).indexOf first.start <
          (Lexer.ofCharacters source).indexOf first.rest ∧
        (Lexer.ofCharacters source).indexOf first.rest ≤
          (Lexer.ofCharacters source).indexOf second.start := by
  refine tiles.ordered.imp_of_mem fun {first second} listed _ apart => ⟨?_, ?_⟩
  · have within := (tiles.start_eq first listed).1.length_le
    exact Nat.sub_lt_sub_left (Nat.lt_of_lt_of_le apart.1 within) apart.1
  · exact Lexer.indexOf_le_indexOf _ _ apart.2.length_le

/-- The tokens of a source that is not broken off end with the end of the input, and only
they do. -/
theorem fault_eq_none_iff :
    fault = none ↔ ∃ before piece, pieces = before ++ [piece] ∧ piece.value = .endOfInput := by
  constructor
  · rintro rfl
    obtain ⟨before, rfl, -⟩ := tiles.exists_gap_of_fault
    exact ⟨before, _, rfl, rfl⟩
  · rintro ⟨before, piece, rfl, last⟩
    exact (tiles.eq_of_endOfInput (List.mem_append_right _ List.mem_cons_self) last).2

/-- No character that may stand in a word comes behind an identifier. -/
theorem isWordCharacter_behind {piece : Piece Token} (listed : piece ∈ pieces) {name : String}
    (word : piece.value = .identifier name) {character : Char}
    (found : source[(Lexer.ofCharacters source).indexOf piece.rest]? = some character) :
    Scan.isWordCharacter character = false := by
  obtain ⟨suffix, text⟩ := tiles.start_eq piece listed
  have behind : piece.rest <:+ source := (text ▸ List.suffix_append _ piece.rest).trans suffix
  refine tiles.wordEnds_identifier listed word character ?_
  rw [← Lexer.drop_indexOf behind, List.head?_drop]
  exact found

end Tiles

/-- **A source is tiled by the tokens that a lexer hands out.**  Taking token after token
comes to an end, with the end of the input at the length of the source or with an error.
Each token is the text of the source at its place, and the next one starts behind it.  The
texts in front of the tokens and of the stray character are gaps, and an unfinished comment
stands at most in front of the end of the input.  No identifier could be longer, and the
error is at the first character that strays. -/
theorem Lexer.drains_tiles (source : List Char) :
    let index := (ofCharacters source).indexOf
    ∃ pieces fault,
      (∀ others error, (ofCharacters source).Drains others error ↔
        others = pieces ∧ error = fault.map LexerError.stray) ∧
      (∀ piece ∈ pieces,
        source.drop (index piece.start) = piece.value.text.toList ++ piece.rest ∧
        index piece.rest = index piece.start + piece.value.text.length) ∧
      (pieces.Pairwise fun first second =>
        index first.start < index first.rest ∧ index first.rest ≤ index second.start) ∧
      (∀ before piece after, pieces = before ++ piece :: after → ∃ gap,
        remainderBehind source before = gap ++ piece.start ∧ piece.value.ComesBehind gap) ∧
      (∀ stray, fault = some stray → ∃ gap,
        remainderBehind source pieces = gap ++ stray.start ∧ Gap gap) ∧
      (fault = none ↔ ∃ before piece, pieces = before ++ [piece] ∧ piece.value = .endOfInput) ∧
      (∀ piece ∈ pieces, piece.value = .endOfInput → index piece.start = source.length) ∧
      (∀ piece ∈ pieces, ∀ name, piece.value = .identifier name →
        ∀ character, source[index piece.rest]? = some character →
          Scan.isWordCharacter character = false) ∧
      ∀ stray, fault = some stray ↔ ∃ place character, stray = ⟨character, source.drop place⟩ ∧
        StraysAt source pieces place character ∧
          ∀ earlier < place, ∀ other, ¬StraysAt source pieces earlier other := by
  intro index
  have tiles := tiles_tokens source
  generalize drained : tokens source = outcome at tiles
  obtain ⟨pieces, fault⟩ := outcome
  refine ⟨pieces, fault, ?_, fun piece => tiles.text_at, tiles.spans_ordered,
    fun before piece after => tiles.exists_gap, ?_, tiles.fault_eq_none_iff, ?_, ?_,
    fun stray => tiles.fault_eq_some_iff⟩
  · intro others error
    rw [drains_iff rfl]
    change others = (tokens source).1 ∧ error = (tokens source).2.map LexerError.stray ↔ _
    rw [drained]
  · rintro stray rfl
    exact tiles.exists_gap_of_fault.1
  · intro piece listed last
    rw [(tiles.eq_of_endOfInput listed last).1]
    rfl
  · exact fun piece listed name word character => tiles.isWordCharacter_behind listed word

end TreeStyle
