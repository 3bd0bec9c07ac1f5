import TreeStyle.Proofs.Source.Continuation
import TreeStyle.Stylesheet.Lexer

/-!
# Tilings of a source

A lexer that is asked for token after token hands out a tiling of its source: the tokens
stand one behind the other, a gap of blanks and comments stands in front of each, and
behind the last one the source ends or has a stray character (`Tiles`).  A text has just
one tiling, and it is found by scanning.  So nothing of a source is lost, read twice or
split.

Main statements: `Tiles.tokens_eq`, `Lexer.drains_iff`, `Tiles.ordered` and
`Tiles.exists_gap`.
-/

namespace TreeStyle

set_option autoImplicit false

/-! ## Tilings -/

/-- The tokens of a text from the first to the last, which is the end of the input unless a
stray character breaks the text off. -/
inductive Tiles : List Char → List (Piece Token) → Option Scan.Stray → Prop where
  | ended {text : List Char} (ending : Ending text) : Tiles text [⟨.endOfInput, [], []⟩] none
  | stray {gap rest : List Char} {character : Char} (blank : Gap gap)
      (isStray : Scan.IsStray character) :
      Tiles (gap ++ character :: rest) [] (some ⟨character, character :: rest⟩)
  | token {text : List Char} {piece : Piece Token} {pieces : List (Piece Token)}
      {fault : Option Scan.Stray} (spelled : Spelled text piece)
      (plain : piece.value.isColor = false) (more : Tiles piece.rest pieces fault) :
      Tiles text (piece :: pieces) fault

theorem Lexeme.text_eq {token : Token} {lexeme : List Char} (spelling : Lexeme token lexeme) :
    token.text.toList = lexeme := by
  cases spelling with
  | mark symbol => exact String.toList_singleton symbol.character
  | _ => exact String.toList_ofList

/-- A token other than a colour stands behind a gap. -/
theorem Spelled.exists_gap {text : List Char} {piece : Piece Token} (spelled : Spelled text piece)
    (plain : piece.value.isColor = false) :
    ∃ gap lexeme, Gap gap ∧ Lexeme piece.value lexeme ∧ text = gap ++ piece.start ∧
      piece.start = lexeme ++ piece.rest ∧ piece.value.IsLongest piece.rest := by
  obtain @⟨token, gap, lexeme, rest, before, spelling, longest⟩ := spelled
  refine ⟨gap, lexeme, ?_, spelling, rfl, rfl, longest⟩
  cases spelling with
  | mark | identifier => exact before
  | color | hashColor => cases plain

/-- The end of the input is no token that has a spelling. -/
theorem Spelled.ne_endOfInput {text : List Char} {piece : Piece Token}
    (spelled : Spelled text piece) : piece.value ≠ .endOfInput := by
  obtain ⟨_, spelling, _⟩ := spelled
  cases spelling <;> exact Token.noConfusion

/-! ## Handing out tokens -/

namespace Lexer

theorem tokens_of_stray {text : List Char} {stray : Scan.Stray}
    (scanned : Scan.nextToken text = .error stray) : tokens text = ([], some stray) := by
  rw [tokens]
  split
  · next other found =>
    rw [scanned] at found
    cases found
    rfl
  · next piece found =>
    rw [scanned] at found
    cases found

theorem tokens_of_ok {text : List Char} {piece : Piece Token}
    (scanned : Scan.nextToken text = .ok piece) :
    tokens text =
      if piece.value = .endOfInput then ([piece], none)
      else (piece :: (tokens piece.rest).1, (tokens piece.rest).2) := by
  rw [tokens]
  split
  · next stray found =>
    rw [scanned] at found
    cases found
  · next other found =>
    rw [scanned] at found
    cases found
    simp only [dite_eq_ite]

end Lexer

/-- **A text has one tiling**, the one that is scanned. -/
theorem Tiles.tokens_eq {text : List Char} {pieces : List (Piece Token)}
    {fault : Option Scan.Stray} (tiles : Tiles text pieces fault) :
    Lexer.tokens text = (pieces, fault) := by
  induction tiles with
  | @ended text ending =>
    have scanned : Scan.nextToken text = .ok ⟨.endOfInput, [], []⟩ := by
      rw [Scan.nextToken, ending.skipTrivia_eq]
    rw [Lexer.tokens_of_ok scanned, if_pos rfl]
  | stray blank isStray =>
    exact Lexer.tokens_of_stray
      (Scan.nextToken_eq_error_iff.mpr ⟨_, _, _, blank, isStray, rfl, rfl⟩)
  | token spelled plain _ ih =>
    have token := spelled.ne_endOfInput
    obtain ⟨gap, lexeme, blank, spelling, split, start, longest⟩ := spelled.exists_gap plain
    have scanned := Scan.nextToken_of_lexeme plain blank spelling longest
    rw [← start, ← split] at scanned
    rw [Lexer.tokens_of_ok scanned, if_neg token, ih]

theorem tiles_tokens (text : List Char) :
    Tiles text (Lexer.tokens text).1 (Lexer.tokens text).2 := by
  -- A token that is scanned leaves less of the text.
  induction size : text.length using Nat.strongRecOn generalizing text with
  | ind size ih =>
    cases scanned : Scan.nextToken text with
    | error stray =>
      obtain ⟨gap, character, rest, blank, isStray, rfl, rfl⟩ :=
        Scan.nextToken_eq_error_iff.mp scanned
      rw [Lexer.tokens_of_stray scanned]
      exact .stray blank isStray
    | ok piece =>
      rw [Lexer.tokens_of_ok scanned]
      rcases Scan.exists_lexeme_of_nextToken scanned with
        ⟨rfl, ending⟩ | ⟨spelled, plain, token⟩
      · exact .ended ending
      · have shorter := Scan.length_rest_nextToken_lt scanned token
        rw [if_neg token]
        exact .token spelled plain (ih piece.rest.length (by omega) piece.rest rfl)

namespace Lexer

/-- What a lexer hands out if its next token is taken again and again, up to the end of the
input or an error. -/
inductive Drains : Lexer → List (Piece Token) → Option LexerError → Prop where
  | ended {lexer after : Lexer} {piece : Piece Token} (taken : lexer.next = (.ok piece, after))
      (last : piece.value = .endOfInput) : Drains lexer [piece] none
  | failed {lexer after : Lexer} {error : LexerError} (taken : lexer.next = (.error error, after)) :
      Drains lexer [] (some error)
  | token {lexer after : Lexer} {piece : Piece Token} {pieces : List (Piece Token)}
      {fault : Option LexerError} (taken : lexer.next = (.ok piece, after))
      (token : piece.value ≠ .endOfInput) (more : Drains after pieces fault) :
      Drains lexer (piece :: pieces) fault

section Idle

variable {lexer after : Lexer} (idle : lexer.pending = none)
include idle

/-- A lexer with nothing pending scans for its next token. -/
theorem next_of_idle :
    lexer.next =
      match Scan.nextToken lexer.rest with
      | .ok piece => (.ok piece, { lexer with rest := piece.rest })
      | .error stray => (.error (.stray stray), { lexer with rest := stray.start }) := by
  obtain ⟨source, rest, pending⟩ := lexer
  obtain rfl : pending = none := idle
  rw [next, peek]
  cases Scan.nextToken rest <;> rfl

theorem next_eq_ok_iff {piece : Piece Token} :
    lexer.next = (.ok piece, after) ↔
      Scan.nextToken lexer.rest = .ok piece ∧ after = { lexer with rest := piece.rest } := by
  rw [next_of_idle idle]
  cases Scan.nextToken lexer.rest with
  | error stray => simp
  | ok other =>
    simp only [Prod.mk.injEq, Except.ok.injEq]
    exact and_congr_right fun same => by rw [same, eq_comm]

theorem next_eq_error_iff {error : LexerError} :
    lexer.next = (.error error, after) ↔
      ∃ stray, Scan.nextToken lexer.rest = .error stray ∧ error = .stray stray ∧
        after = { lexer with rest := stray.start } := by
  rw [next_of_idle idle]
  cases Scan.nextToken lexer.rest with
  | error stray => simp [eq_comm]
  | ok piece => simp

end Idle

theorem Drains.tokens_eq {lexer : Lexer} {pieces : List (Piece Token)}
    {fault : Option LexerError} (drains : lexer.Drains pieces fault)
    (idle : lexer.pending = none) :
    pieces = (tokens lexer.rest).1 ∧ fault = (tokens lexer.rest).2.map LexerError.stray := by
  induction drains with
  | ended taken last =>
    obtain ⟨scanned, -⟩ := (next_eq_ok_iff idle).mp taken
    rw [tokens_of_ok scanned, if_pos last]
    exact ⟨rfl, rfl⟩
  | failed taken =>
    obtain ⟨stray, scanned, rfl, -⟩ := (next_eq_error_iff idle).mp taken
    rw [tokens_of_stray scanned]
    exact ⟨rfl, rfl⟩
  | token taken token _ ih =>
    obtain ⟨scanned, rfl⟩ := (next_eq_ok_iff idle).mp taken
    obtain ⟨rfl, rfl⟩ := ih idle
    rw [tokens_of_ok scanned, if_neg token]
    exact ⟨rfl, rfl⟩

/-- Each token that is taken leaves less of the text, so an end is reached. -/
theorem drains_tokens {lexer : Lexer} (idle : lexer.pending = none) :
    lexer.Drains (tokens lexer.rest).1 ((tokens lexer.rest).2.map LexerError.stray) := by
  induction size : lexer.rest.length using Nat.strongRecOn generalizing lexer with
  | ind size ih =>
    cases scanned : Scan.nextToken lexer.rest with
    | error stray =>
      rw [tokens_of_stray scanned]
      exact .failed ((next_eq_error_iff idle).mpr ⟨stray, scanned, rfl, rfl⟩)
    | ok piece =>
      have taken := (next_eq_ok_iff idle).mpr ⟨scanned, rfl⟩
      rw [tokens_of_ok scanned]
      by_cases last : piece.value = .endOfInput
      · rw [if_pos last]
        exact .ended taken last
      · have shorter := Scan.length_rest_nextToken_lt scanned last
        have further := @ih piece.rest.length (by omega) { lexer with rest := piece.rest } idle rfl
        rw [if_neg last]
        exact .token taken last further

/-- **A lexer can be drained**, and hands out the tokens of what it has not scanned. -/
theorem drains_iff {lexer : Lexer} (idle : lexer.pending = none) {pieces : List (Piece Token)}
    {fault : Option LexerError} :
    lexer.Drains pieces fault ↔
      pieces = (tokens lexer.rest).1 ∧ fault = (tokens lexer.rest).2.map LexerError.stray := by
  constructor
  · exact fun drains => drains.tokens_eq idle
  · rintro ⟨rfl, rfl⟩
    exact drains_tokens idle

end Lexer

/-! ## Spans -/

namespace Tiles

variable {text : List Char} {pieces : List (Piece Token)} {fault : Option Scan.Stray}

/-- A token stands at a place of the text, and is followed by what is left there. -/
theorem start_eq (tiles : Tiles text pieces fault) :
    ∀ piece ∈ pieces, piece.start <:+ text ∧
      piece.start = piece.value.text.toList ++ piece.rest := by
  induction tiles with
  | ended =>
    intro piece listed
    obtain rfl := List.mem_singleton.mp listed
    exact ⟨List.nil_suffix, rfl⟩
  | stray => exact fun piece listed => absurd listed List.not_mem_nil
  | @token text first pieces fault spelled plain _ ih =>
    obtain ⟨gap, lexeme, _, spelling, split, start, _⟩ := spelled.exists_gap plain
    have behind : first.rest <:+ text := by
      rw [split, start]
      exact (List.suffix_append lexeme first.rest).trans (List.suffix_append gap _)
    intro piece listed
    rcases List.mem_cons.mp listed with rfl | later
    · exact ⟨⟨gap, split.symm⟩, by rw [spelling.text_eq, start]⟩
    · exact ⟨(ih piece later).1.trans behind, (ih piece later).2⟩

/-- **Tokens do not overlap.**  Each has characters, and the next ones stand behind it. -/
theorem ordered (tiles : Tiles text pieces fault) :
    pieces.Pairwise fun first second =>
      first.rest.length < first.start.length ∧ second.start <:+ first.rest := by
  induction tiles with
  | ended => exact List.pairwise_singleton _ _
  | stray => exact .nil
  | token spelled plain more ih =>
    obtain ⟨gap, lexeme, _, spelling, _, start, _⟩ := spelled.exists_gap plain
    refine .cons (fun second later => ⟨?_, (more.start_eq second later).1⟩) ih
    have characters := List.length_pos_iff.mpr spelling.ne_nil
    rw [start, List.length_append]
    omega

/-- An identifier is as long as it can be. -/
theorem wordEnds_identifier (tiles : Tiles text pieces fault) {piece : Piece Token}
    (listed : piece ∈ pieces) {name : String} (word : piece.value = .identifier name) :
    WordEnds piece.rest := by
  induction tiles with
  | ended =>
    obtain rfl := List.mem_singleton.mp listed
    cases word
  | stray => cases listed
  | token spelled plain _ ih =>
    rcases List.mem_cons.mp listed with rfl | later
    · obtain ⟨_, _, _, _, _, _, longest⟩ := spelled.exists_gap plain
      rw [word] at longest
      exact longest
    · exact ih later

end Tiles

/-! ## Gaps between tokens -/

/-- What is left of a text behind some of its tokens. -/
def remainderBehind (text : List Char) (pieces : List (Piece Token)) : List Char :=
  (pieces.getLast?.map Piece.rest).getD text

theorem remainderBehind_cons (text : List Char) (piece : Piece Token)
    (pieces : List (Piece Token)) :
    remainderBehind text (piece :: pieces) = remainderBehind piece.rest pieces := by
  rw [remainderBehind, remainderBehind, List.getLast?_cons]
  cases pieces.getLast? <;> rfl

/-- What may stand in front of a token other than a colour: the end of the input takes an
unfinished comment as well. -/
def Token.ComesBehind (gap : List Char) : Token → Prop
  | .endOfInput => Ending gap
  | _ => Gap gap

namespace Tiles

variable {text : List Char} {pieces : List (Piece Token)} {fault : Option Scan.Stray}

/-- **Between tokens there are gaps.** -/
theorem exists_gap (tiles : Tiles text pieces fault) {before after : List (Piece Token)}
    {piece : Piece Token} (split : pieces = before ++ piece :: after) :
    ∃ gap, remainderBehind text before = gap ++ piece.start ∧ piece.value.ComesBehind gap := by
  induction tiles generalizing before with
  | @ended text ending =>
    cases before with
    | nil =>
      obtain ⟨rfl, rfl⟩ := List.cons.inj split
      exact ⟨text, (List.append_nil text).symm, ending⟩
    | cons => simp at split
  | stray => exact absurd split (by simp)
  | @token text first pieces fault spelled plain _ ih =>
    cases before with
    | nil =>
      obtain ⟨rfl, rfl⟩ := List.cons.inj split
      obtain ⟨gap, _, blank, spelling, whole, _, _⟩ := spelled.exists_gap plain
      refine ⟨gap, whole, ?_⟩
      cases value : first.value with
      | endOfInput => exact absurd value spelled.ne_endOfInput
      | _ => exact blank
    | cons other before =>
      obtain ⟨rfl, others⟩ := List.cons.inj split
      rw [remainderBehind_cons]
      exact ih others

/-- A stray character stands behind a gap, and without one the tokens end with the end of
the input. -/
theorem exists_gap_of_fault (tiles : Tiles text pieces fault) :
    match fault with
    | none => ∃ before, pieces = before ++ [⟨.endOfInput, [], []⟩] ∧
        ∀ piece ∈ before, piece.value ≠ .endOfInput
    | some culprit => (∃ gap, remainderBehind text pieces = gap ++ culprit.start ∧ Gap gap) ∧
        ∀ piece ∈ pieces, piece.value ≠ .endOfInput := by
  induction tiles with
  | ended => exact ⟨[], rfl, fun piece listed => absurd listed List.not_mem_nil⟩
  | @stray gap rest character blank _ =>
    exact ⟨⟨gap, rfl, blank⟩, fun piece listed => absurd listed List.not_mem_nil⟩
  | @token text first pieces fault spelled plain _ ih =>
    have token := spelled.ne_endOfInput
    cases fault with
    | none =>
      obtain ⟨before, rfl, others⟩ := ih
      exact ⟨first :: before, rfl, List.forall_mem_cons.mpr ⟨token, others⟩⟩
    | some culprit =>
      obtain ⟨behind, others⟩ := ih
      exact ⟨(remainderBehind_cons text first pieces).symm ▸ behind,
        List.forall_mem_cons.mpr ⟨token, others⟩⟩

end Tiles

end TreeStyle
