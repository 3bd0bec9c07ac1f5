import TreeStyle.Proofs.Grammar.Acceptance
import TreeStyle.Stylesheet.Parser

/-!
# Tokens that stay pending

The functions that read a stylesheet by descent hand one lexer from one to the next, with
a token pending or not.  Wherever they are, the lexer stands at a remainder of the source
(`Lexer.StandsAt`), and what they make of it is what the stages make of the remainder
(`Lexer.Follows`): the same fault interrupts both, and what a function hands on is what a
later stage goes on with.

A loop looks for one more part and leaves a token that starts none pending.  What is known
of that token, and no more than that, is what the next function may rely on.

Main statements: `Lexer.Follows.bind`, `Lexer.expect_follows` and
`Lexer.readSelectors_follows`.
-/

namespace TreeStyle

set_option autoImplicit false

/-- A text has one first token. -/
theorem Scan.nextToken_unique {text : List Char} {piece other : Piece Token}
    (scanned : nextToken text = .ok piece) (again : nextToken text = .ok other) :
    other = piece :=
  Except.ok.inj (again.symm.trans scanned)

theorem Token.ne_endOfInput_of_mark {token : Token} {mark : Mark} (marked : token = .mark mark) :
    token ≠ .endOfInput := by
  rw [marked]
  exact Token.noConfusion

/-- Inside of a rule, the next token opens none. -/
theorem Stage.openedAt_inside {stage : Stage} (inside : stage ≠ .between)
    (opened start : List Char) : stage.openedAt opened start = opened := by
  cases stage with
  | between => exact absurd rfl inside
  | _ => rfl

/-! ## Where a lexer stands -/

namespace Lexer

/-- A lexer stands at a remainder of its source: nothing of it has been looked at, or its
first token is pending. -/
inductive StandsAt (source text : List Char) : Lexer → Prop where
  | idle : StandsAt source text { source, rest := text }
  | looked {piece : Piece Token} (scanned : Scan.nextToken text = .ok piece) :
    StandsAt source text { source, rest := piece.rest, pending := some piece }

variable {source text : List Char} {lexer : Lexer}

/-- Looking finds the first token of the remainder. -/
theorem StandsAt.peek_eq (stands : lexer.StandsAt source text) :
    lexer.peek =
      match Scan.nextToken text with
      | .ok piece => (.ok piece, { source, rest := piece.rest, pending := some piece })
      | .error stray => (.error (.stray stray), { source, rest := stray.start }) := by
  cases stands with
  | idle => rfl
  | looked scanned =>
    rw [scanned]
    rfl

theorem StandsAt.next_eq (stands : lexer.StandsAt source text) :
    lexer.next =
      match Scan.nextToken text with
      | .ok piece => (.ok piece, { source, rest := piece.rest })
      | .error stray => (.error (.stray stray), { source, rest := stray.start }) := by
  rw [next, stands.peek_eq]
  cases Scan.nextToken text <;> rfl

/-! ## Following the stages -/

/-- An attempt follows `read`, what the stages make of a text: it hands on something that
is expected, or both end in the same fault. -/
def Follows {bound : Nat} {Value : Type} (read : Except Fault (List Rule))
    (expected : Value → Lexer → Prop) : Attempt (Taken bound Value) → Prop
  | .ok taken => expected taken.value taken.after
  | .error (.error fault) => read = .error fault
  | .error _ => False

/-- One attempt after another follows if the second one does after what is expected of the
first one. -/
theorem Follows.bind {bound more : Nat} {First Second : Type}
    {read : Except Fault (List Rule)} {expected : First → Lexer → Prop}
    {later : Second → Lexer → Prop} {attempt : Attempt (Taken bound First)}
    {next : Taken bound First → Attempt (Taken more Second)}
    (first : Follows read expected attempt)
    (second : ∀ value after less, expected value after →
      Follows read later (next ⟨value, after, less⟩)) :
    Follows read later (attempt >>= next) := by
  cases attempt with
  | ok taken => exact second _ _ taken.less first
  | error interruption =>
    cases interruption with
    | error fault => exact first
    | _ => exact first.elim

/-- What comes of an attempt that follows: its fault, or what comes of everything expected. -/
theorem Follows.bind_eq {bound : Nat} {First Second : Type} {read : Except Fault (List Rule)}
    {expected : First → Lexer → Prop} {attempt : Attempt (Taken bound First)}
    {next : Taken bound First → Attempt Second} {result : Attempt Second}
    (first : Follows read expected attempt)
    (fails : ∀ fault, read = .error fault → result = .error (.error fault))
    (second : ∀ value after less, expected value after → next ⟨value, after, less⟩ = result) :
    (attempt >>= next) = result := by
  cases attempt with
  | ok taken => exact second _ _ taken.less first
  | error interruption =>
    cases interruption with
    | error fault => exact (fails fault first).symm
    | _ => exact first.elim

theorem Follows.mono {bound : Nat} {Value : Type} {read : Except Fault (List Rule)}
    {expected other : Value → Lexer → Prop} {attempt : Attempt (Taken bound Value)}
    (follows : Follows read expected attempt)
    (weaker : ∀ value after, expected value after → other value after) :
    Follows read other attempt := by
  cases attempt with
  | ok taken => exact weaker _ _ follows
  | error interruption => cases interruption <;> exact follows

/-- The lexer after its first token is taken. -/
def After (source : List Char) (piece : Piece Token) : Lexer := { source, rest := piece.rest }

theorem After.standsAt (source : List Char) (piece : Piece Token) :
    (After source piece).StandsAt source piece.rest := .idle

/-- The lexer that has looked at a token. -/
def Looking (source : List Char) (piece : Piece Token) : Lexer :=
  { source, rest := piece.rest, pending := some piece }

/-! ### Single tokens -/

section Tokens

variable {stage : Stage} {opened : List Char}

theorem readRules_of_nextToken (stage : Stage) (opened : List Char)
    (plain : stage.expectsColor = false) {piece : Piece Token}
    (scanned : Scan.nextToken text = .ok piece) (token : piece.value ≠ .endOfInput) :
    readRules stage opened text =
      match stage.step piece.value with
      | .error cause => .error ⟨cause, piece.start, stage.openedAt opened piece.start⟩
      | .ok (.proceed next) => readRules next (stage.openedAt opened piece.start) piece.rest
      | .ok (.close rule) =>
        match readRules .between [] piece.rest with
        | .ok rules => .ok (rule :: rules)
        | .error fault => .error fault := by
  apply readRules_of_token _ token
  rw [Stage.readToken, plain]
  exact scanned

/-- A look at a token leaves the lexer where it stands, with the token pending. -/
theorem look_follows {noted : Option (List Char)} {read : Except Fault (List Rule)}
    (stands : lexer.StandsAt source text)
    (strays : ∀ stray, Scan.nextToken text = .error stray →
      read = .error ⟨.strayCharacter stray.character, stray.start, noted.getD stray.start⟩) :
    Follows read
      (fun piece after => Scan.nextToken text = .ok piece ∧ after = Looking source piece)
      (lexer.look noted) := by
  have looked := stands.peek_eq
  unfold look
  split
  · next piece after found =>
    rw [found] at looked
    split at looked
    · next scanned =>
      cases looked
      exact ⟨scanned, rfl⟩
    · cases looked
  · next error after found =>
    rw [found] at looked
    split at looked
    · cases looked
    · next stray scanned =>
      cases looked
      exact strays stray scanned

/-- A stage that expects no colour finds the stray character that a look finds. -/
theorem look_follows_stage {noted : Option (List Char)} (stands : lexer.StandsAt source text)
    (plain : stage.expectsColor = false)
    (rule : ∀ start, noted.getD start = stage.openedAt opened start) :
    Follows (readRules stage opened text)
      (fun piece after => Scan.nextToken text = .ok piece ∧ after = Looking source piece)
      (lexer.look noted) := by
  refine look_follows stands fun stray scanned => ?_
  have read : stage.readToken text = .error stray := by
    rw [Stage.readToken, plain]
    exact scanned
  rw [readRules_of_stray read, rule]

/-- Where a first token is known, it can be taken whatever it is. -/
theorem drop_follows (stands : lexer.StandsAt source text) {piece : Piece Token}
    (scanned : Scan.nextToken text = .ok piece) {read : Except Fault (List Rule)} :
    Follows read (fun _ after => after = After source piece) (lexer.drop opened) := by
  have taken := stands.next_eq
  rw [scanned] at taken
  unfold drop
  split
  · next found =>
    rw [found] at taken
    cases taken
    rfl
  · next found =>
    rw [found] at taken
    cases taken

/-- What is known of a token that has been taken, and of the lexer after it. -/
structure Took {Value : Type} (source text : List Char) (accept : Token → Option Value)
    (result : Value × List Char) (after : Lexer) (piece : Piece Token) : Prop where
  scanned : Scan.nextToken text = .ok piece
  token : piece.value ≠ .endOfInput
  accepted : accept piece.value = some result.1
  start : result.2 = piece.start
  after : after = After source piece

/-- A token that has to be of some sort is taken, or it is the fault that the stages find. -/
theorem expect_follows {Value : Type} {expected : Expectation} {accept : Token → Option Value}
    {read : Except Fault (List Rule)} (stands : lexer.StandsAt source text)
    (strays : ∀ stray, Scan.nextToken text = .error stray →
      read = .error ⟨.strayCharacter stray.character, stray.start, opened⟩)
    (ends : ∀ piece, Scan.nextToken text = .ok piece → piece.value = .endOfInput →
      read = .error ⟨.unterminated, piece.start, opened⟩)
    (refuses : ∀ piece, Scan.nextToken text = .ok piece → piece.value ≠ .endOfInput →
      accept piece.value = none →
      read = .error ⟨.unexpected expected piece.value, piece.start, opened⟩) :
    Follows read (fun result after => ∃ piece, Took source text accept result after piece)
      (lexer.expect opened expected accept) := by
  have taken := stands.next_eq
  unfold expect
  split
  · next error after found =>
    rw [found] at taken
    split at taken
    · cases taken
    · next stray scanned =>
      cases taken
      exact strays stray scanned
  · next piece after found =>
    rw [found] at taken
    split at taken
    · next scanned =>
      cases taken
      split
      · next ended => exact ends piece scanned ended
      · next token =>
        split
        · next value accepted => exact ⟨piece, scanned, token, accepted, rfl, rfl⟩
        · next refused => exact refuses piece scanned token refused
    · cases taken

/-- Inside of a rule, a token is taken or refused as its stage does it. -/
theorem expect_follows_inside {Value : Type} {expected : Expectation}
    {accept : Token → Option Value} (stands : lexer.StandsAt source text)
    (plain : stage.expectsColor = false) (inside : stage ≠ .between)
    (refuses : ∀ piece, Scan.nextToken text = .ok piece → piece.value ≠ .endOfInput →
      accept piece.value = none →
      stage.step piece.value = .error (.unexpected expected piece.value)) :
    Follows (readRules stage opened text)
      (fun result after => ∃ piece, Took source text accept result after piece)
      (lexer.expect opened expected accept) := by
  have reads : stage.readToken text = Scan.nextToken text := by
    rw [Stage.readToken, plain]
    rfl
  refine expect_follows stands ?_ ?_ ?_
  · intro stray scanned
    rw [readRules_of_stray (reads.trans scanned), Stage.openedAt_inside inside]
  · intro piece scanned ended
    rw [readRules_of_end (reads.trans scanned) ended]
    cases stage with
    | between => exact absurd rfl inside
    | _ => rfl
  · intro piece scanned token refused
    rw [readRules_of_nextToken _ _ plain scanned token, refuses piece scanned token refused]
    simp only [Stage.openedAt_inside inside]

/-- A token that has to be of some sort leads to the stage that its stage names. -/
theorem expect_follows_step {Value : Type} {expected : Expectation}
    {accept : Token → Option Value} (next : Value → Stage) (stands : lexer.StandsAt source text)
    (plain : stage.expectsColor = false) (inside : stage ≠ .between)
    (steps : ∀ token value, accept token = some value →
      stage.step token = .ok (.proceed (next value)))
    (refuses : ∀ piece, Scan.nextToken text = .ok piece → piece.value ≠ .endOfInput →
      accept piece.value = none →
      stage.step piece.value = .error (.unexpected expected piece.value)) :
    Follows (readRules stage opened text)
      (fun result after => ∃ piece, after = After source piece ∧
        readRules stage opened text = readRules (next result.1) opened piece.rest)
      (lexer.expect opened expected accept) := by
  refine (expect_follows_inside stands plain inside refuses).mono ?_
  rintro result after ⟨piece, took⟩
  refine ⟨piece, took.after, ?_⟩
  rw [readRules_of_nextToken _ _ plain took.scanned took.token, steps _ _ took.accepted]
  simp only [Stage.openedAt_inside inside]

end Tokens

theorem identifier?_eq_some_iff {token : Token} {word : String} :
    identifier? token = some word ↔ token = .identifier word := by
  cases token <;> simp [identifier?]

theorem stepKind_of_identifier? {next : String → Stage} {token : Token} {kind : String}
    (accepted : identifier? token = some kind) :
    Stage.stepKind token next = .ok (.proceed (next kind)) := by
  rw [identifier?_eq_some_iff.mp accepted]
  rfl

theorem stepKind_of_not_identifier? {next : String → Stage} {token : Token}
    (refused : identifier? token = none) :
    Stage.stepKind token next = .error (.unexpected .nodeKind token) := by
  cases token with
  | identifier => cases refused
  | _ => rfl

/-! ### Selectors -/

section Selectors

variable {opened : List Char}

/-- The next token of a text does not go on with a selector. -/
def EndsChain (text : List Char) : Prop :=
  ∀ piece, Scan.nextToken text = .ok piece →
    combinator? piece.value = none ∧ identifier? piece.value = none

/-- A combinator is no comma, no colon, and not the end of the input. -/
theorem step_of_combinator? (finished : List Chain) (chain : Chain) {token : Token}
    {combinator : Combinator} (linked : combinator? token = some combinator) :
    token ≠ .endOfInput ∧
      (Stage.afterKind finished chain).step token =
        .ok (.proceed (.linkedKind finished chain combinator)) := by
  cases token with
  | mark mark => cases mark <;> cases linked <;> exact ⟨Token.noConfusion, rfl⟩
  | _ => cases linked

/-- The rest of a selector is read up to a token that does not go on with it. -/
theorem readLinks_follows (opened : List Char) (finished : List Chain) (lexer : Lexer)
    (text : List Char) (chain : Chain) (stands : lexer.StandsAt source text) :
    Follows (readRules (.afterKind finished chain) opened text)
      (fun made after => ∃ remainder, after.StandsAt source remainder ∧ EndsChain remainder ∧
        readRules (.afterKind finished chain) opened text =
          readRules (.afterKind finished made) opened remainder)
      (lexer.readLinks opened chain.atoms chain.combinators) := by
  have grown (combinator : Combinator) (kind : String) :
      chain.atoms ++ [kind] =
          ({ chain with links := chain.links ++ [(combinator, kind)] } : Chain).atoms ∧
        chain.combinators ++ [combinator] =
          ({ chain with links := chain.links ++ [(combinator, kind)] } : Chain).combinators := by
    simp [Chain.atoms, Chain.combinators]
  rw [readLinks]
  refine (look_follows_stage stands rfl fun _ => rfl).bind ?_
  rintro piece _ seen ⟨scanned, rfl⟩
  have looking : (Looking source piece).StandsAt source text := .looked scanned
  dsimp only
  split
  · next combinator linked =>
    obtain ⟨token, stepped⟩ := step_of_combinator? finished chain linked
    have reads : readRules (.afterKind finished chain) opened text =
        readRules (.linkedKind finished chain combinator) opened piece.rest := by
      rw [readRules_of_nextToken _ _ rfl scanned token, stepped]
      rfl
    rw [reads]
    refine (drop_follows looking scanned).bind ?_
    rintro _ _ dropped rfl
    refine (expect_follows_step _ (After.standsAt source piece) rfl Stage.noConfusion
      (fun _ _ => stepKind_of_identifier?) fun _ _ _ => stepKind_of_not_identifier?).bind ?_
    rintro ⟨kind, _⟩ _ fewer ⟨found, rfl, same⟩
    have more := readLinks_follows opened finished _ found.rest
      { chain with links := chain.links ++ [(combinator, kind)] } (After.standsAt source found)
    rw [← (grown combinator kind).1, ← (grown combinator kind).2, ← same] at more
    exact more.bind fun _ _ _ read => read
  · next unlinked =>
    split
    · next begins =>
      obtain ⟨kind, named⟩ := Option.isSome_iff_exists.mp begins
      have steps (token : Token) (kind : String) (accepted : identifier? token = some kind) :
          (Stage.afterKind finished chain).step token = .ok (.proceed (.afterKind finished
            { chain with links := chain.links ++ [(.descendant, kind)] })) := by
        rw [identifier?_eq_some_iff.mp accepted]
        rfl
      refine (expect_follows_step _ looking rfl Stage.noConfusion steps ?_).bind ?_
      · intro _ again _ refused
        obtain rfl := Scan.nextToken_unique scanned again
        rw [refused] at named
        cases named
      · rintro ⟨kind, _⟩ _ fewer ⟨found, rfl, same⟩
        have more := readLinks_follows opened finished _ found.rest
          { chain with links := chain.links ++ [(.descendant, kind)] } (After.standsAt source found)
        rw [← (grown .descendant kind).1, ← (grown .descendant kind).2, ← same] at more
        exact more.bind fun _ _ _ read => read
    · next stops =>
      rw [chain.ofParts_atoms_combinators]
      refine ⟨text, looking, fun other again => ?_, rfl⟩
      obtain rfl := Scan.nextToken_unique scanned again
      exact ⟨unlinked, by simpa using stops⟩
termination_by lexer.supply

/-- A selector that is asked for inside of a rule. -/
theorem readSelector_follows (selectors : Selectors) (stands : lexer.StandsAt source text) :
    Follows (readRules (.selectorStart selectors) opened text)
      (fun made after => ∃ remainder, after.StandsAt source remainder ∧ EndsChain remainder ∧
        readRules (.selectorStart selectors) opened text =
          readRules (.afterKind selectors.val made) opened remainder)
      (lexer.readSelector opened) := by
  refine (expect_follows_step _ stands rfl Stage.noConfusion
    (fun _ _ => stepKind_of_identifier?) fun _ _ _ => stepKind_of_not_identifier?).bind ?_
  rintro ⟨kind, _⟩ _ fewer ⟨found, rfl, same⟩
  have more := readLinks_follows opened selectors.val _ found.rest ⟨kind, []⟩
    (After.standsAt source found)
  rw [← same] at more
  exact more.bind fun _ _ _ read => read

/-- Selectors are read up to a token that is no comma. -/
theorem readSelectors_follows (lexer : Lexer) (text : List Char) (finished : List Chain)
    (chain : Chain) (stands : lexer.StandsAt source text) (ends : EndsChain text) :
    Follows (readRules (.afterKind finished chain) opened text)
      (fun all after => ∃ before last remainder, all = before ++ [last] ∧
        after.StandsAt source remainder ∧ EndsChain remainder ∧
        (∀ piece, Scan.nextToken remainder = .ok piece → piece.value ≠ .mark .comma) ∧
        readRules (.afterKind finished chain) opened text =
          readRules (.afterKind before last) opened remainder)
      (lexer.readSelectors opened (finished ++ [chain])) := by
  rw [readSelectors]
  refine (look_follows_stage stands rfl fun _ => rfl).bind ?_
  rintro piece _ seen ⟨scanned, rfl⟩
  have looking : (Looking source piece).StandsAt source text := .looked scanned
  dsimp only
  split
  · next comma =>
    have token := Token.ne_endOfInput_of_mark comma
    have reads : readRules (.afterKind finished chain) opened text =
        readRules (.selectorStart (Stage.withChain finished chain)) opened piece.rest := by
      rw [readRules_of_nextToken _ _ rfl scanned token, comma]
      rfl
    rw [reads]
    refine (drop_follows looking scanned).bind ?_
    rintro _ _ dropped rfl
    refine (readSelector_follows (Stage.withChain finished chain)
      (After.standsAt source piece)).bind ?_
    rintro made _ fewer ⟨remainder, further, ending, same⟩
    have more := readSelectors_follows _ remainder (finished ++ [chain]) made further ending
    rw [same]
    exact more.bind fun _ _ _ read => read
  · next other =>
    refine ⟨finished, chain, text, rfl, looking, ends, fun found again => ?_, rfl⟩
    obtain rfl := Scan.nextToken_unique scanned again
    exact other
termination_by lexer.supply

end Selectors

end Lexer

end TreeStyle
