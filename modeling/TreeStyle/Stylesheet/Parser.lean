import TreeStyle.Stylesheet.Lexer
import TreeStyle.Stylesheet.Stage

/-!
# Reading by descent

A stylesheet is read by functions that call one another as the grammar nests: a sheet
reads rules, a rule reads selectors and a declaration, a declaration reads properties,
and a property reads a colour or attributes.  They share one lexer.  A function that
repeats itself looks at the next token to see whether it goes on, and if it does not,
the token stays pending for the function that called it.

So two things might go wrong besides the source.  A colour might be asked for while a
token is pending, which the lexer does not allow.  And all parts of a rule are made by
constructors, which check what they are given.

Each function hands on a lexer that has less left than the one it was given
(`Taken.less`), which is why reading ends.

Main statements: `Lexer.supply_peek_le`, `Lexer.supply_next` and
`Lexer.supply_nextColor_le`.
-/

namespace TreeStyle

set_option autoImplicit false

/-! ## Constructors -/

/-- Why a constructor refuses its parts. -/
inductive Refusal where
  | chain (error : ChainError)
  | noProperties
  | noSelectors
  deriving DecidableEq, Repr

/-- The colour from the numbers it is made of. -/
def Color.construct : Color → Except ColorError Color
  | rgb red green blue => ofChannels red.val green.val blue.val
  | ansi index => ofIndex index.val
  | named name => .ok (.named name)

/-! ## What a lexer has left -/

namespace Lexer

/-- A bound on the number of tokens that a lexer can still hand out: it grows with the
text that has not been scanned, and a token that is pending counts unless it is the end
of the input. -/
def supply (lexer : Lexer) : Nat :=
  2 * lexer.rest.length +
    match lexer.pending with
    | some piece => if piece.value = .endOfInput then 0 else 1
    | none => 0

/-- A token that was looked at is pending. -/
theorem pending_of_peek {lexer after : Lexer} {piece : Piece Token}
    (looked : lexer.peek = (.ok piece, after)) : after.pending = some piece := by
  unfold peek at looked
  split at looked
  · next found pending =>
    cases looked
    exact pending
  · split at looked
    · cases looked
      rfl
    · cases looked

/-- Looking at a token uses up at least what keeping it takes. -/
theorem supply_peek_le {lexer after : Lexer} {piece : Piece Token}
    (looked : lexer.peek = (.ok piece, after)) : after.supply ≤ lexer.supply := by
  unfold peek at looked
  split at looked
  · cases looked
    exact Nat.le_refl _
  · next pending =>
    split at looked
    · next scanned =>
      cases looked
      simp only [supply, pending]
      split
      · next ended =>
        simp [Scan.rest_of_endOfInput scanned ended]
      · next token =>
        have shorter := Scan.length_rest_nextToken_lt scanned token
        omega
    · cases looked

/-- Taking a token uses it up. -/
theorem supply_next {lexer after : Lexer} {piece : Piece Token}
    (taken : lexer.next = (.ok piece, after)) :
    after.supply ≤ lexer.supply ∧ (piece.value ≠ .endOfInput → after.supply < lexer.supply) := by
  unfold next at taken
  split at taken
  · next found kept looked =>
    cases taken
    have bound := supply_peek_le looked
    have pending := pending_of_peek looked
    simp only [supply, pending] at bound ⊢
    split at bound
    · next ended => exact ⟨bound, fun token => absurd ended token⟩
    · exact ⟨by omega, fun _ => by omega⟩
  · cases taken

theorem supply_nextColor_le {lexer after : Lexer} {piece : Piece Token}
    (taken : lexer.nextColor = (.ok piece, after)) : after.supply ≤ lexer.supply := by
  unfold nextColor at taken
  split at taken
  · cases taken
  · next pending =>
    split at taken
    · cases taken
      simp [supply, pending]
    · next colored scanned =>
      cases taken
      have bound := (Scan.length_rest_nextColor_le scanned).1
      simp only [supply, pending]
      omega

end Lexer

/-! ## What reading ends in -/

/-- How reading may be interrupted: by an error of the source, or because the reader
itself fails. -/
inductive Interruption (Error : Type) where
  | error (error : Error)
  /-- A colour was asked for while a token was pending. -/
  | tokenPending
  | refused (refusal : Refusal)

/-- Something that was read, with the lexer after it, which has less than `bound` left. -/
structure Taken (bound : Nat) (Value : Type) where
  value : Value
  after : Lexer
  less : after.supply < bound

/-- What reading ends in: something that was read, or an interruption. -/
abbrev Attempt := Except (Interruption Fault)

/-- How a call of the lexer interrupts reading.  A stray character between two rules is
the start of the rule that it is found in. -/
def LexerError.interruption (opened : Option (List Char)) : LexerError → Interruption Fault
  | stray found =>
    .error ⟨.strayCharacter found.character, found.start, opened.getD found.start⟩
  | tokenPending => .tokenPending

namespace Lexer

/-! ## Single tokens -/

/-- Looks at the next token, which stays pending. -/
def look (opened : Option (List Char)) (lexer : Lexer) :
    Attempt (Taken (lexer.supply + 1) (Piece Token)) :=
  match looked : lexer.peek with
  | (.ok piece, after) => .ok ⟨piece, after, Nat.lt_succ_of_le (supply_peek_le looked)⟩
  | (.error error, _) => .error (error.interruption opened)

/-- Takes the next token, whatever it is. -/
def drop (opened : List Char) (lexer : Lexer) : Attempt (Taken (lexer.supply + 1) Unit) :=
  match taken : lexer.next with
  | (.ok _, after) => .ok ⟨(), after, Nat.lt_succ_of_le (supply_next taken).1⟩
  | (.error error, _) => .error (error.interruption (some opened))

/-- Takes a token that has to be of some sort; what is made of it comes with the text
from the token on. -/
def expect {Value : Type} (opened : List Char) (expected : Expectation)
    (accept : Token → Option Value) (lexer : Lexer) :
    Attempt (Taken lexer.supply (Value × List Char)) :=
  match taken : lexer.next with
  | (.error error, _) => .error (error.interruption (some opened))
  | (.ok piece, after) =>
    if ended : piece.value = .endOfInput then
      .error (.error ⟨.unterminated, piece.start, opened⟩)
    else
      match accept piece.value with
      | some value => .ok ⟨(value, piece.start), after, (supply_next taken).2 ended⟩
      | none => .error (.error ⟨.unexpected expected piece.value, piece.start, opened⟩)

/-- The text of an identifier. -/
def identifier? : Token → Option String
  | .identifier text => some text
  | _ => none

/-- Takes an identifier. -/
def expectIdentifier (opened : List Char) (expected : Expectation) (lexer : Lexer) :
    Attempt (Taken lexer.supply (String × List Char)) :=
  lexer.expect opened expected identifier?

/-- Takes a punctuation mark. -/
def expectMark (opened : List Char) (mark : Mark) (expected : Expectation) (lexer : Lexer) :
    Attempt (Taken lexer.supply (Unit × List Char)) :=
  lexer.expect opened expected fun token => if token = .mark mark then some () else none

/-! ## Selectors -/

/-- The combinator that a token is. -/
def combinator? : Token → Option Combinator
  | .mark mark => mark.combinator?
  | _ => none

/-- The rest of a selector, of which some kinds have been read. -/
def readLinks (opened : List Char) (atoms : List String) (combinators : List Combinator)
    (lexer : Lexer) : Attempt (Taken (lexer.supply + 1) Chain) := do
  let ⟨piece, after, seen⟩ ← lexer.look (some opened)
  match combinator? piece.value with
  | some combinator =>
    let ⟨_, passed, dropped⟩ ← after.drop opened
    let ⟨(kind, _), last, fewer⟩ ← passed.expectIdentifier opened .nodeKind
    let ⟨chain, ending, read⟩ ←
      readLinks opened (atoms ++ [kind]) (combinators ++ [combinator]) last
    return ⟨chain, ending, by omega⟩
  | none =>
    if (identifier? piece.value).isSome then
      let ⟨(kind, _), last, fewer⟩ ← after.expectIdentifier opened .nodeKind
      let ⟨chain, ending, read⟩ ←
        readLinks opened (atoms ++ [kind]) (combinators ++ [.descendant]) last
      return ⟨chain, ending, by omega⟩
    else
      match Chain.ofParts atoms combinators with
      | .ok chain => return ⟨chain, after, seen⟩
      | .error error => throw (.refused (.chain error))
termination_by lexer.supply

/-- A selector. -/
def readSelector (opened : List Char) (lexer : Lexer) : Attempt (Taken lexer.supply Chain) := do
  let ⟨(kind, _), after, fewer⟩ ← lexer.expectIdentifier opened .nodeKind
  let ⟨chain, last, read⟩ ← after.readLinks opened [kind] []
  return ⟨chain, last, by omega⟩

/-- The selectors of a rule, of which some have been read. -/
def readSelectors (opened : List Char) (chains : List Chain) (lexer : Lexer) :
    Attempt (Taken (lexer.supply + 1) (List Chain)) := do
  let ⟨piece, after, seen⟩ ← lexer.look (some opened)
  if piece.value = .mark .comma then
    let ⟨_, passed, dropped⟩ ← after.drop opened
    let ⟨chain, last, fewer⟩ ← passed.readSelector opened
    let ⟨all, ending, read⟩ ← readSelectors opened (chains ++ [chain]) last
    return ⟨all, ending, by omega⟩
  else return ⟨chains, after, seen⟩
termination_by lexer.supply

/-! ## Values -/

/-- A colour.  Where none starts, the token that stands there instead is reported. -/
def readColor (opened : List Char) (lexer : Lexer) : Attempt (Taken (lexer.supply + 1) Color) :=
  match taken : lexer.nextColor with
  | (.error error, _) => .error (error.interruption (some opened))
  | (.ok piece, after) =>
    if piece.value = .endOfInput then .error (.error ⟨.unterminated, piece.start, opened⟩)
    else if piece.value.text = "" then do
      let ⟨found, _, _⟩ ← after.look (some opened)
      throw (.error ⟨.unexpected .colorValue found.value, found.start, opened⟩)
    else
      -- What the constructor of a colour refuses is an error of its literal.
      match (Color.ofString piece.value.text).bind Color.construct with
      | .ok color => .ok ⟨color, after, Nat.lt_succ_of_le (supply_nextColor_le taken)⟩
      | .error reason => .error (.error ⟨.invalidColor reason, piece.start, opened⟩)

/-- The names of attributes, some of which have been read. -/
def readAttributes (opened : List Char) (attrs : AttributeSet) (lexer : Lexer) :
    Attempt (Taken lexer.supply AttributeSet) := do
  let ⟨(word, start), named, fewer⟩ ← lexer.expectIdentifier opened .attributeName
  match Attribute.ofName? word.toList with
  | none => throw (.error ⟨.invalidAttribute (.unknown word), start, opened⟩)
  | some flag =>
    if flag ∈ attrs then throw (.error ⟨.invalidAttribute (.duplicate word), start, opened⟩)
    else
      let ⟨piece, after, seen⟩ ← named.look (some opened)
      if piece.value = .mark .pipe then
        let ⟨_, passed, dropped⟩ ← after.drop opened
        let ⟨all, last, read⟩ ← readAttributes opened (attrs ∪ .singleton flag) passed
        return ⟨all, last, by omega⟩
      else return ⟨attrs ∪ .singleton flag, after, by omega⟩
termination_by lexer.supply

/-- The value of a property. -/
def readSetting (opened : List Char) (property : Property) (lexer : Lexer) :
    Attempt (Taken (lexer.supply + 1) Setting) := do
  match property with
  | .fg =>
    let ⟨color, after, read⟩ ← lexer.readColor opened
    return ⟨.fg color, after, read⟩
  | .bg =>
    let ⟨color, after, read⟩ ← lexer.readColor opened
    return ⟨.bg color, after, read⟩
  | .attr =>
    let ⟨attrs, after, read⟩ ← lexer.readAttributes opened ∅
    return ⟨.attr attrs, after, by omega⟩

/-! ## Declarations -/

/-- Properties, some of which have been read; `seen` are their keys. -/
def readProperties (opened : List Char) (seen : List Property) (style : PartialStyle)
    (lexer : Lexer) : Attempt (Taken lexer.supply Declaration) := do
  let ⟨(word, start), keyed, fewer⟩ ← lexer.expectIdentifier opened .propertyName
  match Property.ofKey? word with
  | none => throw (.error ⟨.unknownProperty word, start, opened⟩)
  | some property =>
    if property ∈ seen then throw (.error ⟨.duplicateProperty property, start, opened⟩)
    else
      let ⟨_, due, passed⟩ ← keyed.expectMark opened .colon (.colonAfter word)
      let ⟨setting, valued, read⟩ ← due.readSetting opened property
      let ⟨piece, after, looked⟩ ← valued.look (some opened)
      if piece.value = .mark .comma then
        let ⟨_, further, dropped⟩ ← after.drop opened
        let ⟨declaration, last, more⟩ ←
          readProperties opened (property :: seen) (style.set setting) further
        return ⟨declaration, last, by omega⟩
      else
        match Declaration.ofStyle? (style.set setting) with
        | some declaration => return ⟨declaration, after, by omega⟩
        | none => throw (.refused .noProperties)
termination_by lexer.supply

/-- A declaration: a group, or properties, perhaps in braces. -/
def readDeclaration (opened : List Char) (lexer : Lexer) :
    Attempt (Taken (lexer.supply + 1) Declaration) := do
  let ⟨piece, after, seen⟩ ← lexer.look (some opened)
  if piece.value = .mark .leftBrace then
    let ⟨_, inside, dropped⟩ ← after.drop opened
    let ⟨declaration, last, read⟩ ← inside.readProperties opened [] {}
    let ⟨_, closed, passed⟩ ← last.expectMark opened .rightBrace .propertyEnd
    have less := Nat.lt_trans passed (Nat.lt_trans read dropped)
    return ⟨declaration, closed, Nat.lt_of_lt_of_le less seen⟩
  else if ((identifier? piece.value).bind Property.ofKey?).isSome then
    let ⟨declaration, last, read⟩ ← after.readProperties opened [] {}
    return ⟨declaration, last, Nat.lt_trans read seen⟩
  else
    let ⟨(word, start), last, fewer⟩ ← after.expectIdentifier opened .highlightOrProperties
    match Highlight.ofName? word with
    | some group => return ⟨.highlight group, last, Nat.lt_trans fewer seen⟩
    | none => throw (.error ⟨.unknownHighlight word, start, opened⟩)

/-! ## Rules -/

/-- A rule, which is open from its first token on. -/
def readRule (lexer : Lexer) : Attempt (Taken lexer.supply Rule) := do
  let ⟨piece, started, seen⟩ ← lexer.look none
  let opened := piece.start
  let ⟨first, after, begun⟩ ← started.readSelector opened
  let ⟨selectors, listed, more⟩ ← after.readSelectors opened [first]
  let ⟨_, due, passed⟩ ← listed.expectMark opened .colon .selectorEnd
  let ⟨declaration, stated, read⟩ ← due.readDeclaration opened
  let ⟨_, last, closed⟩ ← stated.expectMark opened .semicolon .ruleEnd
  match Rule.ofSelectors? selectors declaration with
  | some rule => return ⟨rule, last, by omega⟩
  | none => throw (.refused .noSelectors)

/-- The rules of a sheet, some of which have been read. -/
def readSheet (rules : List Rule) (lexer : Lexer) :
    Except (Interruption Fault) (List Rule) := do
  let ⟨piece, after, _⟩ ← lexer.look none
  if piece.value = .endOfInput then return rules
  else
    let ⟨rule, last, _⟩ ← after.readRule
    readSheet (rules ++ [rule]) last
termination_by lexer.supply

end Lexer

end TreeStyle
