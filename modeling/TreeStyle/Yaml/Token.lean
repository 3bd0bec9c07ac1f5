import TreeStyle.Yaml.Plain

/-!
# The tokens of a document

A document is cut into tokens.  Indentation is turned into tokens of its own: a
block collection starts at its first entry, and ends before the first token that
stands further to the left.

That a scalar or a bracketed collection is a key becomes known at the colon after
it.  So the place of every possible key is kept, one for each level of brackets,
until it can no longer be one: a key and its colon stand on one line, at most 1024
characters apart.  At the colon the tokens that start a key, and with it perhaps a
block mapping, are put in before the tokens of the key.

Outside of brackets, a collection or a key can only start where a line or another
entry has just started.  Of the tags only that of binary scalars is read; anchors, aliases,
directives and block scalars are not.

A text may be the start of a longer one.  Then the cutting ends with the text, and so it
does at a scalar that cannot be read.  Of the tokens before, those count that no possible
key can still change.
-/

namespace TreeStyle.Yaml

set_option autoImplicit false

/-! ## Tokens -/

/-- A token of a document. -/
inductive Token where
  /-- A scalar, and whether it is plain. -/
  | scalar (text : List Char) (plain : Bool)
  /-- The tag that stands before a binary scalar. -/
  | binaryTag
  | key
  | value
  /-- A hyphen before the entry of a block sequence. -/
  | entry
  | comma
  | sequenceStart
  | mappingStart
  | blockEnd
  | listOpen
  | listClose
  | mappingOpen
  | mappingClose
  | documentStart
  | documentEnd
  deriving DecidableEq, Repr

/-- A list that is kept last element first, with an element put in after the first
`count` ones. -/
def insertAt (count : Nat) (element : Token) (tokens : List Token) : List Token :=
  tokens.take (tokens.length - count) ++ element :: tokens.drop (tokens.length - count)

/-! ## The state of cutting -/

/-- The place where a key may have started. -/
structure Candidate where
  /-- The number of tokens before it. -/
  before : Nat
  place : Cursor
  /-- Whether there has to be a key, since an entry of a mapping starts there. -/
  required : Bool

/-- How far a document has been cut. -/
structure Scanner where
  place : Cursor
  /-- The tokens, the last one first. -/
  tokens : List Token := []
  /-- The columns of the open block collections, the innermost first. -/
  indents : List Nat := []
  /-- The possible key on the current level of brackets. -/
  candidate : Option Candidate := none
  /-- The possible keys on the levels around it, the innermost first. -/
  enclosing : List (Option Candidate) := []
  /-- Whether a key may start here. -/
  keyAllowed : Bool := true

namespace Scanner

/-- Whether brackets are open. -/
def bracketed (scanner : Scanner) : Bool := !scanner.enclosing.isEmpty

/-- Adds a token. -/
def emit (scanner : Scanner) (token : Token) : Scanner :=
  { scanner with tokens := token :: scanner.tokens }

/-- Goes so many characters further. -/
def move (scanner : Scanner) (count : Nat) : Scanner :=
  { scanner with place := scanner.place.advance count }

/-- States whether a key may start next. -/
def allowKey (scanner : Scanner) (allowed : Bool) : Scanner :=
  { scanner with keyAllowed := allowed }

/-! ### Blanks, comments and indentation -/

/-- Skips blanks, comments and line breaks.  After a line break outside of brackets a
key may start. -/
def skipBlanks (scanner : Scanner) : Scanner :=
  let afterBlanks := scanner.place.skipWhile (· == ' ')
  let stop :=
    if afterBlanks.rest.head? = some '#' then
      afterBlanks.skipWhile fun character => !isBreak character
    else afterBlanks
  match stop.rest with
  | [] => { scanner with place := stop }
  | character :: _ =>
    if isBreak character then
      let after := stop.next
      if _shorter : after.rest.length < scanner.place.rest.length then
        skipBlanks
          { scanner with
            place := after, keyAllowed := scanner.keyAllowed || !scanner.bracketed }
      else { scanner with place := stop }
    else { scanner with place := stop }
termination_by scanner.place.rest.length

/-- Whether a possible key can no longer be one. -/
def isStale (place : Cursor) (candidate : Candidate) : Bool :=
  candidate.place.line != place.line || 1024 < place.index - candidate.place.index

/-- A possible key unless it is stale; a stale one must not be required. -/
def keepFresh (place : Cursor) : Option Candidate → Option (Option Candidate)
  | none => some none
  | some candidate =>
    if !isStale place candidate then some (some candidate)
    else if candidate.required then none
    else some none

/-- Drops the keys that are no longer possible. -/
def dropStale (scanner : Scanner) : Option Scanner := do
  let candidate ← keepFresh scanner.place scanner.candidate
  let enclosing ← scanner.enclosing.mapM (keepFresh scanner.place)
  some { scanner with candidate, enclosing }

/-- Ends the block collections that start further to the right than the given column;
all of them if there is none. -/
def closeBlocks (column : Option Nat) (scanner : Scanner) : Scanner :=
  if scanner.bracketed then scanner
  else
    let further (indent : Nat) : Bool :=
      match column with
      | none => true
      | some column => column < indent
    let closed := scanner.indents.takeWhile further
    { scanner with
      indents := scanner.indents.drop closed.length
      tokens := closed.map (fun _ => Token.blockEnd) ++ scanner.tokens }

/-- Whether a block collection that starts at a column is a new one. -/
def isDeeper (scanner : Scanner) (column : Nat) : Bool :=
  match scanner.indents with
  | [] => true
  | indent :: _ => indent < column

/-- Starts a block collection at a column, unless one is open there; its first token
goes behind so many others. -/
def openBlock (scanner : Scanner) (column before : Nat) (start : Token) : Scanner :=
  if scanner.isDeeper column then
    { scanner with
      indents := column :: scanner.indents
      tokens := insertAt before start scanner.tokens }
  else scanner

/-! ### Possible keys -/

/-- Gives up the possible key on the current level, which must not be required. -/
def dropCandidate (scanner : Scanner) : Option Scanner :=
  match scanner.candidate with
  | some candidate =>
    if candidate.required then none else some { scanner with candidate := none }
  | none => some scanner

/-- Keeps the place as that of a possible key. -/
def noteCandidate (scanner : Scanner) : Option Scanner :=
  if scanner.keyAllowed then do
    let scanner ← scanner.dropCandidate
    let required := !scanner.bracketed && scanner.indents.head? == some scanner.place.column
    some { scanner with
      candidate := some ⟨scanner.tokens.length, scanner.place, required⟩ }
  else some scanner

/-! ### Tokens one by one -/

/-- Reads a marker between documents. -/
def readMarker (scanner : Scanner) (token : Token) : Option Scanner := do
  let scanner ← (scanner.closeBlocks none).dropCandidate
  some (((scanner.allowKey false).emit token).move 3)

/-- Reads an opening bracket. -/
def readOpening (scanner : Scanner) (token : Token) : Option Scanner := do
  let scanner ← scanner.noteCandidate
  let inner :=
    { scanner with
      candidate := none, enclosing := scanner.candidate :: scanner.enclosing, keyAllowed := true }
  some ((inner.emit token).move 1)

/-- Reads a closing bracket; there has to be an open one. -/
def readClosing (scanner : Scanner) (token : Token) : Option Scanner := do
  let scanner ← scanner.dropCandidate
  match scanner.enclosing with
  | [] => none
  | candidate :: enclosing =>
    some ((({ scanner with candidate, enclosing }.allowKey false).emit token).move 1)

/-- Reads a comma. -/
def readComma (scanner : Scanner) : Option Scanner := do
  let scanner ← scanner.dropCandidate
  some (((scanner.allowKey true).emit .comma).move 1)

/-- Starts the block collection of an entry outside of brackets, where one may start. -/
def startEntry (scanner : Scanner) (start : Token) : Option Scanner :=
  if scanner.bracketed then some scanner
  else if scanner.keyAllowed then
    some (scanner.openBlock scanner.place.column scanner.tokens.length start)
  else none

/-- Reads the hyphen before an entry of a block sequence. -/
def readEntry (scanner : Scanner) : Option Scanner := do
  let scanner ← scanner.startEntry .sequenceStart
  let scanner ← scanner.dropCandidate
  some (((scanner.allowKey true).emit .entry).move 1)

/-- Reads the question mark before a key. -/
def readKey (scanner : Scanner) : Option Scanner := do
  let scanner ← scanner.startEntry .mappingStart
  let scanner ← scanner.dropCandidate
  some (((scanner.allowKey (!scanner.bracketed)).emit .key).move 1)

/-- Reads the colon before a value.  If there is a possible key, it is one. -/
def readValue (scanner : Scanner) : Option Scanner :=
  match scanner.candidate with
  | some candidate =>
    let keyed :=
      { scanner with
        candidate := none, tokens := insertAt candidate.before .key scanner.tokens }
    let opened :=
      if scanner.bracketed then keyed
      else keyed.openBlock candidate.place.column candidate.before .mappingStart
    some (((opened.allowKey false).emit .value).move 1)
  | none => do
    let scanner ← scanner.startEntry .mappingStart
    some (((scanner.allowKey (!scanner.bracketed)).emit .value).move 1)

/-- Reads a quoted scalar. -/
def readQuoted (scanner : Scanner) (quote : Char) : Except TokenFault Scanner := do
  let scanner ← orMalformed scanner.noteCandidate
  let (text, stop) ← quotedFrom quote scanner.place.next
  .ok { (scanner.allowKey false).emit (.scalar text false) with place := stop }

/-- Reads a plain scalar. -/
def readPlain (scanner : Scanner) : Option Scanner := do
  let scanner ← scanner.noteCandidate
  let indent :=
    match scanner.indents with
    | [] => 0
    | column :: _ => column + 1
  let (text, gap) := plainScalar scanner.bracketed indent scanner.place
  some { (scanner.allowKey gap.broken).emit (.scalar text true) with place := gap.stop }

/-- Whether a text starts with the tag of binary scalars. -/
def startsWithBinaryTag (text : List Char) : Bool :=
  "!!binary".toList.isPrefixOf text &&
    match text.drop 8 with
    | [] => true
    | character :: _ => character == ' ' || isBreak character

/-- Reads the tag of a binary scalar. -/
def readBinaryTag (scanner : Scanner) : Option Scanner := do
  let scanner ← scanner.noteCandidate
  some (((scanner.allowKey false).emit .binaryTag).move 8)

/-- Whether a plain scalar may start with a character that starts no other token, before
the given text. -/
def startsPlain (character : Char) (rest : List Char) : Bool :=
  if character == '-' || character == '?' || character == ':' then !separated rest
  else !(['\t', '#', '&', '*', '!', '|', '>', '%', '@', '\x60'].contains character)

/-- Reads the token that starts with a character before the given text, a quoted scalar
aside. -/
def readUnquoted (scanner : Scanner) (character : Char) (rest : List Char) : Option Scanner :=
  let lineStart := scanner.place.column == 0
  if lineStart && startsWithMarker '-' (character :: rest) then scanner.readMarker .documentStart
  else if lineStart && startsWithMarker '.' (character :: rest) then scanner.readMarker .documentEnd
  else if character = '[' then scanner.readOpening .listOpen
  else if character = '\x7b' then scanner.readOpening .mappingOpen
  else if character = ']' then scanner.readClosing .listClose
  else if character = '\x7d' then scanner.readClosing .mappingClose
  else if character = ',' then scanner.readComma
  else if character = '-' ∧ separated rest then scanner.readEntry
  else if character = '?' ∧ (scanner.bracketed ∨ separated rest) then scanner.readKey
  else if character = ':' ∧ (scanner.bracketed ∨ separated rest) then scanner.readValue
  else if startsWithBinaryTag (character :: rest) then scanner.readBinaryTag
  else if startsPlain character rest then scanner.readPlain
  else none

/-- Reads the token that starts with a character before the given text. -/
def readToken (scanner : Scanner) (character : Char) (rest : List Char) :
    Except TokenFault Scanner :=
  if character = '\x27' ∨ character = '\x22' then scanner.readQuoted character
  else orMalformed (scanner.readUnquoted character rest)

/-! ### All tokens -/

/-- Ends the cutting at the end of the text. -/
def finish (scanner : Scanner) : Option (List Token) :=
  (scanner.closeBlocks none).dropCandidate.map fun last => last.tokens.reverse

/-- The first tokens, which no possible key can still change. -/
def settled (scanner : Scanner) : List Token :=
  let count := ((scanner.candidate :: scanner.enclosing).filterMap id).foldl
    (fun least candidate => min least candidate.before) scanner.tokens.length
  scanner.tokens.reverse.take count

end Scanner

/-- Why a document cannot be cut into tokens. -/
inductive CutFault where
  | malformed
  /-- The text ends after the given tokens, and should not. -/
  | unfinished (before : List Token)
  /-- A scalar states nothing, after the given tokens. -/
  | unreadable (fault : ScalarFault) (before : List Token)

/-- A fault that ends the cutting after the given tokens. -/
def CutFault.ofToken (before : List Token) : TokenFault → CutFault
  | .malformed => .malformed
  | .unfinished => .unfinished before
  | .unreadable fault => .unreadable fault before

namespace Scanner

/-- The tokens of a document that has been cut so far.  Unless the text is whole, more
of it has to follow every token. -/
def run (whole : Bool) (scanner : Scanner) : Except CutFault (List Token) :=
  match scanner.dropStale with
  | none => .error .malformed
  | some last =>
    match last.skipBlanks.dropStale with
    | none => .error .malformed
    | some fresh =>
      let ready := fresh.closeBlocks (some fresh.place.column)
      match ready.place.rest with
      | [] =>
        match whole, ready.finish with
        | false, _ => .error (.unfinished last.settled)
        | true, some tokens => .ok tokens
        | true, none => .error .malformed
      | character :: rest =>
        match ready.readToken character rest with
        | .error fault => .error (.ofToken last.settled fault)
        | .ok next =>
          if !whole && next.place.rest.isEmpty then .error (.unfinished last.settled)
          else if _shorter : next.place.rest.length < scanner.place.rest.length then
            run whole next
          else .error .malformed
termination_by scanner.place.rest.length

end Scanner

/-- The tokens of a document, of which the text may be only the start.  A byte order
mark at its start is skipped. -/
def tokensOf (whole : Bool) (text : List Char) : Except CutFault (List Token) :=
  let start : Cursor := { rest := text }
  Scanner.run whole { place := if text.head? = some '\uFEFF' then start.next else start }

end TreeStyle.Yaml
