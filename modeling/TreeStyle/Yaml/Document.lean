import TreeStyle.Text.Lines
import TreeStyle.Yaml.Binary
import TreeStyle.Yaml.Fault
import TreeStyle.Yaml.Node
import TreeStyle.Yaml.Resolution

/-!
# Documents

A document states a value.  Its characters have to be printable, white space and
line breaks aside.  A mapping takes in the entries of other mappings under the merge
key, in front of its own.  Neither a list nor a mapping can be a key, and of several
entries under one key the last value counts, in the place of the first.

Keys that are equal as numbers are one key, truth values counting as zero and one, and
so are keys that are the same moment.

Collections are filled one depth after the other, so that of several faults the least
deep one is reported, and of a mapping the entries that it takes in are judged first.
A document whose text cannot be cut into tokens to its end is malformed if already the
tokens before make no node.  A text may also come in portions; what is wrong with the
first ones counts before what is wrong with the later ones.

Main statement: `readPortions_singleton` (a text in one portion is read as a whole).
-/

namespace TreeStyle.Yaml

set_option autoImplicit false

/-! ## Keys -/

/-- The number that a value is, if it is one. -/
def asNumber? : Value → Option Int
  | .truth value => some (if value then 1 else 0)
  | .integer value => some value
  | .decimal value => value.toInt?
  | _ => none

/-- Whether two values are one key. -/
def sameKey (left right : Value) : Bool :=
  match left, right with
  | .moment moment, .moment other => moment.isSame other
  | _, _ =>
    match asNumber? left, asNumber? right with
    | some number, some other => number == other
    | none, none => left == right
    | _, _ => false

/-- The entries with one more, in the place of an old one under the same key. -/
def putEntry (entries : List (Value × Value)) (entry : Value × Value) : List (Value × Value) :=
  match entries with
  | [] => [entry]
  | old :: rest =>
    if sameKey old.1 entry.1 then (old.1, entry.2) :: rest else old :: putEntry rest entry

/-- The mapping with the given entries, read from first to last. -/
def mappingOf (entries : List (Value × Value)) : Value := .mapping (entries.foldl putEntry [])

/-! ## Values -/

/-- Whether a node is the merge key. -/
def isMergeKey : Node → Bool
  | .scalar text plain => plain && text == ['<', '<']
  | _ => false

/-- Whether entries can be taken in from a node under the merge key: a mapping, or a
sequence of mappings, of which the same is true. -/
def isMergeable (node : Node) : Bool :=
  match node with
  | .scalar _ _ => false
  | .binary _ => false
  | .sequence items => areMergeable items
  | .mapping entries => mergesWell entries
where
  /-- Whether entries can be taken in from mappings. -/
  areMergeable : List Node → Bool
    | [] => true
    | .mapping entries :: rest => mergesWell entries && areMergeable rest
    | _ => false
  /-- Whether entries can be taken in from every node under the merge key. -/
  mergesWell : List (Node × Node) → Bool
    | [] => true
    | (key, node) :: rest => (!isMergeKey key || isMergeable node) && mergesWell rest

/-- The value of a scalar. -/
def scalarValue (text : List Char) (plain : Bool) : Reading Value :=
  if plain then
    match meaningOf text with
    | .ok (.value value) => .ok value
    | .ok .mergeKey => .fail .malformed
    | .ok .equalsSign => .fail .malformed
    | .error fault => .fail (.unreadable fault)
  else .ok (.text (String.ofList text))

/-- The value of a binary scalar. -/
def binaryValue (text : List Char) : Reading Value :=
  match text.all (·.toNat < 128), decodeBase64 text with
  | true, some bytes => .ok (.bytes bytes)
  | _, _ => .fail .malformed

/-- The value of a key. -/
def keyValue : Node → Reading Value
  | .scalar text plain =>
    if plain ∧ text = ['='] then .ok (.text "=") else scalarValue text plain
  | .binary text => binaryValue text
  | _ => .fail .malformed

mutual

/-- The value of a node. -/
def valueOf : Node → Reading Value
  | .scalar text plain => scalarValue text plain
  | .binary text => binaryValue text
  | .sequence items => (valuesOf items).deepened.map .list
  | .mapping entries => (entriesOf entries).deepened.map mappingOf

/-- The values of nodes. -/
def valuesOf : List Node → Reading (List Value)
  | [] => .ok []
  | item :: rest =>
    (Reading.both (valueOf item) (valuesOf rest)).map fun parts => parts.1 :: parts.2

/-- The entries of a mapping, those that it takes in from others in front. -/
def entriesOf (entries : List (Node × Node)) : Reading (List (Value × Value)) :=
  if isMergeable.mergesWell entries then
    (Reading.both (takenEntries entries) (ownEntries entries)).map fun parts => parts.1 ++ parts.2
  else .fail .malformed

/-- The entries that a mapping takes in from others. -/
def takenEntries : List (Node × Node) → Reading (List (Value × Value))
  | [] => .ok []
  | (key, node) :: rest =>
    if isMergeKey key then
      (Reading.both (mergedEntries node) (takenEntries rest)).map fun parts => parts.1 ++ parts.2
    else takenEntries rest

/-- The entries of a mapping that are its own. -/
def ownEntries : List (Node × Node) → Reading (List (Value × Value))
  | [] => .ok []
  | (key, node) :: rest =>
    if isMergeKey key then ownEntries rest
    else
      (Reading.both (Reading.both (keyValue key) (valueOf node)) (ownEntries rest)).map fun parts =>
        parts.1 :: parts.2

/-- The entries of the mapping, or of the sequence of mappings, under the merge key. -/
def mergedEntries : Node → Reading (List (Value × Value))
  | .scalar _ _ => .fail .malformed
  | .binary _ => .fail .malformed
  | .sequence items => mergedItems items
  | .mapping entries => entriesOf entries

/-- The entries of a sequence of mappings, those of the last mapping first. -/
def mergedItems : List Node → Reading (List (Value × Value))
  | [] => .ok []
  | .mapping entries :: rest =>
    (Reading.both (mergedItems rest) (entriesOf entries)).map fun parts => parts.1 ++ parts.2
  | _ => .fail .malformed

end

/-! ## Reading -/

/-- Whether a character may stand in a document. -/
def isPrintable (character : Char) : Bool :=
  let code := character.toNat
  code == 0x09 || code == 0x0A || code == 0x0D || (0x20 ≤ code && code ≤ 0x7E) || code == 0x85
    || (0xA0 ≤ code && code ≤ 0xD7FF) || (0xE000 ≤ code && code ≤ 0xFFFD) || 0x10000 ≤ code

/-- The value that a document states, nothing if it has no node. -/
def documentValue : Option Node → Except Fault Value
  | none => .ok .nothing
  | some node => (valueOf node).mapError DeepFault.fault

/-- The fault that already shows where the cutting of a text ends.  The tokens before
may make no node whatever follows. -/
def shownFault? : CutFault → Option Fault
  | .malformed => some .malformed
  | .unfinished before => if isRefused before then some .malformed else none
  | .unreadable fault before =>
    some (if isRefused before then .malformed else .unreadable fault)
where
  /-- Whether one of the tokens stands in a wrong place. -/
  isRefused (tokens : List Token) : Bool :=
    match nodeOf tokens with
    | .error .refused => true
    | _ => false

/-- The value that a document states. -/
def read (text : List Char) : Except Fault Value :=
  if text.all isPrintable then
    match tokensOf true (Text.withLineFeeds text) with
    | .error fault => .error ((shownFault? fault).getD .malformed)
    | .ok tokens =>
      match nodeOf tokens with
      | .ok node => documentValue node
      | .error _ => .error .malformed
  else .error .malformed

/-- The fault that the portions of a text show, if more of it is to come. -/
def faultOfPortions? (portions : List (List Char)) : Option Fault :=
  let known := portions.takeWhile fun portion => portion.all isPrintable
  match tokensOf false (Text.withLineFeeds known.flatten) with
  | .ok _ => none
  | .error fault =>
    (shownFault? fault).or (if known.length < portions.length then some .malformed else none)

/-- The value that a document states whose text comes in portions.  No portion is looked
at before the ones in front of it have been cut into tokens. -/
def readPortions (portions : List (List Char)) : Except Fault Value :=
  if portions.all fun portion => portion.all isPrintable then read portions.flatten
  else .error ((faultOfPortions? portions).getD .malformed)

/-! ## The empty text -/

/-- No text shows no token. -/
theorem tokensOf_nil (whole : Bool) :
    tokensOf whole [] = if whole then .ok [] else .error (.unfinished []) := by
  have blank : Scanner.skipBlanks { place := { rest := [] } } = { place := { rest := [] } } := by
    rw [Scanner.skipBlanks]
    rfl
  rw [tokensOf, Scanner.run]
  simp only [List.head?_nil, reduceCtorEq, if_false]
  cases whole <;> simp [Scanner.dropStale, Scanner.keepFresh, blank] <;> rfl

/-- A text that comes in one portion is read as a whole. -/
theorem readPortions_singleton (text : List Char) : readPortions [text] = read text := by
  by_cases printable : text.all isPrintable = true
  · simp [readPortions, printable]
  · simp [readPortions, faultOfPortions?, printable, Text.withLineFeeds, tokensOf_nil, read,
      shownFault?, shownFault?.isRefused, nodeOf]

end TreeStyle.Yaml
