import TreeStyle.Yaml.Token

/-!
# The nodes of a document

The tokens of a document are put together to scalars, sequences and mappings.  In a
block, the entries of a sequence may stand as far to the left as the key they
belong to.  Between square brackets, a key with its value is a mapping of its own.
Wherever a node may be left out, an empty plain scalar takes its place; after the tag of
binary scalars it is an empty binary one.  That tag stands before no collection.

There is at most one document, after a start marker if there is one, and any number
of end markers may follow it.

Where tokens make no node, either one of them stands in a wrong place, or they end
where another one has to follow.
-/

namespace TreeStyle.Yaml

set_option autoImplicit false

/-- A node of a document. -/
inductive Node where
  /-- A scalar, and whether it is plain. -/
  | scalar (text : List Char) (plain : Bool)
  /-- A scalar after the tag of binary scalars. -/
  | binary (text : List Char)
  | sequence (items : List Node)
  | mapping (entries : List (Node × Node))

/-- Why tokens make no node. -/
inductive Halt where
  /-- A token stands in a wrong place. -/
  | refused
  /-- The tokens end too early. -/
  | starved
  deriving DecidableEq, Repr

/-- A node and the tokens after it. -/
abbrev NodeReading : Type := Except Halt (Node × List Token)

/-- Why no node can start with the given tokens. -/
def haltAt (tokens : List Token) : Halt := if tokens = [] then .starved else .refused

/-- The node in the place of one that is left out. -/
def Node.empty : Node := .scalar [] true

/-! ## Where nodes may be left out -/

/-- Whether a token ends the entry of a block sequence. -/
def endsEntry : List Token → Bool
  | .entry :: _ => true
  | .blockEnd :: _ => true
  | _ => false

/-- Whether a token ends the key or the value of an entry of a block mapping. -/
def endsField : List Token → Bool
  | .key :: _ => true
  | .value :: _ => true
  | .blockEnd :: _ => true
  | _ => false

/-- Whether a token ends a key between brackets that close by the given token. -/
def endsKey (close : Token) : List Token → Bool
  | token :: _ => token == .value || token == .comma || token == close
  | [] => false

/-- Whether a token ends a value between brackets that close by the given token. -/
def endsValue (close : Token) : List Token → Bool
  | token :: _ => token == .comma || token == close
  | [] => false

/-- Whether a collection starts with a token; the entries of a sequence need no start of
their own below a key. -/
def startsCollection (belowKey : Bool) : List Token → Bool
  | .listOpen :: _ => true
  | .mappingOpen :: _ => true
  | .sequenceStart :: _ => true
  | .mappingStart :: _ => true
  | .entry :: _ => belowKey
  | _ => false

/-! ## Putting nodes together -/

mutual

/-- The node at the start of a list of tokens, and the tokens after it.  Block
collections count outside of brackets only; the entries of a sequence need a start
of their own unless they stand below a key. -/
def readNode (bracketed belowKey : Bool) (tokens : List Token) : NodeReading :=
  match tokens with
  | .scalar text plain :: rest => .ok (.scalar text plain, rest)
  | .binaryTag :: .scalar text _ :: rest => .ok (.binary text, rest)
  | .binaryTag :: rest =>
    if startsCollection belowKey rest then .error .refused else .ok (.binary [], rest)
  | .listOpen :: rest => readList true [] rest
  | .mappingOpen :: rest => readMapping true [] rest
  | .sequenceStart :: rest => if bracketed then .error .refused else readEntries [] rest
  | .mappingStart :: rest => if bracketed then .error .refused else readFields [] rest
  | .entry :: rest => if belowKey then readUnindented [] (.entry :: rest) else .error .refused
  | _ => .error (haltAt tokens)
termination_by (tokens.length, 1)

/-- The entries of a block sequence, up to its end. -/
def readEntries (done : List Node) (tokens : List Token) : NodeReading :=
  match tokens with
  | .entry :: rest =>
    if endsEntry rest then readEntries (.empty :: done) rest
    else
      match readNode false false rest with
      | .error halt => .error halt
      | .ok (item, after) =>
        if _shorter : after.length ≤ rest.length then readEntries (item :: done) after
        else .error .refused
  | .blockEnd :: rest => .ok (.sequence done.reverse, rest)
  | _ => .error (haltAt tokens)
termination_by (tokens.length, 0)

/-- The entries of a block sequence that is not indented, up to the first token that is
none. -/
def readUnindented (done : List Node) (tokens : List Token) : NodeReading :=
  match tokens with
  | .entry :: rest =>
    if endsEntry rest || endsField rest then readUnindented (.empty :: done) rest
    else
      match readNode false false rest with
      | .error halt => .error halt
      | .ok (item, after) =>
        if _shorter : after.length ≤ rest.length then readUnindented (item :: done) after
        else .error .refused
  | _ => .ok (.sequence done.reverse, tokens)
termination_by (tokens.length, 0)

/-- The entries of a block mapping, up to its end. -/
def readFields (done : List (Node × Node)) (tokens : List Token) : NodeReading :=
  match tokens with
  | .key :: rest =>
    match (if endsField rest then .ok (.empty, rest) else readNode false true rest) with
    | .error halt => .error halt
    | .ok (key, .value :: after) =>
      if _shorter : after.length ≤ rest.length then
        match (if endsField after then .ok (.empty, after) else readNode false true after) with
        | .error halt => .error halt
        | .ok (value, left) =>
          if _shorter : left.length ≤ rest.length then readFields ((key, value) :: done) left
          else .error .refused
      else .error .refused
    | .ok (key, after) =>
      if _shorter : after.length ≤ rest.length then readFields ((key, .empty) :: done) after
      else .error .refused
  | .blockEnd :: rest => .ok (.mapping done.reverse, rest)
  | _ => .error (haltAt tokens)
termination_by (tokens.length, 0)

/-- The items of a list between brackets, up to its end; a comma has to stand before
every one but the first. -/
def readList (first : Bool) (done : List Node) (tokens : List Token) : NodeReading :=
  match tokens with
  | .listClose :: rest => .ok (.sequence done.reverse, rest)
  | .comma :: rest => if first then .error .refused else readItem done rest
  | others => if first then readItem done others else .error (haltAt others)
termination_by (tokens.length, 3)

/-- An item of a list between brackets and those after it; there may be none after the
last comma. -/
def readItem (done : List Node) (tokens : List Token) : NodeReading :=
  match tokens with
  | .listClose :: rest => .ok (.sequence done.reverse, rest)
  | .key :: rest =>
    match readPair .listClose rest with
    | .error halt => .error halt
    | .ok (entry, after) =>
      if _shorter : after.length ≤ rest.length then
        readList false (.mapping [entry] :: done) after
      else .error .refused
  | others =>
    match readNode true false others with
    | .error halt => .error halt
    | .ok (item, after) =>
      if _shorter : after.length < others.length then readList false (item :: done) after
      else .error .refused
termination_by (tokens.length, 2)

/-- The key and the value of an entry between brackets. -/
def readPair (close : Token) (tokens : List Token) : Except Halt ((Node × Node) × List Token) :=
  match (if endsKey close tokens then .ok (.empty, tokens) else readNode true false tokens) with
  | .error halt => .error halt
  | .ok (key, .value :: after) =>
    if _shorter : after.length < tokens.length then
      match (if endsValue close after then .ok (.empty, after) else readNode true false after) with
      | .error halt => .error halt
      | .ok (value, left) => .ok ((key, value), left)
    else .error .refused
  | .ok (key, after) => .ok ((key, .empty), after)
termination_by (tokens.length, 2)

/-- The entries of a mapping between brackets, up to its end; a comma has to stand
before every one but the first. -/
def readMapping (first : Bool) (done : List (Node × Node)) (tokens : List Token) : NodeReading :=
  match tokens with
  | .mappingClose :: rest => .ok (.mapping done.reverse, rest)
  | .comma :: rest => if first then .error .refused else readMember done rest
  | others => if first then readMember done others else .error (haltAt others)
termination_by (tokens.length, 3)

/-- An entry of a mapping between brackets and those after it; there may be none after
the last comma. -/
def readMember (done : List (Node × Node)) (tokens : List Token) : NodeReading :=
  match tokens with
  | .mappingClose :: rest => .ok (.mapping done.reverse, rest)
  | .key :: rest =>
    match readPair .mappingClose rest with
    | .error halt => .error halt
    | .ok (entry, after) =>
      if _shorter : after.length ≤ rest.length then readMapping false (entry :: done) after
      else .error .refused
  | others =>
    match readNode true false others with
    | .error halt => .error halt
    | .ok (key, after) =>
      if _shorter : after.length < others.length then
        readMapping false ((key, .empty) :: done) after
      else .error .refused
termination_by (tokens.length, 2)

end

/-! ## Documents -/

/-- Whether only end markers are left. -/
def onlyEndMarkers (tokens : List Token) : Bool := tokens.all (· == .documentEnd)

/-- The node of a document; nothing in the place of the node if there is none. -/
def nodeOf (tokens : List Token) : Except Halt (Option Node) :=
  match tokens with
  | [] => .ok none
  | .documentStart :: rest =>
    if onlyEndMarkers rest then .ok (some .empty)
    else finishDocument (readNode false false rest)
  | _ => finishDocument (readNode false false tokens)
where
  /-- The node that was read, if no further document follows. -/
  finishDocument : NodeReading → Except Halt (Option Node)
    | .ok (node, rest) => if onlyEndMarkers rest then .ok (some node) else .error .refused
    | .error halt => .error halt

end TreeStyle.Yaml
