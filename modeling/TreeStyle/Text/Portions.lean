import TreeStyle.Text.Lines
import TreeStyle.Text.Utf8

/-!
# Text in portions

A long file need not be decoded as a whole before it is read.  Its text is handed over
in portions, the first one of 8192 characters and the others of 4096.  For them the
bytes are decoded in pieces of at least 8192 bytes, and of more if the bytes of the last
piece have made so few characters that more will be needed.

The bytes of a character that a piece leaves unfinished belong to the next piece, and so
do the first two bytes of a surrogate and a carriage return at its end, which may be the
first half of a line end.  The positions in a fault count from the start of the piece
with these bytes.

Main statement: `decodePiece_final` (the last piece is decoded like a whole file).
-/

namespace TreeStyle.Text

set_option autoImplicit false

/-! ## Pieces -/

/-- Whether bytes are the first two of the three that would stand for a surrogate. -/
def isCutSurrogate : List UInt8 → Bool
  | [lead, next] => lead == 0xED && 0xA0 ≤ next && next ≤ 0xBF
  | _ => false

/-- The characters of a piece, and the bytes at its end that leave a character unfinished;
the last piece has to be finished. -/
def decodePiece (isLast : Bool) (bytes : List UInt8) :
    Except Utf8.Fault (List Char × List UInt8) :=
  match Utf8.decode bytes with
  | .ok characters => .ok (characters, [])
  | .error fault =>
    let left := bytes.drop fault.start
    if isLast = false ∧ (fault.reason = .unexpectedEnd ∨ isCutSurrogate left) then
      (Utf8.decode (bytes.take fault.start)).map fun characters =>
        (characters, left)
    else .error fault

/-- The last piece is decoded like a whole file. -/
theorem decodePiece_final (bytes : List UInt8) :
    decodePiece true bytes = (Utf8.decode bytes).map fun characters => (characters, []) := by
  unfold decodePiece
  cases Utf8.decode bytes <;> simp [Except.map]

/-- A file of which a part has been decoded. -/
structure Source where
  /-- The bytes to come. -/
  rest : List UInt8
  /-- The bytes of an unfinished character. -/
  pending : List UInt8 := []
  /-- Whether a carriage return is held back. -/
  heldBack : Bool := false
  /-- The characters that are decoded and not handed over. -/
  ready : List Char := []
  /-- The numbers of bytes and of characters of the last piece. -/
  bytes : Nat := 0
  characters : Nat := 0
  deriving Repr

namespace Source

/-- The least number of bytes in a piece. -/
def pieceSize : Nat := 8192

/-- A measure of what is still to be handed over. -/
def measure (source : Source) : Nat :=
  source.ready.length + 2 * source.rest.length + (if source.heldBack then 1 else 0)

/-- The number of bytes in the next piece, if so many characters are needed. -/
def nextSize (source : Source) (needed : Nat) : Nat :=
  max pieceSize
    (if source.characters < source.bytes then needed * source.bytes / max 1 source.characters
    else needed)

/-- Decodes the next piece for so many characters; nothing if the file has ended. -/
def decodeMore (source : Source) (needed : Nat) : Except Utf8.Fault (Option Source) := do
  let piece := source.rest.take (source.nextSize needed)
  let isLast := piece.isEmpty
  let (decoded, pending) ← decodePiece isLast (source.pending ++ piece)
  let text := if source.heldBack then '\r' :: decoded else decoded
  let heldBack := !isLast && text.getLast? == some '\r'
  let written := withLineFeeds (if heldBack then text.dropLast else text)
  if isLast && written.isEmpty then .ok none
  else
    .ok (some
      { rest := source.rest.drop piece.length
        pending, heldBack
        ready := source.ready ++ written
        bytes := piece.length
        characters := written.length })

/-! ## Portions -/

/-- So many characters, fewer at the end of the file, and the file after them. -/
def take (source : Source) (count : Nat) : Except Utf8.Fault (List Char × Source) :=
  let taken := source.ready.take count
  let left := { source with ready := source.ready.drop count }
  if taken.length = count then .ok (taken, left)
  else
    match left.decodeMore (count - taken.length) with
    | .error fault => .error fault
    | .ok none => .ok (taken, left)
    | .ok (some more) =>
      if _shorter : 2 * more.rest.length + (if more.heldBack then 1 else 0) <
          2 * source.rest.length + (if source.heldBack then 1 else 0) then
        (take more (count - taken.length)).map fun part => (taken ++ part.1, part.2)
      else .ok (taken, left)
termination_by 2 * source.rest.length + (if source.heldBack then 1 else 0)

/-- The portions of a file from the second one on, and the fault that ends them. -/
def laterPortions (source : Source) : List (List Char) × Option Utf8.Fault :=
  match source.take 4096 with
  | .error fault => ([], some fault)
  | .ok ([], _) => ([], none)
  | .ok (portion, left) =>
    if _shorter : left.measure < source.measure then
      let (portions, fault) := laterPortions left
      (portion :: portions, fault)
    else ([portion], none)
termination_by source.measure

end Source

/-- The first portion of a file, which is taken in two halves, and the file after it. -/
def firstPortion (source : Source) : Except Utf8.Fault (List Char × Source) := do
  let (first, left) ← source.take 4096
  let (second, left) ← left.take 4096
  .ok (first ++ second, left)

/-- The portions of the text of a file, and the fault that ends them. -/
def portionsOf (bytes : List UInt8) : List (List Char) × Option Utf8.Fault :=
  match firstPortion { rest := bytes } with
  | .error fault => ([], some fault)
  | .ok (portion, left) =>
    let (portions, fault) := left.laterPortions
    (portion :: portions, fault)

end TreeStyle.Text
