import Mathlib.Data.List.DropRight
import TreeStyle.Proofs.Source.Lexemes
import TreeStyle.Text.Parts

/-!
# Places in a text

A place in a text has a position by the text before it: the offset counts its bytes, the
line its line feeds, and the column its characters behind the last line feed.

A line in front of a text adds the length of the line to the offsets in the text and
moves its lines down, and leaves its columns as they are (`Position.after_line`).  So a
place is found again by its line and its column: the lines before it are passed as a whole,
with the line feeds that end them, and the column counts on in its own line
(`Position.indexOf_after`).
-/

namespace TreeStyle.Text

set_option autoImplicit false

/-! ## Positions -/

/-- The length in UTF-8 that positions count is that of the text as it is stored. -/
theorem utf8Length_toList (text : String) : utf8Length text.toList = text.utf8ByteSize := by
  have general (characters : List Char) :
      utf8Length characters = (String.ofList characters).utf8ByteSize := by
    induction characters with
    | nil => rfl
    | cons character rest ih =>
      rw [utf8Length, ih, String.ofList_cons, String.utf8ByteSize_append,
        String.utf8ByteSize_singleton]
  rw [general, String.ofList_toList]

namespace Position

/-- The column of a place is one more than the number of characters between the last line
feed and the place. -/
theorem column_after (text : List Char) :
    (after text).column = 1 + (text.rtakeWhile (· != '\n')).length := by
  induction text using List.reverseRecOn with
  | nil => rfl
  | append_singleton text character ih =>
    rw [after_append_singleton, List.rtakeWhile_concat]
    by_cases feed : character = '\n'
    · simp [advance, feed]
    · simp [advance, feed, ih, Nat.add_assoc]

/-- In the first line the column counts all characters. -/
theorem column_after_of_not_mem {text : List Char} (oneLine : '\n' ∉ text) :
    (after text).column = 1 + text.length := by
  have whole : text.rtakeWhile (· != '\n') = text := by
    refine List.rtakeWhile_eq_self_iff.mpr fun character member => ?_
    have other : character ≠ '\n' := ne_of_mem_of_not_mem member oneLine
    simp [other]
  rw [column_after, whole]

/-- The position with so many bytes and lines more in front of it. -/
def movedBy (position : Position) (bytes lines : Nat) : Position :=
  ⟨position.offset + bytes, position.line + lines, position.column⟩

theorem foldl_advance_movedBy (text : List Char) (position : Position) (bytes lines : Nat) :
    text.foldl advance (position.movedBy bytes lines) =
      (text.foldl advance position).movedBy bytes lines := by
  induction text generalizing position with
  | nil => rfl
  | cons character rest ih =>
    have moved : (position.movedBy bytes lines).advance character =
        (position.advance character).movedBy bytes lines := by
      by_cases feed : character = '\n'
      · simp [advance, movedBy, feed]
        omega
      · simp [advance, movedBy, feed]
        omega
    rw [List.foldl_cons, List.foldl_cons, moved, ih]

/-- **A line in front of a text** moves the places in the text by its bytes and by its
lines, and leaves their columns. -/
theorem after_line (line text : List Char) :
    after (line ++ '\n' :: text) =
      (after text).movedBy (utf8Length line + 1) (line.count '\n' + 1) := by
  have feed : (after line).advance '\n' =
      start.movedBy (utf8Length line + 1) (line.count '\n' + 1) := by
    have size : Char.utf8Size '\n' = 1 := by decide
    simp only [advance, offset_after, line_after, movedBy, start, size, if_true, mk.injEq,
      and_true]
    omega
  rw [after, List.foldl_append, List.foldl_cons]
  change text.foldl advance ((after line).advance '\n') = _
  rw [feed, foldl_advance_movedBy]
  rfl

end Position

/-! ## Places by line and column -/

/-- A text in front of the first separator belongs to the first part. -/
theorem partsAt_append_of_not_mem {separator : Char} {front : List Char}
    (free : separator ∉ front) {rest part : List Char} {parts : List (List Char)}
    (cut : partsAt separator rest = part :: parts) :
    partsAt separator (front ++ rest) = (front ++ part) :: parts := by
  induction front with
  | nil => exact cut
  | cons character front ih =>
    rw [List.mem_cons, not_or] at free
    rw [List.cons_append, partsAt, if_neg (Ne.symm free.1), ih free.2]
    rfl

/-- The number of characters in front of a column of a line: those of the lines before it,
with their line feeds, and those of its own line. -/
def indexOf (text : List Char) (line column : Nat) : Nat :=
  (((partsAt '\n' text).take (line - 1)).flatMap (· ++ ['\n'])).length + (column - 1)

/-- A place in the first line is found by its column. -/
theorem indexOf_firstLine (text : List Char) (column : Nat) :
    indexOf text 1 column = column - 1 := by
  simp [indexOf]

/-- A place below the first line is found in the lines below it. -/
theorem indexOf_append_line {line : List Char} (oneLine : '\n' ∉ line) (text : List Char)
    {number : Nat} (counted : 1 ≤ number) (column : Nat) :
    indexOf (line ++ '\n' :: text) (number + 1) column =
      line.length + 1 + indexOf text number column := by
  obtain ⟨before, rfl⟩ := Nat.exists_eq_add_of_le' counted
  rw [indexOf, indexOf, partsAt_append_cons oneLine, Nat.add_sub_cancel, Nat.add_sub_cancel,
    List.take_succ_cons, List.flatMap_cons, List.length_append, List.length_append,
    List.length_singleton]
  omega

/-- A text is a last line, or a line with its line feed in front of a text. -/
@[elab_as_elim]
theorem lines_induction {motive : List Char → Prop}
    (last : ∀ line, '\n' ∉ line → motive line)
    (below : ∀ line text, '\n' ∉ line → motive text → motive (line ++ '\n' :: text))
    (text : List Char) : motive text := by
  induction size : text.length using Nat.strongRecOn generalizing text with
  | ind size ih =>
    subst size
    rcases oneLine_or_split text with oneLine | ⟨line, more, oneLine, rfl⟩
    · exact last text oneLine
    · refine below line more oneLine (ih more.length ?_ more rfl)
      rw [List.length_append, List.length_cons]
      omega

/-- **A place is found by its line and its column.**  There is such a line, it goes up to
the column at least, and the characters in front of the column are those in front of the
place. -/
theorem Position.indexOf_after (front rest : List Char) :
    (∃ part, (partsAt '\n' (front ++ rest))[(after front).line - 1]? = some part ∧
      (after front).column ≤ part.length + 1) ∧
    indexOf (front ++ rest) (after front).line (after front).column = front.length := by
  induction front using lines_induction with
  | last front oneLine =>
    have firstLine : (after front).line = 1 := by
      rw [line_after, List.count_eq_zero_of_not_mem oneLine]
    have counted := column_after_of_not_mem oneLine
    obtain ⟨part, parts, cut⟩ : ∃ part parts, partsAt '\n' rest = part :: parts := by
      refine List.exists_cons_of_ne_nil fun none => ?_
      have parted := length_partsAt '\n' rest
      rw [none] at parted
      cases parted
    refine ⟨⟨front ++ part, ?_, ?_⟩, ?_⟩
    · rw [firstLine, partsAt_append_of_not_mem oneLine cut]
      rfl
    · rw [counted, List.length_append]
      omega
    · rw [firstLine, indexOf_firstLine, counted, Nat.add_sub_cancel_left]
  | below line more oneLine ih =>
    obtain ⟨⟨part, listed, within⟩, found⟩ := ih
    have counted : 1 ≤ (after more).line := by
      rw [line_after]
      omega
    have position : after (line ++ '\n' :: more) =
        (after more).movedBy (utf8Length line + 1) 1 := by
      rw [after_line, List.count_eq_zero_of_not_mem oneLine]
    rw [position, List.append_assoc, List.cons_append]
    refine ⟨⟨part, ?_, within⟩, ?_⟩
    · obtain ⟨before, below⟩ := Nat.exists_eq_add_of_le' counted
      rw [below, Nat.add_sub_cancel] at listed
      rw [partsAt_append_cons oneLine, movedBy, below, Nat.add_sub_cancel,
        List.getElem?_cons_succ, listed]
    · rw [movedBy, indexOf_append_line oneLine _ counted, found, List.length_append,
        List.length_cons]
      omega

end TreeStyle.Text
