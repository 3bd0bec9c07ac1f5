import TreeStyle.Text.Quoted

/-!
# Code points

A text in memory is a list of code points, and not all of them are characters: a
surrogate that stands alone is none.  It belongs to no class of characters, and it has
no bytes in UTF-8, so a text that holds one cannot be encoded.

Main statements: `unencodable?_eq_none_iff` and `unencodable?_eq_some_iff` (encoding
fails at the first surrogate, and names all that follow it in a row).
-/

namespace TreeStyle.Text

set_option autoImplicit false

/-- A code point. -/
inductive CodePoint where
  | character (value : Char)
  /-- A lone surrogate, numbered from U+D800. -/
  | surrogate (number : Fin 0x800)
  deriving DecidableEq, Repr

namespace CodePoint

def isSurrogate : CodePoint → Bool
  | character _ => false
  | surrogate _ => true

/-- A character in the place of a code point.  The replacement character belongs to no
class of characters that a stylesheet knows, and neither does a surrogate. -/
def standIn : CodePoint → Char
  | character value => value
  | surrogate _ => '\ufffd'

/-- A surrogate as messages show it. -/
def escape (number : Fin 0x800) : String :=
  String.ofList ('\x5c' :: 'u' :: hexDigits 4 (0xd800 + number.val))

end CodePoint

/-- The code points of a text of characters. -/
def codePoints (text : String) : List CodePoint := text.toList.map .character

theorem map_standIn_codePoints (text : String) :
    (codePoints text).map CodePoint.standIn = text.toList := by
  rw [codePoints, List.map_map]
  exact List.map_id _

theorem isSurrogate_of_mem_codePoints {text : String} :
    ∀ point ∈ codePoints text, point.isSurrogate = false := by
  intro point member
  obtain ⟨character, _, rfl⟩ := List.mem_map.mp member
  rfl

/-! ## Texts that cannot be encoded -/

/-- Where encoding a text fails. -/
structure Unencodable where
  /-- The first surrogate of the text. -/
  first : Fin 0x800
  /-- The number of code points before it. -/
  start : Nat
  /-- The number of surrogates in a row, the first one among them. -/
  count : Nat
  deriving DecidableEq, Repr

/-- The wording of the failure. -/
def Unencodable.message (failure : Unencodable) : String :=
  if failure.count = 1 then
    "'utf-8' codec can't encode character '" ++ CodePoint.escape failure.first ++
      s!"' in position {failure.start}: surrogates not allowed"
  else
    s!"'utf-8' codec can't encode characters in position {failure.start}" ++
      s!"-{failure.start + failure.count - 1}: surrogates not allowed"

/-- Where encoding a text fails, if it does. -/
def unencodable? : List CodePoint → Option Unencodable
  | [] => none
  | .surrogate number :: rest =>
    some ⟨number, 0, (rest.takeWhile CodePoint.isSurrogate).length + 1⟩
  | .character _ :: rest =>
    (unencodable? rest).map fun failure => { failure with start := failure.start + 1 }

/-- A text of characters can be encoded, and no other. -/
theorem unencodable?_eq_none_iff {text : List CodePoint} :
    unencodable? text = none ↔ ∀ point ∈ text, point.isSurrogate = false := by
  induction text with
  | nil => simp [unencodable?]
  | cons point rest ih =>
    cases point with
    | character value => simp [unencodable?, CodePoint.isSurrogate, ih]
    | surrogate number => simp [unencodable?, CodePoint.isSurrogate]

/-- The failure with so many code points more in front of it. -/
def Unencodable.movedBy (failure : Unencodable) (points : Nat) : Unencodable :=
  { failure with start := failure.start + points }

/-- Characters in front of a text move its failure. -/
theorem unencodable?_append_right {front : List CodePoint}
    (characters : ∀ point ∈ front, point.isSurrogate = false) (text : List CodePoint) :
    unencodable? (front ++ text) = (unencodable? text).map (·.movedBy front.length) := by
  induction front with
  | nil =>
    rw [List.nil_append]
    cases unencodable? text <;> rfl
  | cons point rest ih =>
    cases point with
    | surrogate number => cases characters _ List.mem_cons_self
    | character value =>
      rw [List.cons_append, unencodable?, ih fun point member =>
        characters point (List.mem_cons_of_mem _ member)]
      cases unencodable? text <;> rfl

/-- Encoding fails at a surrogate that stands in front, and the failure counts the surrogates
up to the next character. -/
theorem unencodable?_row (number : Fin 0x800) {row after : List CodePoint}
    (surrogates : ∀ point ∈ row, point.isSurrogate = true)
    (stops : ∀ point ∈ after.head?, point.isSurrogate = false) :
    unencodable? (.surrogate number :: (row ++ after)) = some ⟨number, 0, row.length + 1⟩ := by
  have none : after.takeWhile CodePoint.isSurrogate = [] := by
    cases after with
    | nil => rfl
    | cons point rest => simp [stops point rfl]
  rw [unencodable?, List.takeWhile_append_of_pos surrogates, none, List.append_nil]

/-- Encoding a text with a surrogate fails at the first one, and the failure counts the
surrogates up to the next character. -/
theorem unencodable?_eq_some_iff {text : List CodePoint} {failure : Unencodable} :
    unencodable? text = some failure ↔
      ∃ before row after, text = before ++ .surrogate failure.first :: (row ++ after) ∧
        (∀ point ∈ before, point.isSurrogate = false) ∧
        (∀ point ∈ row, point.isSurrogate = true) ∧
        (∀ point ∈ after.head?, point.isSurrogate = false) ∧
        failure.start = before.length ∧ failure.count = row.length + 1 := by
  constructor
  · intro found
    induction text generalizing failure with
    | nil => cases found
    | cons point rest ih =>
      cases point with
      | character value =>
        obtain ⟨other, later, rfl⟩ := Option.map_eq_some_iff.mp found
        obtain ⟨before, row, after, rfl, characters, surrogates, stops, start, count⟩ := ih later
        refine ⟨.character value :: before, row, after, rfl, ?_, surrogates, stops,
          congrArg (· + 1) start, count⟩
        intro point member
        rcases List.mem_cons.mp member with rfl | member
        · rfl
        · exact characters point member
      | surrogate number =>
        cases found
        refine ⟨[], rest.takeWhile CodePoint.isSurrogate, rest.dropWhile CodePoint.isSurrogate,
          ?_, fun point none => (List.not_mem_nil none).elim,
          fun point => List.all_eq_true.mp List.all_takeWhile point, ?_, rfl, rfl⟩
        · rw [List.takeWhile_append_dropWhile]
          rfl
        · intro point first
          have stop := List.head?_dropWhile_not CodePoint.isSurrogate rest
          rw [Option.mem_def.mp first] at stop
          simpa using stop
  · rintro ⟨before, row, after, rfl, characters, surrogates, stops, start, count⟩
    rw [unencodable?_append_right characters, unencodable?_row _ surrogates stops]
    simp [Unencodable.movedBy, ← start, ← count]

/-- A failure stays if a character follows. -/
theorem unencodable?_append_left {text more : List CodePoint} {failure : Unencodable}
    (found : unencodable? text = some failure)
    (stops : ∀ point ∈ more.head?, point.isSurrogate = false) :
    unencodable? (text ++ more) = some failure := by
  obtain ⟨before, row, after, rfl, characters, surrogates, ends, start, count⟩ :=
    unencodable?_eq_some_iff.mp found
  refine unencodable?_eq_some_iff.mpr ⟨before, row, after ++ more, by simp, characters,
    surrogates, ?_, start, count⟩
  cases after with
  | nil => exact stops
  | cons point rest => exact ends

end TreeStyle.Text
