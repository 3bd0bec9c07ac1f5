import Mathlib.Data.List.Forall2
import Mathlib.Data.Nat.Digits.Defs
import TreeStyle.Proofs.Grammar.Validity
import TreeStyle.Proofs.Values.Spellings

/-!
# The literals of colours

A colour has literals of four forms: a mixture of red, green and blue after a `#`, an
index of the palette in hexadecimal or in decimal, and a name.  Each form is described by
the digits and letters that it consists of (`Color.IsLiteral`), where numbers are what
their digits make in positional notation (`Decimal.IsNumeral`).

How a text starts shows which form it can have (`Color.Form.ofText`), so the forms exclude
each other.

Main statements: `Decimal.readNumeral_eq_some_iff`, `Color.ofPlainLiteral_eq_ok_iff` and
`Color.ofString_eq_ok_iff_isLiteral`.
-/

namespace TreeStyle

set_option autoImplicit false

/-! ## Numerals -/

namespace Decimal

/-- The digits in the order of their values, in lower and in upper case. -/
def digitRows : List (List Char) := ["0123456789abcdef".toList, "0123456789ABCDEF".toList]

/-- A digit of a base: its value is its place in a row of digits. -/
def IsDigit (base : Nat) (character : Char) (value : Nat) : Prop :=
  value < base ∧ ∃ row ∈ digitRows, row[value]? = some character

/-- One or more digits that make a number, of which the last counts ones. -/
def IsNumeral (base : Nat) (numeral : List Char) (number : Nat) : Prop :=
  numeral ≠ [] ∧ ∃ values, List.Forall₂ (IsDigit base) numeral.reverse values ∧
    number = Nat.ofDigits base values

theorem digit?_eq_some_iff {base value : Nat} {character : Char} :
    digit? base character = some value ↔ IsDigit base character value := by
  constructor
  · intro read
    refine ⟨digit?_eq_some_lt read, ?_⟩
    have digits : ∀ value < 10,
        "0123456789abcdef".toList[value]? = some (Char.ofNat (0x30 + value)) := by
      decide
    have letters : ∀ value < 6,
        "0123456789abcdef".toList[10 + value]? = some (Char.ofNat (0x61 + value)) := by
      decide
    have capitals : ∀ value < 6,
        "0123456789ABCDEF".toList[10 + value]? = some (Char.ofNat (0x41 + value)) := by
      decide
    have lower : "0123456789abcdef".toList ∈ digitRows := List.mem_cons_self
    have upper : "0123456789ABCDEF".toList ∈ digitRows := List.mem_cons_of_mem _ List.mem_cons_self
    have self := character.ofNat_toNat
    simp only [digit?, Option.filter_eq_some_iff] at read
    obtain ⟨read, -⟩ := read
    split at read
    · next range =>
      obtain rfl := Option.some.inj read
      refine ⟨_, lower, (digits _ (by omega)).trans ?_⟩
      rw [Nat.add_sub_cancel' range.1, self]
    · split at read
      · next range =>
        obtain rfl := Option.some.inj read
        have row := letters (character.toNat - 0x61) (by omega)
        rw [Nat.add_sub_cancel' range.1, self] at row
        exact ⟨_, lower, (congrArg ("0123456789abcdef".toList[·]?) (by omega)).trans row⟩
      · split at read
        · next range =>
          obtain rfl := Option.some.inj read
          have row := capitals (character.toNat - 0x41) (by omega)
          rw [Nat.add_sub_cancel' range.1, self] at row
          exact ⟨_, upper, (congrArg ("0123456789ABCDEF".toList[·]?) (by omega)).trans row⟩
        · cases read
  · rintro ⟨below, row, listed, placed⟩
    have reads : ∀ row ∈ digitRows,
        row.length = 16 ∧ ∀ value < 16, row[value]?.bind (digit? 16) = some value := by
      decide
    obtain ⟨length, read⟩ := reads row listed
    have inside := (List.getElem?_eq_some_iff.mp placed).1
    have read := read value (by omega)
    rw [placed, Option.bind_some] at read
    simp only [digit?, Option.filter_eq_some_iff, decide_eq_true_eq] at read ⊢
    exact ⟨read.1, below⟩

theorem IsDigit.isDigit {character : Char} {value : Nat} (digit : IsDigit 10 character value) :
    character.isDigit = true := by
  have decimal : ∀ row ∈ digitRows, ∀ value < 10, row[value]?.all Char.isDigit = true := by
    decide
  obtain ⟨below, row, listed, placed⟩ := digit
  have digits := decimal row listed value below
  rwa [placed, Option.all_some] at digits

/-- Digits are read as the number that they make in positional notation. -/
theorem readDigits_reverse_eq_some_iff {base number : Nat} {digits : List Char} :
    readDigits base digits.reverse = some number ↔
      ∃ values, List.Forall₂ (IsDigit base) digits values ∧
        number = Nat.ofDigits base values := by
  induction digits generalizing number with
  | nil => simp [readDigits_nil, eq_comm]
  | cons digit digits ih =>
    rw [List.reverse_cons, readDigits_append_digit, Option.bind_eq_some_iff]
    simp only [Option.map_eq_some_iff, digit?_eq_some_iff, ih, List.forall₂_cons_left_iff]
    constructor
    · rintro ⟨higher, ⟨values, read, rfl⟩, value, last, rfl⟩
      refine ⟨value :: values, ⟨value, values, last, read, rfl⟩, ?_⟩
      rw [Nat.ofDigits_cons, Nat.add_comm]
    · rintro ⟨_, ⟨value, values, last, read, rfl⟩, rfl⟩
      refine ⟨_, ⟨values, read, rfl⟩, value, last, ?_⟩
      rw [Nat.ofDigits_cons, Nat.add_comm]

/-- **A numeral is read as the number that its digits make.** -/
theorem readNumeral_eq_some_iff {base number : Nat} {numeral : List Char} :
    readNumeral base numeral = some number ↔ IsNumeral base numeral number := by
  unfold readNumeral
  split
  · next empty => simp [IsNumeral, empty]
  · next nonempty =>
    rw [IsNumeral, ← readDigits_reverse_eq_some_iff, List.reverse_reverse]
    exact (and_iff_right nonempty).symm

theorem IsNumeral.unique {base number other : Nat} {numeral : List Char}
    (isNumber : IsNumeral base numeral number) (isOther : IsNumeral base numeral other) :
    number = other := by
  rw [← readNumeral_eq_some_iff] at isNumber isOther
  exact Option.some.inj (isNumber.symm.trans isOther)

/-- The value of a digit does not depend on its case. -/
theorem digit?_lowerCharacter (base : Nat) (character : Char) :
    digit? base (Text.lowerCharacter character) = digit? base character := by
  rcases Text.lowerCharacter_cases character with kept | ⟨low, high, moved⟩ | ⟨rfl, letter⟩
  · rw [kept]
  · have digit : ¬(0x30 ≤ character.toNat ∧ character.toNat ≤ 0x39) := by omega
    have letter : ¬(0x61 ≤ character.toNat ∧ character.toNat ≤ 0x66) := by omega
    have moved_digit : ¬(0x30 ≤ character.toNat + 0x20 ∧ character.toNat + 0x20 ≤ 0x39) := by omega
    simp only [digit?]
    rw [moved, if_neg digit, if_neg letter, if_neg moved_digit]
    congr 1
    by_cases hexadecimal : character.toNat ≤ 0x46
    · rw [if_pos (by omega), if_pos ⟨low, hexadecimal⟩]
      exact congrArg some (by omega)
    · rw [if_neg (by omega), if_neg (by omega), if_neg (by omega)]
  · rw [letter]
    rfl

theorem readNumeral_lower (base : Nat) (numeral : List Char) :
    readNumeral base (Text.lower numeral) = readNumeral base numeral := by
  simp only [readNumeral, readDigits, Text.lower, List.map_eq_nil_iff, List.foldlM_map,
    digit?_lowerCharacter]

end Decimal

/-! ## Forms of literals -/

/-- The spellings of a colour name lead back to it. -/
theorem ColorName.ofSpelling?_eq_some_iff {text : List Char} {name : ColorName} :
    ofSpelling? text = some name ↔ text ∈ name.spellings :=
  Text.find?_spellings_iff (by decide +kernel) name.mem_all

namespace Color

/-- The forms that a literal can have. -/
inductive Form where
  | mixture | hexIndex | decimalIndex | name
  deriving DecidableEq

/-- The literals of colours, without blanks around them. -/
inductive IsLiteral : Form → List Char → Color → Prop
  /-- A `#` and two hexadecimal digits for each channel. -/
  | mixture {r₁ r₂ g₁ g₂ b₁ b₂ : Char} {red green blue : Fin 256}
      (isRed : Decimal.IsNumeral 16 [r₁, r₂] red) (isGreen : Decimal.IsNumeral 16 [g₁, g₂] green)
      (isBlue : Decimal.IsNumeral 16 [b₁, b₂] blue) :
      IsLiteral .mixture ['#', r₁, r₂, g₁, g₂, b₁, b₂] (.rgb red green blue)
  /-- A zero, an `x` in either case, and the index in hexadecimal. -/
  | hexIndex {marker : Char} {digits : List Char} {index : Fin 256}
      (marked : marker = 'x' ∨ marker = 'X') (isIndex : Decimal.IsNumeral 16 digits index) :
      IsLiteral .hexIndex ('0' :: marker :: digits) (.ansi index)
  /-- The index in decimal, with no more digits than an integer may have. -/
  | decimalIndex {digits : List Char} {index : Fin 256}
      (isIndex : Decimal.IsNumeral 10 digits index)
      (within : digits.length ≤ Decimal.digitLimit) :
      IsLiteral .decimalIndex digits (.ansi index)
  /-- A spelling of a name, without regard to case. -/
  | name {text : List Char} {name : ColorName} (spelled : Text.lower text ∈ name.spellings) :
      IsLiteral .name text (.named name)

/-- The only form that a literal can have, by how it starts. -/
def Form.ofText : List Char → Form
  | '#' :: _ => mixture
  | text =>
    match Text.lower text with
    | '0' :: 'x' :: _ => hexIndex
    | lowered => if lowered.head?.any Char.isDigit then decimalIndex else name

theorem isDigit_of_isNumeral {digits : List Char} {number : Nat}
    (numeral : Decimal.IsNumeral 10 digits number) :
    ∀ character ∈ digits, character.isDigit = true := by
  obtain ⟨-, values, related, -⟩ := numeral
  have all := ((List.forall₂_and_left _ _).mp
    (related.imp fun _ _ digit => ⟨digit.isDigit, digit⟩)).1
  exact fun character listed => all character (List.mem_reverse.mpr listed)

/-- A name starts with neither a `#` nor a digit. -/
theorem head?_spelling (name : ColorName) : ∀ spelling ∈ name.spellings,
    spelling.head?.any (fun first => first != '#' && !first.isDigit) = true := by
  cases name <;> decide

/-- **How a literal starts shows its form.** -/
theorem IsLiteral.form_eq {form : Form} {text : List Char} {color : Color}
    (literal : IsLiteral form text color) : form = Form.ofText text := by
  cases literal with
  | mixture => rfl
  | hexIndex marked => rcases marked with rfl | rfl <;> rfl
  | decimalIndex isIndex =>
    have digits := isDigit_of_isNumeral isIndex
    unfold Form.ofText
    split
    · exact absurd (digits '#' List.mem_cons_self) (by decide)
    · rw [Text.lower_of_isDigit digits]
      split
      · exact absurd (digits 'x' (List.mem_cons_of_mem _ List.mem_cons_self)) (by decide)
      · cases text with
        | nil => exact absurd rfl isIndex.1
        | cons first rest =>
          rw [List.head?_cons, Option.any_some, digits first List.mem_cons_self]
          rfl
  | @name _ name spelled =>
    have start := head?_spelling name _ spelled
    unfold Form.ofText
    split
    · cases start
    · split
      · next lowered =>
        rw [lowered] at start
        cases start
      · cases first : (Text.lower _).head? with
        | none => rfl
        | some first =>
          rw [first, Option.any_some, Bool.and_eq_true, Bool.not_eq_true'] at start
          rw [Option.any_some, start.2]
          rfl

theorem IsLiteral.color_eq {form : Form} {text : List Char} {color other : Color}
    (literal : IsLiteral form text color) (again : IsLiteral form text other) : color = other := by
  cases literal with
  | mixture isRed isGreen isBlue =>
    cases again with
    | mixture isRed' isGreen' isBlue' =>
      rw [Fin.ext (isRed.unique isRed'), Fin.ext (isGreen.unique isGreen'),
        Fin.ext (isBlue.unique isBlue')]
  | hexIndex _ isIndex =>
    cases again with
    | hexIndex _ isIndex' => rw [Fin.ext (isIndex.unique isIndex')]
  | decimalIndex isIndex =>
    cases again with
    | decimalIndex isIndex' => rw [Fin.ext (isIndex.unique isIndex')]
  | name spelled =>
    cases again with
    | name spelled' =>
      rw [← ColorName.ofSpelling?_eq_some_iff] at spelled spelled'
      rw [Option.some.inj (spelled.symm.trans spelled')]

/-! ## Reading literals -/

theorem entryOfLiteral_eq_ok_iff {token : String} {value : Nat} {color : Color} :
    entryOfLiteral token value = .ok color ↔
      ∃ index : Fin 256, value = index ∧ color = .ansi index := by
  unfold entryOfLiteral
  split
  · next entry read =>
    have value_eq : value = entry := Int.ofNat.inj (byte?_eq_some_iff.mp read)
    constructor
    · intro same
      exact ⟨entry, value_eq, (Except.ok.inj same).symm⟩
    · rintro ⟨index, same, rfl⟩
      rw [Fin.ext (value_eq.symm.trans same)]
  · next refused =>
    constructor
    · intro same
      cases same
    · rintro ⟨index, rfl, -⟩
      rw [byte?_eq_some_iff.mpr rfl] at refused
      cases refused

theorem channel?_eq_some_iff {high low : Char} {channel : Fin 256} :
    channel? high low = some channel ↔ Decimal.IsNumeral 16 [high, low] channel := by
  rw [← Decimal.readNumeral_eq_some_iff, channel?, Option.bind_eq_some_iff,
    Decimal.readNumeral, if_neg (List.cons_ne_nil high [low])]
  constructor
  · rintro ⟨value, read, inRange⟩
    rw [read, Int.ofNat.inj (byte?_eq_some_iff.mp inRange)]
  · intro read
    exact ⟨channel, read, byte?_eq_some_iff.mpr rfl⟩

theorem rgbOfDigits?_eq_some_iff {digits : List Char} {color : Color} :
    rgbOfDigits? digits = some color ↔ IsLiteral .mixture ('#' :: digits) color := by
  constructor
  · intro read
    unfold rgbOfDigits? at read
    split at read
    · simp only [Option.bind_eq_bind, Option.bind_eq_some_iff, Option.pure_def,
        Option.some.injEq] at read
      obtain ⟨red, isRed, green, isGreen, blue, isBlue, rfl⟩ := read
      exact .mixture (channel?_eq_some_iff.mp isRed) (channel?_eq_some_iff.mp isGreen)
        (channel?_eq_some_iff.mp isBlue)
    · cases read
  · rintro (⟨isRed, isGreen, isBlue⟩)
    simp only [rgbOfDigits?, channel?_eq_some_iff.mpr isRed, channel?_eq_some_iff.mpr isGreen,
      channel?_eq_some_iff.mpr isBlue, Option.bind_eq_bind, Option.bind_some, Option.pure_def]

/-- No numeral spells a name. -/
theorem not_spelling_of_isNumeral {text : List Char} {number : Nat}
    (numeral : Decimal.IsNumeral 10 text number) (name : ColorName) :
    Text.lower text ∉ name.spellings := by
  intro spelled
  have digits := isDigit_of_isNumeral numeral
  have start := head?_spelling name _ spelled
  rw [Text.lower_of_isDigit digits] at start
  cases text with
  | nil => exact numeral.1 rfl
  | cons first rest =>
    rw [List.head?_cons, Option.any_some, digits first List.mem_cons_self, Bool.not_true,
      Bool.and_false] at start
    cases start

/-- A text in lower case starts with the marker of hexadecimal digits if the text does. -/
theorem lower_eq_marked {text lowered : List Char}
    (same : Text.lower text = '0' :: 'x' :: lowered) :
    ∃ marker digits, text = '0' :: marker :: digits ∧ (marker = 'x' ∨ marker = 'X') ∧
      lowered = Text.lower digits := by
  obtain ⟨first, rest, rfl, zero, same⟩ := List.map_eq_cons_iff.mp same
  obtain ⟨marker, digits, rfl, marked, rfl⟩ := List.map_eq_cons_iff.mp same
  obtain rfl := Text.eq_of_lowerCharacter (by decide) zero
  exact ⟨marker, digits, rfl, Text.lowerCharacter_eq_x_iff.mp marked, rfl⟩

/-- **A literal that does not start with a `#` is read as the colour it states.** -/
theorem ofPlainLiteral_eq_ok_iff {token : String} {text : List Char} {color : Color}
    (plain : text.head? ≠ some '#') :
    ofPlainLiteral token text = .ok color ↔ ∃ form, IsLiteral form text color := by
  unfold ofPlainLiteral
  split
  · next lowered hexadecimal =>
    obtain ⟨marker, digits, rfl, marked, rfl⟩ := lower_eq_marked hexadecimal
    rw [Decimal.readNumeral_lower]
    constructor
    · intro read
      split at read
      · next value numeral =>
        obtain ⟨index, rfl, rfl⟩ := entryOfLiteral_eq_ok_iff.mp read
        exact ⟨.hexIndex, .hexIndex marked (Decimal.readNumeral_eq_some_iff.mp numeral)⟩
      · cases read
    · rintro ⟨form, literal⟩
      obtain rfl : form = .hexIndex := by
        rw [literal.form_eq]
        rcases marked with rfl | rfl <;> rfl
      cases literal with
      | hexIndex _ isIndex =>
        rw [Decimal.readNumeral_eq_some_iff.mpr isIndex]
        exact entryOfLiteral_eq_ok_iff.mpr ⟨_, rfl, rfl⟩
  · next unmarked =>
    constructor
    · intro read
      split at read
      · next value numeral =>
        split at read
        · cases read
        · next short =>
          obtain ⟨index, rfl, rfl⟩ := entryOfLiteral_eq_ok_iff.mp read
          exact ⟨.decimalIndex, .decimalIndex (Decimal.readNumeral_eq_some_iff.mp numeral)
            (Nat.le_of_not_lt short)⟩
      · split at read
        · next name found =>
          obtain rfl := Except.ok.inj read
          exact ⟨.name, .name (ColorName.ofSpelling?_eq_some_iff.mp found)⟩
        · cases read
    · rintro ⟨form, literal⟩
      cases literal with
      | mixture => exact absurd rfl plain
      | @hexIndex _ digits _ marked =>
        exfalso
        rcases marked with rfl | rfl <;> exact unmarked (Text.lower digits) rfl
      | decimalIndex isIndex within =>
        rw [Decimal.readNumeral_eq_some_iff.mpr isIndex]
        simp only [Nat.not_lt_of_le within, if_false]
        exact entryOfLiteral_eq_ok_iff.mpr ⟨_, rfl, rfl⟩
      | name spelled =>
        cases numeral : Decimal.readNumeral 10 text with
        | some value =>
          exact absurd spelled
            (not_spelling_of_isNumeral (Decimal.readNumeral_eq_some_iff.mp numeral) _)
        | none => rw [ColorName.ofSpelling?_eq_some_iff.mpr spelled]

/-- **A text is read as the colour that its core is a literal of.** -/
theorem ofString_eq_ok_iff {token : String} {color : Color} :
    ofString token = .ok color ↔
      ∃ core form, Text.IsCore token.toList core ∧ IsLiteral form core color := by
  simp only [Text.isCore_iff, exists_and_left, exists_eq_left]
  unfold ofString
  split
  · next digits hashed =>
    rw [hashed]
    constructor
    · intro read
      split at read
      · next found =>
        obtain rfl := Except.ok.inj read
        exact ⟨.mixture, rgbOfDigits?_eq_some_iff.mp found⟩
      · cases read
    · rintro ⟨form, literal⟩
      obtain rfl : form = .mixture := literal.form_eq
      rw [rgbOfDigits?_eq_some_iff.mpr literal]
  · next plain =>
    refine ofPlainLiteral_eq_ok_iff ?_
    intro hashed
    obtain ⟨digits, hashed⟩ := List.head?_eq_some_iff.mp hashed
    exact plain digits hashed

/-- **The texts that are read as colours are the literals, with blanks around them.**  What
is not a literal is refused.  No text has two of the forms or states two colours, each
number that is read is in range, and the canonical literal of every colour is read as
that colour. -/
theorem ofString_eq_ok_iff_isLiteral (token : String) :
    (∀ color, ofString token = .ok color ↔
        ∃ core form, Text.IsCore token.toList core ∧ IsLiteral form core color) ∧
      ((∃ error, ofString token = .error error) ↔
        ¬∃ core form color, Text.IsCore token.toList core ∧ IsLiteral form core color) ∧
      (∀ (form other : Form) (text : List Char) (color further : Color),
        IsLiteral form text color → IsLiteral other text further →
          form = other ∧ color = further) ∧
      (∀ color, ofString token = .ok color → ∀ number ∈ color.numbers, number ≤ 255) ∧
      ∀ color : Color, ofString color.render = .ok color := by
  refine ⟨fun _ => ofString_eq_ok_iff, ?_, ?_, fun color _ => color.number_le, ofString_render⟩
  · constructor
    · rintro ⟨error, refused⟩ ⟨core, form, color, isCore, literal⟩
      rw [ofString_eq_ok_iff.mpr ⟨core, form, isCore, literal⟩] at refused
      cases refused
    · intro none
      cases read : ofString token with
      | error error => exact ⟨error, rfl⟩
      | ok color =>
        obtain ⟨core, form, isCore, literal⟩ := ofString_eq_ok_iff.mp read
        exact absurd ⟨core, form, color, isCore, literal⟩ none
  · intro form other text color further literal again
    obtain rfl : form = other := literal.form_eq.trans again.form_eq.symm
    exact ⟨rfl, literal.color_eq again⟩

/-- The greatest index with a marker, capitals and zeros in front, and the American spelling
of a grey. -/
theorem ofString_padded_literals :
    ofString "\t0X00fF " = .ok (.ansi 255) ∧ ofString " Dark_Gray\n" = .ok (.named .darkGrey) := by
  have index : Decimal.IsNumeral 16 "00fF".toList 255 :=
    Decimal.readNumeral_eq_some_iff.mp (by decide)
  constructor
  · refine ((ofString_eq_ok_iff_isLiteral "\t0X00fF ").1 _).mpr
      ⟨"0X00fF".toList, .hexIndex, ?_, .hexIndex (.inr rfl) index⟩
    exact Text.isCore_iff.mpr (by decide)
  · refine ((ofString_eq_ok_iff_isLiteral " Dark_Gray\n").1 _).mpr
      ⟨"Dark_Gray".toList, .name, ?_, .name (by decide)⟩
    exact Text.isCore_iff.mpr (by decide)

end Color

end TreeStyle
