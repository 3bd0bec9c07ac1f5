import TreeStyle.Proofs.Source.Lexemes

/-!
# Literals and the values they state

The canonical texts of colours, attributes and sets of attributes read back to the
values they were written from.  All of them consist of word characters, apart from
the `#` of a mixture and the bars between attributes, so each is one lexeme or a
list of them.

Main statements: `Color.ofString_render`, `Attribute.ofName?_name` and
`AttributeSet.ofList_toList`.
-/

namespace TreeStyle

set_option autoImplicit false

/-! ## Word characters -/

/-- Word characters lie between the hyphen and the letter `z`. -/
theorem Scan.toNat_of_isWordCharacter {character : Char}
    (word : isWordCharacter character = true) :
    0x2D ≤ character.toNat ∧ character.toNat ≤ 0x7A := by
  have between {low high : UInt32} (first : low ≤ character.val) (last : character.val ≤ high) :
      low.toNat ≤ character.toNat ∧ character.toNat ≤ high.toNat := ⟨first, last⟩
  simp only [isWordCharacter, Char.isAlphanum, Bool.or_eq_true, beq_iff_eq] at word
  rcases word with ((alpha | digit) | rfl) | rfl
  · rcases Bool.or_eq_true_iff.mp alpha with upper | lower
    · obtain ⟨first, last⟩ := of_decide_eq_true upper
      have bounds := between first last
      exact ⟨Nat.le_trans (by decide) bounds.1, Nat.le_trans bounds.2 (by decide)⟩
    · obtain ⟨first, last⟩ := Bool.and_eq_true_iff.mp lower
      have bounds := between (of_decide_eq_true first) (of_decide_eq_true last)
      exact ⟨Nat.le_trans (by decide) bounds.1, Nat.le_trans bounds.2 (by decide)⟩
  · have bounds := Char.isDigit_iff_toNat.mp digit
    exact ⟨Nat.le_trans (by decide) bounds.1, Nat.le_trans bounds.2 (by decide)⟩
  · decide
  · decide

theorem Text.isBlank_of_isWordCharacter {character : Char}
    (word : Scan.isWordCharacter character = true) : isBlank character = false := by
  obtain ⟨low, high⟩ := Scan.toNat_of_isWordCharacter word
  simp only [isBlank, isWhiteSpace, Bool.or_eq_false_iff, Bool.and_eq_false_iff,
    decide_eq_false_iff_not, beq_eq_false_iff_ne]
  omega

theorem Text.strip_of_not_blank {text : List Char}
    (solid : ∀ character ∈ text, isBlank character = false) : strip text = text := by
  apply strip_eq_self
  · intro character first
    exact solid character (List.mem_of_head? first)
  · intro character last
    exact solid character (List.mem_of_getLast? last)

/-- Digits have no case. -/
theorem Text.lowerCharacter_of_isDigit {character : Char} (digit : character.isDigit = true) :
    lowerCharacter character = character := by
  have kept : character.toLower = character := by
    simp only [Char.isDigit, Bool.and_eq_true, decide_eq_true_eq] at digit
    refine dif_neg fun upper => ?_
    exact absurd (UInt32.le_trans upper.1 digit.2) (by decide)
  have other : character ≠ kelvinSign := by
    rintro rfl
    exact absurd digit (by decide)
  rw [lowerCharacter, if_neg other, kept]

theorem Text.lower_of_isDigit {text : List Char}
    (digits : ∀ character ∈ text, character.isDigit = true) : lower text = text := by
  refine (List.map_congr_left fun character listed => ?_).trans (List.map_id text)
  exact lowerCharacter_of_isDigit (digits character listed)

theorem Scan.isWordCharacter_of_isDigit {character : Char} (digit : character.isDigit = true) :
    isWordCharacter character = true := by
  simp [isWordCharacter, Char.isAlphanum, digit]

theorem Scan.isWordCharacter_hexDigit (digit : Fin 16) :
    isWordCharacter (Text.hexDigit digit.val) = true := by
  revert digit
  decide

/-! ## Digits -/

namespace Decimal

theorem digit?_digitChar (digit : Fin 10) :
    digit? 10 (Nat.digitChar digit.val) = some digit.val := by
  revert digit
  decide

theorem digit?_hexDigit (digit : Fin 16) :
    digit? 16 (Text.hexDigit digit.val) = some digit.val := by
  revert digit
  decide

/-- The decimal digits of a number read back. -/
theorem readDigits_toDigits (number : Nat) :
    readDigits 10 (Nat.toDigits 10 number) = some number := by
  induction number using Nat.strongRecOn with
  | ind number ih =>
    by_cases short : number < 10
    · have only := digit?_digitChar ⟨number, short⟩
      rw [Nat.toDigits_of_lt_base short, ← List.nil_append [_], readDigits_append_digit,
        readDigits_nil, Option.bind_some, only]
      simp
    · have last := digit?_digitChar ⟨number % 10, Nat.mod_lt number (by decide)⟩
      rw [Nat.toDigits_of_base_le (by decide) (by omega), readDigits_append_digit,
        ih (number / 10) (by omega), Option.bind_some, last]
      simp only [Option.map_some, Option.some.injEq]
      omega

end Decimal

theorem Text.hexDigits_two (value : Nat) :
    hexDigits 2 value = [hexDigit (value / 16 % 16), hexDigit (value % 16)] := rfl

/-- The two hexadecimal digits of a channel read back. -/
theorem Color.channel?_hexDigits (channel : Fin 256) :
    channel? (Text.hexDigit (channel.val / 16 % 16)) (Text.hexDigit (channel.val % 16)) =
      some channel := by
  have high := Decimal.digit?_hexDigit ⟨channel.val / 16 % 16, Nat.mod_lt _ (by decide)⟩
  have low := Decimal.digit?_hexDigit ⟨channel.val % 16, Nat.mod_lt _ (by decide)⟩
  have bound := channel.isLt
  have value : Decimal.readDigits 16
      [Text.hexDigit (channel.val / 16 % 16), Text.hexDigit (channel.val % 16)] =
        some channel.val := by
    simp only [Decimal.readDigits, List.foldlM_cons, List.foldlM_nil, high, low, Option.map_some,
      Option.bind_eq_bind, Option.bind_some, Option.pure_def, Option.some.injEq]
    omega
  rw [channel?, value, Option.bind_some, Color.byte?_eq_some_iff]

/-! ## Colours -/

namespace Color

/-- A palette entry is written with digits alone. -/
theorem render_ansi_digits (index : Fin 256) :
    (ansi index).render.toList = Nat.toDigits 10 index.val ∧
      ∀ character ∈ Nat.toDigits 10 index.val, character.isDigit = true :=
  ⟨Nat.toList_repr, fun _ digit => Nat.isDigit_of_mem_toDigits (by decide) (by decide) digit⟩

/-- A mixture is written with a `#` before word characters. -/
theorem render_rgb_characters (red green blue : Fin 256) :
    ∃ digits, (rgb red green blue).render.toList = '#' :: digits ∧
      rgbOfDigits? digits = some (rgb red green blue) ∧
      ∀ character ∈ digits, Scan.isWordCharacter character = true := by
  refine ⟨_, by rw [render, String.toList_ofList], ?_, ?_⟩
  · simp only [Text.hexDigits_two, List.cons_append, List.nil_append, rgbOfDigits?,
      channel?_hexDigits, Option.bind_eq_bind, Option.bind_some, Option.pure_def]
  · have word (value : Nat) : Scan.isWordCharacter (Text.hexDigit (value % 16)) = true :=
      Scan.isWordCharacter_hexDigit ⟨value % 16, Nat.mod_lt value (by decide)⟩
    simp [Text.hexDigits_two, word]

/-- A literal of at most three digits is read as the palette entry that they state. -/
theorem ofPlainLiteral_digits (token : String) {digits : List Char} {index : Fin 256}
    (nonempty : digits ≠ []) (decimal : ∀ character ∈ digits, character.isDigit = true)
    (value : Decimal.readDigits 10 digits = some index.val) (short : digits.length ≤ 3) :
    ofPlainLiteral token digits = .ok (.ansi index) := by
  have lowered : Text.lower digits = digits := Text.lower_of_isDigit decimal
  have read : Decimal.readNumeral 10 digits = some index.val := by
    rw [Decimal.readNumeral, if_neg nonempty, value]
  have within : ¬Decimal.digitLimit < digits.length := by
    rw [Decimal.digitLimit]
    omega
  have entry : entryOfLiteral token index.val = .ok (.ansi index) := by
    simp only [entryOfLiteral, byte?_eq_some_iff.mpr (show (index.val : Int) = index.val from rfl)]
  unfold ofPlainLiteral
  rw [lowered]
  split
  · next rest =>
    exact absurd (decimal 'x' (List.mem_cons_of_mem _ List.mem_cons_self)) (by decide)
  · simp only [read, if_neg within, entry]

theorem ofString_render_named (name : ColorName) :
    ofString (named name).render = .ok (.named name) := by
  cases name <;> rfl

/-- **A colour is read back from its canonical literal.** -/
theorem ofString_render (color : Color) : ofString color.render = .ok color := by
  cases color with
  | rgb red green blue =>
    obtain ⟨digits, written, read, word⟩ := render_rgb_characters red green blue
    have solid : Text.strip ('#' :: digits) = '#' :: digits := by
      apply Text.strip_of_not_blank
      intro character member
      rcases List.mem_cons.mp member with rfl | member
      · decide
      · exact Text.isBlank_of_isWordCharacter (word character member)
    simp only [ofString, written, solid, read]
  | ansi index =>
    obtain ⟨written, decimal⟩ := render_ansi_digits index
    have word (character : Char) (digit : character ∈ Nat.toDigits 10 index.val) :
        Scan.isWordCharacter character = true :=
      Scan.isWordCharacter_of_isDigit (decimal character digit)
    have solid : Text.strip (Nat.toDigits 10 index.val) = Nat.toDigits 10 index.val :=
      Text.strip_of_not_blank fun character digit =>
        Text.isBlank_of_isWordCharacter (word character digit)
    have short : (Nat.toDigits 10 index.val).length ≤ 3 := by
      rw [Nat.length_toDigits_le_iff (by decide) (by decide)]
      have := index.isLt
      omega
    rw [ofString, written, solid]
    split
    · next rest hash =>
      exact absurd (word '#' (hash ▸ List.mem_cons_self)) (by decide)
    · exact ofPlainLiteral_digits _ Nat.toDigits_ne_nil decimal
        (Decimal.readDigits_toDigits index.val) short
  | named name => exact ofString_render_named name

theorem spelling_characters (name : ColorName) :
    name.spelling.toList ≠ [] ∧ name.spelling.toList.all Scan.isWordCharacter = true := by
  cases name <;> decide

/-- The canonical literal of a colour is one lexeme. -/
theorem lexeme_render (color : Color) :
    Lexeme (.color color.render) color.render.toList := by
  have whole : String.ofList color.render.toList = color.render := String.ofList_toList
  rw [← whole, String.toList_ofList]
  cases color with
  | rgb red green blue =>
    obtain ⟨digits, written, _, word⟩ := render_rgb_characters red green blue
    rw [written]
    exact .hashColor word
  | ansi index =>
    obtain ⟨written, decimal⟩ := render_ansi_digits index
    rw [written]
    refine .color Nat.toDigits_ne_nil fun character digit => ?_
    exact Scan.isWordCharacter_of_isDigit (decimal character digit)
  | named name =>
    obtain ⟨nonempty, word⟩ := spelling_characters name
    exact .color nonempty (List.all_eq_true.mp word)

end Color

/-! ## Attributes -/

/-- **An attribute is found under its canonical name.** -/
theorem Attribute.ofName?_name (flag : Attribute) :
    ofName? flag.name.toList = some flag := by
  cases flag <;> decide

namespace AttributeSet

theorem mem_foldl_insert {flag : Attribute} (flags : List Attribute)
    (attrs : AttributeSet) :
    flag ∈ flags.foldl (fun set member => union set (singleton member)) attrs ↔
      flag ∈ attrs ∨ flag ∈ flags := by
  induction flags generalizing attrs with
  | nil => simp
  | cons first others ih =>
    rw [List.foldl_cons, ih]
    change flag ∈ attrs ∪ singleton first ∨ flag ∈ others ↔ _
    rw [mem_union, mem_singleton, List.mem_cons, or_assoc]

theorem mem_ofList {flag : Attribute} {flags : List Attribute} :
    flag ∈ ofList flags ↔ flag ∈ flags := by
  rw [ofList, mem_foldl_insert]
  exact or_iff_right (not_mem_empty flag)

theorem empty_union (attrs : AttributeSet) : ∅ ∪ attrs = attrs := by
  refine ext_mem fun flag => ?_
  rw [mem_union]
  exact or_iff_right (not_mem_empty flag)

theorem ofList_singleton (flag : Attribute) : ofList [flag] = singleton flag := by
  refine ext_mem fun other => ?_
  rw [mem_ofList, mem_singleton, List.mem_singleton]

theorem union_ofList_cons (attrs : AttributeSet) (flag : Attribute)
    (flags : List Attribute) :
    attrs ∪ singleton flag ∪ ofList flags = attrs ∪ ofList (flag :: flags) := by
  refine ext_mem fun other => ?_
  simp only [mem_union, mem_singleton, mem_ofList, List.mem_cons, or_assoc]

theorem mem_toList {flag : Attribute} {set : AttributeSet} : flag ∈ set.toList ↔ flag ∈ set := by
  simp [toList, Attribute.mem_all]

theorem nodup_toList (set : AttributeSet) : set.toList.Nodup :=
  List.Pairwise.filter _ (by decide : Attribute.all.Nodup)

/-- A set is the set of its members. -/
theorem ofList_toList (set : AttributeSet) : ofList set.toList = set :=
  ext_mem fun flag => by rw [mem_ofList, mem_toList]

theorem toList_ne_nil {set : AttributeSet} (inhabited : set ≠ ∅) : set.toList ≠ [] := by
  intro none
  apply inhabited
  rw [← ofList_toList set, none]
  rfl

end AttributeSet

end TreeStyle
