import TreeStyle.Proofs.Grammar.Descent
import TreeStyle.Proofs.Grammar.FirstError
import TreeStyle.Proofs.Grammar.RoundTrip

/-!
# What reading ends in

Reading a source in memory ends in a valid stylesheet, or at the place of an error.  A
token that is pending where a colour is due, or a constructor that refuses its parts, is
never what it ends in.  The error is reported unless a surrogate stands before it, and
then it is the encoding of the text before it that fails.

A stylesheet is valid for a source (`Stylesheet.IsValid`) if its rules have selectors, its
selectors join identifiers of the source by one combinator fewer, and its declarations
state something, with attributes where attributes are given and with colours in range.

Main statement: `Stylesheet.ofSource_valid_or_failure`.
-/

namespace TreeStyle

set_option autoImplicit false

/-- The numbers that a colour is made of. -/
def Color.numbers : Color → List Nat
  | rgb red green blue => [red, green, blue]
  | ansi index => [index]
  | named _ => []

theorem Color.number_le (color : Color) : ∀ number ∈ color.numbers, number ≤ 255 := by
  intro number member
  cases color with
  | rgb red green blue =>
    simp only [numbers, List.mem_cons, List.not_mem_nil, or_false] at member
    omega
  | ansi index =>
    rw [numbers, List.mem_singleton] at member
    omega
  | named name => cases member

/-- A style that states something, some attributes if it states attributes, and colours
in range. -/
structure PartialStyle.IsValid (style : PartialStyle) : Prop where
  specified : style.fg ≠ none ∨ style.bg ≠ none ∨ style.attrs ≠ none
  attrs : ∀ attrs, style.attrs = some attrs →
    attrs.toList ≠ [] ∧ attrs = AttributeSet.ofList attrs.toList ∧ attrs.toList ⊆ Attribute.all
  colors : ∀ color, style.fg = some color ∨ style.bg = some color →
    ∀ number ∈ color.numbers, number ≤ 255

/-- A rule whose kinds are among the given tokens. -/
structure Rule.IsValid (tokens : List Token) (rule : Rule) : Prop where
  selectors : 0 < rule.selectors.length
  combinators : ∀ chain ∈ rule.selectors, chain.combinators.length + 1 = chain.atoms.length
  atoms : ∀ chain ∈ rule.selectors, ∀ atom ∈ chain.atoms, .identifier atom ∈ tokens
  style : ∀ style, rule.declaration = .properties style → style.val.IsValid

/-- A stylesheet whose kinds are identifiers of a source. -/
def Stylesheet.IsValid (source : List Char) (sheet : Stylesheet) : Prop :=
  ∃ tokens, Spells tokens source ∧ ∀ rule ∈ sheet.rules, rule.IsValid tokens

/-- A style that can be written is valid, provided that it states something. -/
theorem PartialStyle.IsWritable.isValid {style : PartialStyle} (writable : style.IsWritable)
    (specified : style.isEmpty = false) : style.IsValid := by
  refine ⟨?_, ?_, fun color _ => color.number_le⟩
  · obtain ⟨fg, bg, attrs⟩ := style
    simp only [isEmpty, Bool.and_eq_false_iff, Option.isNone_eq_false_iff,
      Option.isSome_iff_ne_none] at specified
    rwa [or_assoc] at specified
  · intro attrs stated
    have inhabited : attrs ≠ ∅ := fun empty => writable (empty ▸ stated)
    refine ⟨AttributeSet.toList_ne_nil inhabited, (AttributeSet.ofList_toList attrs).symm, ?_⟩
    exact fun flag _ => flag.mem_all

theorem Grammar.IsRule.isValid {tokens : List Token} {rule : Rule}
    (phrase : IsRule tokens rule) : rule.IsValid tokens := by
  refine ⟨List.length_pos_iff.mpr rule.selectors_ne_nil, fun chain _ => chain.length_combinators,
    phrase.mem_tokens, fun style stated => ?_⟩
  have writable := phrase.isWritable
  rw [stated] at writable
  exact PartialStyle.IsWritable.isValid writable style.property

/-- **Whatever a source derives is valid for it.** -/
theorem Stylesheet.Derives.isValid {source : List Char} {sheet : Stylesheet}
    (derived : Derives source sheet) : sheet.IsValid source := by
  obtain ⟨tokens, spelled, phrase⟩ := derived
  refine ⟨tokens, spelled, fun rule member => ?_⟩
  obtain ⟨part, stated, within⟩ := phrase.exists_rule rule member
  obtain ⟨selectors, combinators, atoms, style⟩ := stated.isValid
  refine ⟨selectors, combinators, fun chain listed atom inChain => ?_, style⟩
  exact within _ (atoms chain listed atom inChain)

/-- **Reading ends in a valid stylesheet or at the place of an error, and in nothing else**:
no token is ever pending where a colour is asked for, and no constructor refuses its parts.
The error is reported if no surrogate stands before it; it is the error that the source has
with a character that starts no token in place of each surrogate, or it names the surrogate
that it stands at. -/
theorem Stylesheet.ofSource_valid_or_failure (source : List Text.CodePoint) :
    (∃ sheet, ofSource source = .ok sheet ∧
        sheet.IsValid (source.map Text.CodePoint.standIn)) ∨
      ∃ front back error failure, source = front ++ back ∧
        ofCharacters (source.map Text.CodePoint.standIn) = .error error ∧
        error.position = .after (front.map Text.CodePoint.standIn) ∧
        ofSource source = .error (.error failure) ∧
        failure.IsBehind { error with cause := error.cause.atPoint back.head? } front := by
  rw [ofSource_eq]
  cases read : readRules .between [] (source.map Text.CodePoint.standIn) with
  | ok rules =>
    have whole : ofCharacters (source.map Text.CodePoint.standIn) = .ok ⟨rules⟩ := by
      rw [ofCharacters, read]
    exact .inl ⟨_, rfl, (ofCharacters_eq_ok_iff.mp whole).isValid⟩
  | error fault =>
    obtain ⟨front, back, rfl, start⟩ := SourceFailure.exists_front read
    have size : fault.start.length = back.length := by rw [start, List.length_map]
    refine .inr ⟨front, back, ParseError.ofFault _ fault, _, rfl, by rw [ofCharacters, read],
      ?_, rfl, ?_⟩
    · rw [List.map_append, ParseError.ofFault, start, ParseError.place_append_right]
    · rw [SourceFailure.ofFault_append front size]
      exact SourceFailure.isBehind_behind front _

/-- A surrogate in a comment, and an error behind it: the error is not reported. -/
theorem Stylesheet.ofSource_surrogate_in_comment :
    let source := Text.CodePoint.character '#' :: .surrogate 0 :: Text.codePoints "\n;"
    ofSource source = .error (.error (.unencodable ⟨0, 1, 1⟩)) ∧
      (∀ sheet, ofSource source ≠ .ok sheet) ∧
      ∀ error, ofSource source ≠ .error (.error (.error error)) := by
  have failed : ofSource
      (Text.CodePoint.character '#' :: .surrogate 0 :: Text.codePoints "\n;") =
        .error (.error (.unencodable ⟨0, 1, 1⟩)) := by
    rw [ofSource_eq]
    with_unfolding_all rfl
  refine ⟨failed, fun sheet read => ?_, fun error read => ?_⟩
  · rw [failed] at read
    cases read
  · rw [failed] at read
    cases read

end TreeStyle
