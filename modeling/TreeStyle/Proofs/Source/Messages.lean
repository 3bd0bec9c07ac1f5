import Mathlib.Tactic.SplitIfs
import TreeStyle.Stylesheet.ParseError
import TreeStyle.Text.Escapes

/-!
# Messages can be printed

The message of an error quotes pieces of the source.  Between quotation marks, a character
that cannot be printed is written by its code point, and everything else in a message is
text of the library and numbers.  So each message stands on one line and has no control
sequence in it, whatever the source is.

Main statements: `Text.isPlain_quote` and `ParseError.isPlain_message`.
-/

namespace TreeStyle

set_option autoImplicit false

/-! ## Plain texts -/

namespace Text

/-- All characters of a text are printed as they stand. -/
def IsPlain (text : String) : Prop := ∀ character ∈ text.toList, isPrintable character = true

instance : DecidablePred IsPlain := fun text =>
  decidable_of_iff (text.toList.all isPrintable = true) List.all_eq_true

theorem IsPlain.append {first second : String} (left : IsPlain first) (right : IsPlain second) :
    IsPlain (first ++ second) := by
  intro character listed
  rw [String.toList_append, List.mem_append] at listed
  exact listed.elim (left character) (right character)

theorem IsPlain.not_mem {text : String} (plain : IsPlain text) {character : Char}
    (unprintable : isPrintable character = false) : character ∉ text.toList := by
  intro listed
  rw [plain character listed] at unprintable
  cases unprintable

theorem isPrintable_of_isDigit {character : Char} (digit : character.isDigit = true) :
    isPrintable character = true := by
  obtain ⟨low, high⟩ := Char.isDigit_iff_toNat.mp digit
  exact isPrintable_of_graphic (Nat.le_trans (by decide) low) (Nat.lt_of_le_of_lt high (by decide))

theorem isPlain_natural (number : Nat) : IsPlain (toString number) := by
  intro character listed
  rw [show (toString number).toList = Nat.toDigits 10 number from Nat.toList_repr] at listed
  exact isPrintable_of_isDigit (Nat.isDigit_of_mem_toDigits (by decide) (by decide) listed)

theorem isPlain_integer (number : Int) : IsPlain (toString number) := by
  cases number with
  | ofNat natural => exact isPlain_natural natural
  | negSucc natural =>
    have sign : IsPlain "-" := by decide
    exact sign.append (isPlain_natural (natural + 1))

/-! ## Quoted texts -/

theorem isPrintable_hexDigit (value : Nat) : isPrintable (hexDigit value) = true := by
  have row : ∀ value < 16, isPrintable (hexDigit value) = true := by decide
  by_cases below : value < 16
  · exact row value below
  · rw [hexDigit, List.getElem?_eq_none (by simpa using below)]
    rfl

theorem isPrintable_of_mem_hexDigits {width value : Nat} {character : Char}
    (listed : character ∈ hexDigits width value) : isPrintable character = true := by
  induction width generalizing value with
  | zero => cases listed
  | succ width ih =>
    rw [hexDigits, List.mem_append, List.mem_singleton] at listed
    rcases listed with higher | rfl
    · exact ih higher
    · exact isPrintable_hexDigit _

theorem isPrintable_of_mem_backslash {letter written : Char} {rest : List Char}
    (plain : isPrintable letter = true) (others : ∀ other ∈ rest, isPrintable other = true)
    (listed : written ∈ '\x5c' :: letter :: rest) : isPrintable written = true := by
  rcases List.mem_cons.mp listed with rfl | listed
  · rfl
  rcases List.mem_cons.mp listed with rfl | listed
  · exact plain
  · exact others written listed

theorem isPrintable_of_mem_codeEscape {character written : Char}
    (listed : written ∈ codeEscape character) : isPrintable written = true := by
  unfold codeEscape at listed
  split_ifs at listed <;>
    exact isPrintable_of_mem_backslash rfl (fun _ => isPrintable_of_mem_hexDigits) listed

theorem isPrintable_of_mem_escapeCharacter {mark character written : Char}
    (plain : isPrintable mark = true) (listed : written ∈ escapeCharacter mark character) :
    isPrintable written = true := by
  have noneLeft : ∀ other ∈ ([] : List Char), isPrintable other = true := by simp
  unfold escapeCharacter at listed
  split_ifs at listed with escaped lineFeed carriageReturn tab printable
  · refine isPrintable_of_mem_backslash ?_ noneLeft listed
    rcases escaped with rfl | rfl
    · exact plain
    · rfl
  · exact isPrintable_of_mem_backslash rfl noneLeft listed
  · exact isPrintable_of_mem_backslash rfl noneLeft listed
  · exact isPrintable_of_mem_backslash rfl noneLeft listed
  · rwa [List.mem_singleton.mp listed]
  · exact isPrintable_of_mem_codeEscape listed

/-- **A quoted text is plain**, whatever the text is. -/
theorem isPlain_quote (text : String) : IsPlain (quote text) := by
  have mark : isPrintable (quotationMark text.toList) = true := by
    unfold quotationMark
    split_ifs <;> rfl
  intro character listed
  rw [quote, String.toList_ofList, List.mem_cons, List.mem_append, List.mem_singleton] at listed
  rcases listed with rfl | inside | rfl
  · exact mark
  · obtain ⟨quoted, _, written⟩ := List.mem_flatMap.mp inside
    exact isPrintable_of_mem_escapeCharacter mark written
  · exact mark

theorem isPlain_escape (number : Fin 0x800) : IsPlain (CodePoint.escape number) := by
  intro character listed
  rw [CodePoint.escape, String.toList_ofList] at listed
  exact isPrintable_of_mem_backslash rfl (fun _ => isPrintable_of_mem_hexDigits) listed

end Text

/-! ## Messages -/

open Text

theorem Expectation.isPlain_message (expected : Expectation) : IsPlain expected.message := by
  cases expected with
  | colonAfter key => exact IsPlain.append (by decide) (isPlain_quote key)
  | _ => decide

theorem Token.isPlain_describe (token : Token) : IsPlain token.describe := by
  cases token with
  | identifier text => exact IsPlain.append (by decide) (isPlain_quote text)
  | color text => exact IsPlain.append (by decide) (isPlain_quote text)
  | mark symbol => cases symbol <;> decide
  | endOfInput => decide

theorem ColorError.isPlain_message (error : ColorError) : IsPlain error.message := by
  cases error with
  | malformedRgb token => exact IsPlain.append (by decide) (isPlain_quote token)
  | malformedHexIndex token => exact IsPlain.append (by decide) (isPlain_quote token)
  | indexTooLarge token => exact IsPlain.append (by decide) (isPlain_quote token)
  | tooManyDigits count =>
    exact ((((IsPlain.append (by decide) (isPlain_natural _)).append (by decide)).append
      (isPlain_natural _)).append (by decide)).append (by decide)
  | unknownName token => exact IsPlain.append (by decide) (isPlain_quote token)
  | channelOutOfRange channel => exact IsPlain.append (by decide) (isPlain_integer channel)
  | indexOutOfRange index => exact IsPlain.append (by decide) (isPlain_integer index)

theorem AttributeError.isPlain_message (error : AttributeError) : IsPlain error.message := by
  cases error with
  | unknown name => exact IsPlain.append (by decide) (isPlain_quote name)
  | duplicate name => exact IsPlain.append (by decide) (isPlain_quote name)

theorem Text.Utf8.Fault.isPlain_message (fault : Utf8.Fault) : IsPlain fault.message := by
  unfold message
  refine ((IsPlain.append (by decide) ?place).append (by decide)).append ?reason
  case place =>
    split_ifs
    · refine (IsPlain.append (by decide) ?_).append (IsPlain.append (by decide) (isPlain_natural _))
      intro character listed
      rw [String.toList_ofList] at listed
      exact isPrintable_of_mem_hexDigits listed
    · exact ((IsPlain.append (by decide) (isPlain_natural _)).append (by decide)).append
        (isPlain_natural _)
  case reason =>
    cases fault.reason <;> decide

/-- **The message of an error is plain**, whatever the source is. -/
theorem ParseError.isPlain_message (error : ParseError) : IsPlain error.message := by
  unfold message
  cases error.cause with
  | strayCharacter character =>
    exact IsPlain.append (by decide) (isPlain_quote _)
  | straySurrogate number =>
    exact (IsPlain.append (by decide) (isPlain_escape number)).append (by decide)
  | unexpected expected found =>
    exact ((IsPlain.append (by decide) expected.isPlain_message).append (by decide)).append
      found.isPlain_describe
  | unterminated => exact IsPlain.append (by decide) (isPlain_natural _)
  | unknownHighlight name => exact IsPlain.append (by decide) (isPlain_quote name)
  | unknownProperty key => exact (IsPlain.append (by decide) (isPlain_quote key)).append (by decide)
  | duplicateProperty property =>
    exact (IsPlain.append (by decide) (isPlain_quote _)).append (by decide)
  | invalidColor reason => exact reason.isPlain_message
  | invalidAttribute reason => exact reason.isPlain_message
  | undecodable fault => exact IsPlain.append (by decide) fault.isPlain_message

end TreeStyle
