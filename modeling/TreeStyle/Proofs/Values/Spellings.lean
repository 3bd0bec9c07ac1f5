import TreeStyle.Proofs.Source.Literals

/-!
# How names are spelled

A name is read without the blanks around it and without regard to case.  The core of a
text is what stands between these blanks, and there is just one.  Lower case changes
letters alone, so it neither makes nor hides a digit.

A name is looked up among the spellings of all names.  Where each spelling leads back to
the name it belongs to, the look-up finds a name exactly under its spellings.

Main statements: `Text.isCore_iff`, `Text.lowerCharacter_cases` and
`Text.find?_spellings_iff`.
-/

namespace TreeStyle.Text

set_option autoImplicit false

/-! ## Blanks around a text -/

/-- A text with blanks around a core, which has none at its ends. -/
structure IsCore (whole core : List Char) : Prop where
  padded : ∃ before after, whole = before ++ core ++ after ∧
    (∀ character ∈ before, isBlank character = true) ∧
    ∀ character ∈ after, isBlank character = true
  first : ∀ character ∈ core.head?, isBlank character = false
  last : ∀ character ∈ core.getLast?, isBlank character = false

theorem isBlank_of_mem_takeWhile {text : List Char} :
    ∀ character ∈ text.takeWhile isBlank, isBlank character = true :=
  List.all_eq_true.mp List.all_takeWhile

theorem not_isBlank_head?_dropWhile (text : List Char) :
    ∀ character ∈ (text.dropWhile isBlank).head?, isBlank character = false := by
  intro character first
  have stopped := List.head?_dropWhile_not isBlank text
  rw [Option.mem_def.mp first] at stopped
  exact stopped

/-- Only the blanks before a text that starts with none are dropped. -/
theorem dropWhile_isBlank_append {before text : List Char}
    (blank : ∀ character ∈ before, isBlank character = true)
    (solid : ∀ character ∈ text.head?, isBlank character = false) :
    (before ++ text).dropWhile isBlank = text := by
  rw [List.dropWhile_append_of_pos blank]
  cases text with
  | nil => rfl
  | cons character text =>
    rw [List.dropWhile_cons_of_neg]
    rw [solid character rfl]
    exact Bool.false_ne_true

theorem isCore_strip (text : List Char) : IsCore text (strip text) := by
  let rest := text.dropWhile isBlank
  have split : rest = strip text ++ (rest.reverse.takeWhile isBlank).reverse := by
    rw [strip, trim, ← List.reverse_append, List.takeWhile_append_dropWhile, List.reverse_reverse]
  refine ⟨⟨text.takeWhile isBlank, (rest.reverse.takeWhile isBlank).reverse, ?_, ?_, ?_⟩, ?_, ?_⟩
  · rw [List.append_assoc, ← split]
    exact List.takeWhile_append_dropWhile.symm
  · exact isBlank_of_mem_takeWhile
  · intro character listed
    exact isBlank_of_mem_takeWhile character (List.mem_reverse.mp listed)
  · intro character first
    apply not_isBlank_head?_dropWhile text character
    change character ∈ rest.head?
    rw [split, List.head?_append, Option.mem_def.mp first]
    rfl
  · intro character last
    rw [strip, trim, List.getLast?_reverse] at last
    exact not_isBlank_head?_dropWhile _ character last

/-- **A text has one core**, which is what stripping it leaves. -/
theorem isCore_iff {whole core : List Char} : IsCore whole core ↔ core = strip whole := by
  constructor
  · intro isCore
    obtain ⟨before, after, rfl, blankBefore, blankAfter⟩ := isCore.padded
    have last : ∀ character ∈ core.reverse.head?, isBlank character = false := by
      rw [List.head?_reverse]
      exact isCore.last
    have blankReversed : ∀ character ∈ after.reverse, isBlank character = true :=
      fun character listed => blankAfter character (List.mem_reverse.mp listed)
    have front : (before ++ core ++ after).dropWhile isBlank =
        if core = [] then [] else core ++ after := by
      cases core with
      | nil =>
        have blank : ∀ character ∈ before ++ after, isBlank character = true := by
          intro character listed
          exact (List.mem_append.mp listed).elim (blankBefore character) (blankAfter character)
        have dropped := dropWhile_isBlank_append blank isCore.first
        rw [List.append_nil] at dropped ⊢
        exact dropped
      | cons character core =>
        rw [List.append_assoc]
        exact dropWhile_isBlank_append blankBefore isCore.first
    rw [strip, trim, front]
    split
    · next none => exact none
    · rw [List.reverse_append, dropWhile_isBlank_append blankReversed last, List.reverse_reverse]
  · rintro rfl
    exact isCore_strip whole

/-! ## Lower case -/

/-- A character that is not its own lower case is a capital letter or the Kelvin sign. -/
theorem lowerCharacter_cases (character : Char) :
    lowerCharacter character = character ∨
      (0x41 ≤ character.toNat ∧ character.toNat ≤ 0x5A ∧
        (lowerCharacter character).toNat = character.toNat + 0x20) ∨
      (character = kelvinSign ∧ lowerCharacter character = 'k') := by
  by_cases kelvin : character = kelvinSign
  · exact .inr (.inr ⟨kelvin, if_pos kelvin⟩)
  · rw [lowerCharacter, if_neg kelvin]
    by_cases capital : 'A'.val ≤ character.val ∧ character.val ≤ 'Z'.val
    · have low : 0x41 ≤ character.toNat := capital.1
      have high : character.toNat ≤ 0x5A := capital.2
      have moved : character.toLower.val = character.val + 32 :=
        congrArg Char.val (dif_pos capital)
      refine .inr (.inl ⟨low, high, ?_⟩)
      change character.toLower.val.toNat = character.val.toNat + 0x20
      rw [moved, UInt32.toNat_add]
      change (character.toNat + 32) % 2 ^ 32 = character.toNat + 32
      omega
    · exact .inl (dif_neg capital)

/-- What comes before the lower-case letters is the lower case of itself alone. -/
theorem eq_of_lowerCharacter {character lowered : Char} (below : lowered.toNat < 0x61)
    (same : lowerCharacter character = lowered) : character = lowered := by
  rcases lowerCharacter_cases character with kept | ⟨low, -, moved⟩ | ⟨-, letter⟩
  · exact kept.symm.trans same
  · rw [same] at moved
    omega
  · rw [letter] at same
    subst same
    exact absurd below (by decide)

theorem lowerCharacter_eq_x_iff {character : Char} :
    lowerCharacter character = 'x' ↔ character = 'x' ∨ character = 'X' := by
  constructor
  · intro same
    rcases lowerCharacter_cases character with kept | ⟨-, -, moved⟩ | ⟨-, letter⟩
    · exact .inl (kept.symm.trans same)
    · refine .inr (Char.toNat_inj.mp ?_)
      rw [same] at moved
      change 0x78 = character.toNat + 0x20 at moved
      change character.toNat = 0x58
      omega
    · rw [letter] at same
      exact absurd same (by decide)
  · rintro (rfl | rfl) <;> decide

/-! ## Looking up names -/

/-- If each spelling leads to the name it belongs to, a name is found under its spellings
and under no other text. -/
theorem find?_spellings_iff {Name : Type} {names : List Name}
    {spellings : Name → List (List Char)}
    (leads : ∀ name ∈ names, ∀ spelling ∈ spellings name,
      names.find? (fun other => (spellings other).contains spelling) = some name)
    {name : Name} (listed : name ∈ names) {text : List Char} :
    names.find? (fun other => (spellings other).contains text) = some name ↔
      text ∈ spellings name := by
  constructor
  · intro found
    have holds := List.find?_some found
    exact List.contains_iff_mem.mp holds
  · exact leads name listed text

end TreeStyle.Text
