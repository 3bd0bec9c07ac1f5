import TreeStyle.Proofs.Grammar.RoundTrip
import TreeStyle.Proofs.Values.AttributeLists

/-!
# The text of a style tells which style it is

A style is printed as the settings that make it, with commas in between.  No setting has
a comma in it, so the settings are found again between the commas, and each of them is
known by its text: a colour is read back from its literal, and a set of attributes from
the names of its members.  The style without settings has a text of its own, which is the
text of no setting.

Main statements: `Text.eq_of_intercalate_eq`, `Setting.printed_injective` and
`Style.text_tells_style`.
-/

namespace TreeStyle

set_option autoImplicit false

/-! ## Joined parts -/

namespace Text

theorem not_mem_intercalate {character : Char} {joint : List Char} {parts : List (List Char)}
    (outside : character ∉ joint) (free : ∀ part ∈ parts, character ∉ part) :
    character ∉ List.intercalate joint parts := by
  induction parts with
  | nil => simp
  | cons part parts ih =>
    obtain ⟨first, others⟩ := List.forall_mem_cons.mp free
    cases parts with
    | nil => rwa [List.intercalate_singleton]
    | cons next parts =>
      rw [List.intercalate_cons_cons, List.mem_append, List.mem_append, not_or, not_or]
      exact ⟨⟨first, outside⟩, ih others⟩

/-- What follows each separator may as well be the front of the part behind it. -/
theorem intercalate_separator_cons (separator : Char) (gap part : List Char)
    (parts : List (List Char)) :
    List.intercalate (separator :: gap) (part :: parts) =
      List.intercalate [separator] (part :: parts.map (gap ++ ·)) := by
  induction parts generalizing part with
  | nil => rfl
  | cons next parts ih =>
    rw [List.intercalate_cons_cons, ih, List.map_cons, List.intercalate_cons_cons]
    cases parts <;> simp [List.intercalate_cons_cons]

/-- **Parts are known by the text that joins them**, if the separator is in none of them. -/
theorem eq_of_intercalate_eq {separator : Char} {gap : List Char} (outside : separator ∉ gap)
    {first second : List (List Char)} (firstNonempty : first ≠ []) (secondNonempty : second ≠ [])
    (firstFree : ∀ part ∈ first, separator ∉ part)
    (secondFree : ∀ part ∈ second, separator ∉ part)
    (same : List.intercalate (separator :: gap) first = List.intercalate (separator :: gap) second) :
    first = second := by
  have found {part : List Char} {parts : List (List Char)}
      (free : ∀ other ∈ part :: parts, separator ∉ other) :
      partsAt separator (List.intercalate (separator :: gap) (part :: parts)) =
        part :: parts.map (gap ++ ·) := by
    rw [intercalate_separator_cons]
    apply partsAt_intercalate (List.cons_ne_nil _ _)
    obtain ⟨head, tail⟩ := List.forall_mem_cons.mp free
    refine List.forall_mem_cons.mpr ⟨head, List.forall_mem_map.mpr fun other listed => ?_⟩
    rw [List.mem_append, not_or]
    exact ⟨outside, tail other listed⟩
  cases first with
  | nil => exact absurd rfl firstNonempty
  | cons part parts =>
    cases second with
    | nil => exact absurd rfl secondNonempty
    | cons other others =>
      have cut := congrArg (partsAt separator) same
      rw [found firstFree, found secondFree] at cut
      obtain ⟨rfl, tails⟩ := List.cons.inj cut
      rw [List.map_injective_iff.mpr (List.append_right_injective gap) tails]

end Text

/-! ## Values -/

/-- A colour is known by its literal. -/
theorem Color.render_injective : Function.Injective Color.render := by
  intro first second same
  have read := first.ofString_render
  rw [same, second.ofString_render] at read
  exact (Except.ok.inj read).symm

/-- No colour has a comma in its literal. -/
theorem Color.comma_not_mem_render (color : Color) : ',' ∉ color.render.toList := by
  intro listed
  cases color with
  | rgb red green blue =>
    obtain ⟨digits, written, -, words⟩ := render_rgb_characters red green blue
    rw [written] at listed
    rcases List.mem_cons.mp listed with hash | listed
    · exact absurd hash (by decide)
    · exact absurd (words ',' listed) (by decide)
  | ansi index =>
    obtain ⟨written, digits⟩ := render_ansi_digits index
    rw [written] at listed
    exact absurd (digits ',' listed) (by decide)
  | named name =>
    have words := List.all_eq_true.mp (spelling_characters name).2
    exact absurd (words ',' listed) (by decide)

namespace AttributeSet

theorem ofString_render_empty : ofString (render ∅) = .error (.unknown "") := by
  decide +kernel

theorem eq_of_render_eq {set other : AttributeSet} (inhabited : set ≠ ∅)
    (same : set.render = other.render) : set = other := by
  have read := ofString_render inhabited
  rw [same] at read
  by_cases none : other = ∅
  · rw [none, ofString_render_empty] at read
    cases read
  · rw [ofString_render none] at read
    exact (Except.ok.inj read).symm

/-- A set of attributes is known by the names of its members, and the empty set by having
none. -/
theorem text_injective : Function.Injective render := by
  intro first second same
  by_cases none : first = ∅
  · by_cases also : second = ∅
    · rw [none, also]
    · exact (eq_of_render_eq also same.symm).symm
  · exact eq_of_render_eq none same

theorem comma_not_mem_render (set : AttributeSet) : ',' ∉ set.render.toList := by
  rw [render, String.toList_intercalate, List.map_map]
  refine Text.not_mem_intercalate (by decide) (List.forall_mem_map.mpr fun flag _ => ?_)
  cases flag <;> decide

end AttributeSet

/-! ## Settings -/

/-- No two fields have names that start alike. -/
theorem Property.eq_of_name_append {first second : Property} {text other : List Char}
    (same : first.name.toList ++ text = second.name.toList ++ other) : first = second := by
  have starts : first.name.toList.head? = second.name.toList.head? := by
    have heads := congrArg List.head? same
    cases first <;> cases second <;> exact heads
  revert starts
  cases first <;> cases second <;> decide

namespace Setting

/-- The text of the value of a setting. -/
def valueText : Setting → String
  | fg color => color.render
  | bg color => color.render
  | attr attrs => attrs.render

/-- The text of a setting in a printed style. -/
def printed (setting : Setting) : String := setting.property.name ++ ":" ++ setting.valueText

theorem toList_printed (setting : Setting) :
    setting.printed.toList = setting.property.name.toList ++ ':' :: setting.valueText.toList := by
  simp [printed]

/-- **A setting is known by its text**: the field by its name, and then the value by the
text behind the colon. -/
theorem printed_injective : Function.Injective printed := by
  intro first second same
  have texts := congrArg String.toList same
  rw [toList_printed, toList_printed] at texts
  have field := Property.eq_of_name_append texts
  rw [field] at texts
  have values : first.valueText = second.valueText :=
    String.toList_injective (List.cons.inj (List.append_cancel_left texts)).2
  cases first with
  | fg color =>
    cases second with
    | fg other => rw [Color.render_injective values]
    | bg | attr => cases field
  | bg color =>
    cases second with
    | bg other => rw [Color.render_injective values]
    | fg | attr => cases field
  | attr attrs =>
    cases second with
    | attr others => rw [AttributeSet.text_injective values]
    | fg | bg => cases field

/-- Every setting has a colon in its text. -/
theorem printed_ne_unstyled (setting : Setting) : setting.printed ≠ "(unstyled)" := by
  intro same
  have colon : ':' ∈ setting.printed.toList := by simp [toList_printed]
  rw [same] at colon
  exact absurd colon (by decide)

theorem comma_not_mem_printed (setting : Setting) : ',' ∉ setting.printed.toList := by
  rw [toList_printed, List.mem_append, List.mem_cons, not_or, not_or]
  refine ⟨?_, by decide, ?_⟩
  · cases setting.property <;> decide
  · cases setting with
    | fg color | bg color => exact color.comma_not_mem_render
    | attr attrs => exact attrs.comma_not_mem_render

end Setting

/-! ## Styles -/

namespace Style

/-- The partial style that specifies just the fields which a style has. -/
def stated (style : Style) : PartialStyle where
  fg := style.fg
  bg := style.bg
  attrs := if style.attrs = ∅ then none else some style.attrs

/-- What a style states makes the style. -/
theorem merge_stated (style : Style) : merge {} style.stated = style := by
  obtain ⟨fg, bg, attrs⟩ := style
  by_cases none : attrs = ∅
  · simp [merge, stated, none]
  · simp [merge, stated, none, AttributeSet.empty_union]

/-- The settings of a style, in the order in which they are printed. -/
def settings (style : Style) : List Setting := style.stated.settings

/-- A style is known by its settings. -/
theorem settings_injective : Function.Injective settings := by
  intro first second same
  have stated : first.stated = second.stated := by
    rw [← first.stated.ofSettings_settings, ← second.stated.ofSettings_settings]
    exact congrArg PartialStyle.ofSettings same
  rw [← merge_stated first, ← merge_stated second, stated]

/-- The parts of a printed style: its settings, or a remark that it has none. -/
def printedParts (style : Style) : List String :=
  if style.settings = [] then ["(unstyled)"] else style.settings.map Setting.printed

theorem render_eq_intercalate (style : Style) :
    style.render = ", ".intercalate style.printedParts := by
  obtain ⟨fg, bg, attrs⟩ := style
  by_cases none : attrs = ∅ <;> cases fg <;> cases bg <;>
    simp [render, printedParts, settings, stated, PartialStyle.settings, Setting.printed,
      Setting.property, Property.name, Setting.valueText, none]

theorem printedParts_of_nil {style : Style} (none : style.settings = []) :
    style.printedParts = ["(unstyled)"] := by
  rw [printedParts, if_pos none]

theorem printedParts_of_ne_nil {style : Style} (some : style.settings ≠ []) :
    style.printedParts = style.settings.map Setting.printed := by
  rw [printedParts, if_neg some]

/-- A style that has settings is not printed as one that has none. -/
theorem map_printed_ne (settings : List Setting) :
    settings.map Setting.printed ≠ ["(unstyled)"] := by
  intro same
  have listed : "(unstyled)" ∈ settings.map Setting.printed := by simp [same]
  obtain ⟨setting, -, text⟩ := List.mem_map.mp listed
  exact setting.printed_ne_unstyled text

theorem printedParts_injective : Function.Injective printedParts := by
  intro first second same
  apply settings_injective
  by_cases none : first.settings = []
  · by_cases also : second.settings = []
    · rw [none, also]
    · rw [printedParts_of_nil none, printedParts_of_ne_nil also] at same
      exact absurd same.symm (map_printed_ne _)
  · rw [printedParts_of_ne_nil none] at same
    by_cases also : second.settings = []
    · rw [printedParts_of_nil also] at same
      exact absurd same (map_printed_ne _)
    · rw [printedParts_of_ne_nil also] at same
      exact List.map_injective_iff.mpr Setting.printed_injective same

theorem printedParts_ne_nil (style : Style) : style.printedParts ≠ [] := by
  unfold printedParts
  split
  · exact List.cons_ne_nil _ _
  · next some => simpa using some

theorem comma_not_mem_printedParts (style : Style) :
    ∀ part ∈ style.printedParts.map String.toList, ',' ∉ part := by
  refine List.forall_mem_map.mpr fun part listed => ?_
  unfold printedParts at listed
  split at listed
  · rw [List.mem_singleton] at listed
    subst listed
    decide
  · obtain ⟨setting, -, rfl⟩ := List.mem_map.mp listed
    exact setting.comma_not_mem_printed

/-- **A style is known by its text.** -/
theorem render_injective : Function.Injective render := by
  intro first second same
  have joint : ", ".toList = [',', ' '] := by decide
  have texts := congrArg String.toList same
  rw [render_eq_intercalate, render_eq_intercalate, String.toList_intercalate,
    String.toList_intercalate, joint] at texts
  have parts := Text.eq_of_intercalate_eq (by decide)
    (by simpa using first.printedParts_ne_nil) (by simpa using second.printedParts_ne_nil)
    first.comma_not_mem_printedParts second.comma_not_mem_printedParts texts
  exact printedParts_injective
    (List.map_injective_iff.mpr (fun _ _ => String.toList_injective) parts)

/-- **The printed style identifies the style.**  Styles with one text are equal.  So the
remark that a style has no settings is made of the empty style alone, a style without a
colour is not printed like one that has it, and the forms of colours are told apart. -/
theorem text_tells_style :
    (∀ first second : Style, first.render = second.render ↔ first = second) ∧
    (∀ style : Style, style.render = "(unstyled)" ↔ style = {}) ∧
    (∀ (first second : Style) (color : Color),
      { first with fg := none }.render ≠ { second with fg := some color }.render ∧
      { first with bg := none }.render ≠ { second with bg := some color }.render) ∧
    ∀ (red green blue index : Fin 256) (name : ColorName),
      (Color.rgb red green blue).render ≠ (Color.ansi index).render ∧
      (Color.rgb red green blue).render ≠ (Color.named name).render ∧
      (Color.ansi index).render ≠ (Color.named name).render := by
  refine ⟨fun _ _ => render_injective.eq_iff, fun style => ?_, ?_, ?_⟩
  · have remark : ({} : Style).render = "(unstyled)" := by decide
    rw [← remark, render_injective.eq_iff]
  · intro first second color
    constructor
    · intro same
      cases congrArg Style.fg (render_injective same)
    · intro same
      cases congrArg Style.bg (render_injective same)
  · intro red green blue index name
    refine ⟨?_, ?_, ?_⟩ <;> intro same <;> cases Color.render_injective same

end Style

end TreeStyle
