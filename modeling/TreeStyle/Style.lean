import TreeStyle.Attribute
import TreeStyle.Color

/-!
# Styles

A declaration and an entry of a base theme state a style in part: each field may
be left unspecified.  The style of a node is whole; it is built up from partial
styles, where a specified colour replaces the earlier one and attributes are
added to the earlier ones.

Main statements: `Style.merge_unspecified` (a partial style that specifies
nothing changes nothing) and `PartialStyle.isEmpty_set` (a style with a setting
specifies something).
-/

namespace TreeStyle

set_option autoImplicit false

/-! ## Partial styles -/

/-- A style of which any field may be left unspecified. -/
structure PartialStyle where
  fg : Option Color := none
  bg : Option Color := none
  attrs : Option AttributeSet := none
  deriving DecidableEq, Repr

/-- The fields of a style. -/
inductive Property where
  | fg | bg | attr
  deriving DecidableEq, Repr

/-- One field with its value. -/
inductive Setting where
  | fg (color : Color)
  | bg (color : Color)
  | attr (attrs : AttributeSet)
  deriving DecidableEq, Repr

/-- The field that a setting is about. -/
def Setting.property : Setting → Property
  | fg _ => .fg
  | bg _ => .bg
  | attr _ => .attr

namespace Property

/-- The canonical name of a field. -/
def name : Property → String
  | fg => "fg"
  | bg => "bg"
  | attr => "attr"

/-- The field with the given key, case aside; the attributes have three keys. -/
def ofKey? (key : String) : Option Property :=
  let lowered := Text.lower key.toList
  if lowered = ['f', 'g'] then some fg
  else if lowered = ['b', 'g'] then some bg
  else if lowered = ['a', 't', 't', 'r'] ∨ lowered = ['a', 't', 't', 'r', 'b'] ∨
      lowered = ['a', 't', 't', 'r', 'i', 'b', 'u', 't', 'e'] then some attr
  else none

end Property

namespace PartialStyle

/-- Whether no field is specified. -/
def isEmpty (style : PartialStyle) : Bool :=
  style.fg.isNone && style.bg.isNone && style.attrs.isNone

/-- Whether the given field is specified. -/
def specifies (style : PartialStyle) : Property → Bool
  | .fg => style.fg.isSome
  | .bg => style.bg.isSome
  | .attr => style.attrs.isSome

/-- The style with one field specified anew. -/
def set (style : PartialStyle) : Setting → PartialStyle
  | .fg color => { style with fg := some color }
  | .bg color => { style with bg := some color }
  | .attr attrs => { style with attrs := some attrs }

/-- A style with a setting specifies something. -/
theorem isEmpty_set (style : PartialStyle) (setting : Setting) :
    (style.set setting).isEmpty = false := by
  cases setting <;> simp [set, isEmpty]

theorem isEmpty_iff {style : PartialStyle} : style.isEmpty = true ↔ style = {} := by
  obtain ⟨fg, bg, attrs⟩ := style
  simp [isEmpty, Option.isNone_iff_eq_none, and_assoc]

/-- The text of a partial style, its specified fields in the order fg, bg, attr. -/
def render (style : PartialStyle) : String :=
  ", ".intercalate
    ((style.fg.map fun color => "fg: " ++ color.render).toList ++
      (style.bg.map fun color => "bg: " ++ color.render).toList ++
      (style.attrs.map fun attrs => "attr: " ++ attrs.render).toList)

end PartialStyle

/-! ## Whole styles -/

/-- The style of a node.  A colour that no rule specified is absent, which is not
the same as one of the canvas colours. -/
structure Style where
  fg : Option Color := none
  bg : Option Color := none
  attrs : AttributeSet := ∅
  deriving DecidableEq, Repr

namespace Style

/-- A partial style on top of a style: its colours replace, its attributes add. -/
def merge (base : Style) (override : PartialStyle) : Style where
  fg := override.fg.or base.fg
  bg := override.bg.or base.bg
  attrs :=
    match override.attrs with
    | some attrs => base.attrs ∪ attrs
    | none => base.attrs

/-- The text of a style. -/
def render (style : Style) : String :=
  let parts :=
    (style.fg.map fun color => "fg:" ++ color.render).toList ++
      (style.bg.map fun color => "bg:" ++ color.render).toList ++
      (if style.attrs = ∅ then [] else ["attr:" ++ style.attrs.render])
  if parts = [] then "(unstyled)" else ", ".intercalate parts

/-- A partial style that specifies nothing changes nothing. -/
theorem merge_unspecified (base : Style) : base.merge {} = base := rfl

end Style

end TreeStyle
