import TreeStyle.Proofs.Source.Lexemes

/-!
# The grammar of stylesheets

The grammar is stated as relations between lists of tokens, the phrases, and what
they mean.

    stylesheet = { rule }
    rule       = selectors ":" style ";"
    selectors  = selector { "," selector }
    selector   = kind { [ "+" | "~" | ">" ] kind }
    style      = group | "{" props "}" | props
    props      = prop { "," prop }
    prop       = ( "fg" | "bg" ) ":" color
               | ( "attr" | "attribute" | "attrb" ) ":" name { "|" name }

Two conditions go beyond the form of a phrase: no attribute is named twice in one
list, and no field is given twice in one declaration.

A source derives a stylesheet if it spells a phrase that means the stylesheet
(`Stylesheet.Derives`).
-/

namespace TreeStyle

set_option autoImplicit false

/-! ## Keys and settings -/

/-- The keys of a field. -/
def Property.keys : Property → List String
  | fg => ["fg"]
  | bg => ["bg"]
  | attr => ["attr", "attribute", "attrb"]

/-- Whether a word is a key of a field, case aside. -/
def Property.HasKey (property : Property) (word : String) : Prop :=
  ∃ key ∈ property.keys, Text.lower word.toList = key.toList

/-- The style that a list of settings states. -/
def PartialStyle.ofSettings (settings : List Setting) : PartialStyle :=
  settings.foldl PartialStyle.set {}

namespace Grammar

/-! ## Lists -/

/-- One or more phrases of a kind, with a mark between each two of them. -/
inductive IsSeparated {Value : Type} (separator : Mark) (phrase : List Token → Value → Prop) :
    List Token → List Value → Prop where
  | single {tokens : List Token} {value : Value} (only : phrase tokens value) :
      IsSeparated separator phrase tokens [value]
  | cons {first others : List Token} {value : Value} {values : List Value}
      (item : phrase first value) (more : IsSeparated separator phrase others values) :
      IsSeparated separator phrase (first ++ .mark separator :: others) (value :: values)

/-! ## Phrases of a selector -/

/-- What stands between two kinds, besides gaps. -/
inductive IsJoint : List Token → Combinator → Prop where
  | twin : IsJoint [.mark .plus] .twin
  | sibling : IsJoint [.mark .tilde] .sibling
  | child : IsJoint [.mark .greater] .child
  | descendant : IsJoint [] .descendant

/-- The kinds of a selector after the first one. -/
inductive IsLinks : List Token → List (Combinator × String) → Prop where
  | nil : IsLinks [] []
  | cons {joint tokens : List Token} {combinator : Combinator} {kind : String}
      {links : List (Combinator × String)} (joined : IsJoint joint combinator)
      (more : IsLinks tokens links) :
      IsLinks (joint ++ .identifier kind :: tokens) ((combinator, kind) :: links)

inductive IsSelector : List Token → Chain → Prop where
  | intro {tokens : List Token} {kind : String} {links : List (Combinator × String)}
      (linked : IsLinks tokens links) :
      IsSelector (.identifier kind :: tokens) ⟨kind, links⟩

/-- Selectors with commas in between. -/
abbrev IsSelectorList : List Token → List Chain → Prop := IsSeparated .comma IsSelector

/-! ## Phrases of a declaration -/

inductive IsName : List Token → Attribute → Prop where
  | intro {word : String} {flag : Attribute}
      (named : Attribute.ofName? word.toList = some flag) :
      IsName [.identifier word] flag

/-- Names with bars in between. -/
abbrev IsNameList : List Token → List Attribute → Prop := IsSeparated .pipe IsName

inductive IsProperty : List Token → Setting → Prop where
  | fg {key literal : String} {color : Color} (keyed : Property.fg.HasKey key)
      (stated : Color.ofString literal = .ok color) :
      IsProperty [.identifier key, .mark .colon, .color literal] (.fg color)
  | bg {key literal : String} {color : Color} (keyed : Property.bg.HasKey key)
      (stated : Color.ofString literal = .ok color) :
      IsProperty [.identifier key, .mark .colon, .color literal] (.bg color)
  | attr {key : String} {tokens : List Token} {flags : List Attribute}
      (keyed : Property.attr.HasKey key) (names : IsNameList tokens flags)
      (distinct : flags.Nodup) :
      IsProperty (.identifier key :: .mark .colon :: tokens) (.attr (AttributeSet.ofList flags))

/-- Properties with commas in between. -/
abbrev IsPropertyList : List Token → List Setting → Prop := IsSeparated .comma IsProperty

/-- A list of properties, each field at most once, and the style it states. -/
def IsStyle (tokens : List Token) (style : PartialStyle) : Prop :=
  ∃ settings, IsPropertyList tokens settings ∧ (settings.map Setting.property).Nodup ∧
    PartialStyle.ofSettings settings = style

inductive IsDeclaration : List Token → Declaration → Prop where
  | group (group : Highlight) : IsDeclaration [.identifier group.name] (.highlight group)
  | plain {tokens : List Token} {style : SpecifiedStyle} (stated : IsStyle tokens style.val) :
      IsDeclaration tokens (.properties style)
  | braced {tokens : List Token} {style : SpecifiedStyle} (stated : IsStyle tokens style.val) :
      IsDeclaration (.mark .leftBrace :: (tokens ++ [.mark .rightBrace])) (.properties style)

/-! ## Phrases of a stylesheet -/

inductive IsRule : List Token → Rule → Prop where
  | intro {selectors declaration : List Token} {rule : Rule}
      (selected : IsSelectorList selectors rule.selectors)
      (declared : IsDeclaration declaration rule.declaration) :
      IsRule (selectors ++ .mark .colon :: (declaration ++ [.mark .semicolon])) rule

inductive IsSheet : List Token → List Rule → Prop where
  | nil : IsSheet [] []
  | cons {first others : List Token} {rule : Rule} {rules : List Rule}
      (opening : IsRule first rule) (more : IsSheet others rules) :
      IsSheet (first ++ others) (rule :: rules)

end Grammar

/-- A source that spells a phrase for a stylesheet. -/
def Stylesheet.Derives (source : List Char) (sheet : Stylesheet) : Prop :=
  ∃ tokens, Spells tokens source ∧ Grammar.IsSheet tokens sheet.rules

end TreeStyle
