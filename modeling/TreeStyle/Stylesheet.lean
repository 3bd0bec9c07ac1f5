import TreeStyle.Highlight
import TreeStyle.Selector
import TreeStyle.Style

/-!
# Stylesheets

A stylesheet is a list of rules, and a rule gives one declaration to the nodes
that any of its selectors matches.  A declaration borrows the style of a
highlight group or specifies properties of its own, at least one.

Stylesheets are written one rule a line, in a canonical form.
-/

namespace TreeStyle

set_option autoImplicit false

/-! ## Declarations -/

/-- A partial style that specifies something. -/
abbrev SpecifiedStyle := { style : PartialStyle // style.isEmpty = false }

/-- What a rule gives to the nodes it matches. -/
inductive Declaration where
  /-- The style of a highlight group of the base theme. -/
  | highlight (group : Highlight)
  /-- Properties of its own. -/
  | properties (style : SpecifiedStyle)
  deriving DecidableEq

namespace Declaration

/-- The wording for properties that specify nothing. -/
def emptyMessage : String := "properties declaration needs at least one property"

/-- The declaration of the given properties, if they specify something. -/
def ofStyle? (style : PartialStyle) : Option Declaration :=
  if specified : style.isEmpty = false then some (.properties ⟨style, specified⟩) else none

/-- The canonical text of a declaration. -/
def render : Declaration → String
  | highlight group => group.name
  | properties style => style.val.render

end Declaration

/-! ## Rules -/

/-- One or more selectors that share a declaration. -/
structure Rule where
  selectors : List Chain
  declaration : Declaration
  selectors_ne_nil : selectors ≠ []
  deriving DecidableEq

namespace Rule

/-- The wording for a rule without selectors. -/
def emptyMessage : String := "rule needs at least one selector"

/-- The rule with the given selectors, if there are any. -/
def ofSelectors? (selectors : List Chain) (declaration : Declaration) : Option Rule :=
  if given : selectors ≠ [] then some ⟨selectors, declaration, given⟩ else none

/-- The canonical text of a rule. -/
def render (rule : Rule) : String :=
  ", ".intercalate (rule.selectors.map Chain.render) ++ ": " ++ rule.declaration.render ++ ";"

end Rule

/-! ## Sheets -/

/-- Rules in file order. -/
structure Stylesheet where
  rules : List Rule := []
  deriving DecidableEq

namespace Stylesheet

/-- Every selector with its declaration, in file order. -/
def chains (sheet : Stylesheet) : List (Chain × Declaration) :=
  sheet.rules.flatMap fun rule => rule.selectors.map fun chain => (chain, rule.declaration)

/-- The number of selectors of all rules. -/
def selectorCount (sheet : Stylesheet) : Nat := sheet.chains.length

/-- The canonical text of a stylesheet, one rule a line. -/
def render (sheet : Stylesheet) : String :=
  String.join (sheet.rules.map fun rule => rule.render ++ "\n")

end Stylesheet

end TreeStyle
