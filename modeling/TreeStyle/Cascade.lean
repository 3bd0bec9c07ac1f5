import TreeStyle.Log
import TreeStyle.Matching
import TreeStyle.Theme

/-!
# The cascade

The style of a node is made by all rules that match it, in file order.  Each rule
counts once, however many of its selectors match.  Later rules replace the
colours of earlier ones and add to their attributes; no rule outweighs another
by its form.  A rule whose highlight group the base theme leaves out contributes
nothing.

Main statement: `combine_append` (rules are combined one after the other).
-/

namespace TreeStyle

set_option autoImplicit false

/-! ## What rules contribute -/

/-- The partial style of a declaration, or the highlight group that is missing. -/
def Declaration.contribution (theme : Theme) : Declaration → Except Highlight PartialStyle
  | highlight group =>
    match theme.lookup group with
    | some style => .ok style
    | none => .error group
  | properties style => .ok style.val

/-- The events of asking for the partial style of a declaration. -/
def Declaration.events (theme : Theme) (declaration : Declaration) : List Log.Event :=
  match declaration.contribution theme with
  | .ok _ => []
  | .error group => [.skipped group]

/-- The style that a list of rules makes, on top of a style. -/
def combine (theme : Theme) (base : Style) (rules : List Rule) : Style :=
  rules.foldl
    (fun style rule =>
      match rule.declaration.contribution theme with
      | .ok contribution => style.merge contribution
      | .error _ => style)
    base

/-- The event of a rule that matches a node of the given kind. -/
def matchEvent (theme : Theme) (kind : String) (entry : Nat × Rule) : Log.Event :=
  match entry.2.declaration.contribution theme with
  | .ok _ => .applied kind entry.1 entry.2
  | .error group => .skipped group

/-- Rules are combined one after the other. -/
theorem combine_append (theme : Theme) (base : Style) (first second : List Rule) :
    combine theme base (first ++ second) = combine theme (combine theme base first) second := by
  simp [combine, List.foldl_append]

/-! ## Rules that match -/

section Resolution

variable {Node : Type} (view : TreeView Node)

/-- Whether one of the selectors of the rule at a position matches a node. -/
def ruleMatchesWith (position : Nat) (rule : Rule) (node : Node) : StateM Memo Bool :=
  rule.selectors.zipIdx.anyM fun entry => matchesWith view ⟨position, entry.2⟩ entry.1 node

/-- The rules that match a node with their positions, in file order. -/
def matchingRulesWith (sheet : Stylesheet) (node : Node) : StateM Memo (List (Nat × Rule)) := do
  let found ← sheet.rules.zipIdx.filterM fun entry => ruleMatchesWith view entry.2 entry.1 node
  return found.map fun entry => (entry.2, entry.1)

/-- The rules that match a node with their positions, in file order. -/
def matchingRules (sheet : Stylesheet) (node : Node) : List (Nat × Rule) :=
  (matchingRulesWith view sheet node {}).1

/-! ## Styles of nodes -/

/-- The style of a node and the events of finding it. -/
structure Resolution where
  style : Style
  events : List Log.Event

/-- The style of a node, by a memo that may know answers already. -/
def resolveWith (sheet : Stylesheet) (theme : Theme) (node : Node) : StateM Memo Resolution := do
  let rules ← matchingRulesWith view sheet node
  return {
    style := combine theme {} (rules.map Prod.snd)
    events := rules.map (matchEvent theme (view.kind node)) }

/-- The style of a node. -/
def resolve (sheet : Stylesheet) (theme : Theme) (node : Node) : Resolution :=
  (resolveWith view sheet theme node {}).1

/-- A node, its distance from the root of the walk, and its style. -/
structure StyledNode (Node : Type) where
  node : Node
  distance : Nat
  resolution : Resolution

/-- The styles of all nodes under a root, in pre-order, by one memo for all. -/
def resolveTree (sheet : Stylesheet) (theme : Theme) (root : Node) : List (StyledNode Node) :=
  let resolveAll : StateM Memo (List (StyledNode Node)) :=
    (view.walk root).mapM fun entry => do
      return ⟨entry.1, entry.2, ← resolveWith view sheet theme entry.1⟩
  (resolveAll {}).1

end Resolution

end TreeStyle
