import TreeStyle.Text.Quoted

/-!
# Selectors

A selector is a chain of node kinds, its atoms, joined from left to right by
combinators.  The last atom is the kind of the nodes that the chain is about,
its target; the others say among which other nodes they have to stand.  A chain
is stored as its first atom and the links after it, so that there is always one
combinator fewer than there are atoms.

Main statements: `Chain.length_combinators`, `Chain.ofParts_atoms_combinators`
(a chain is rebuilt from its parts) and `Chain.atoms_of_ofParts` (a chain that
was built has the parts it was built from).
-/

namespace TreeStyle

set_option autoImplicit false

/-! ## Combinators -/

/-- How the nodes of two neighbouring atoms are related. -/
inductive Combinator where
  /-- The right node comes immediately after the left one. -/
  | twin
  /-- The right node comes somewhere after the left one, under the same parent. -/
  | sibling
  /-- The right node is a child of the left one. -/
  | child
  /-- The right node is nested anywhere below the left one. -/
  | descendant
  deriving DecidableEq, Repr

namespace Combinator

/-- The symbol of a combinator; a blank stands for the descendant. -/
def symbol : Combinator → String
  | twin => "+"
  | sibling => "~"
  | child => ">"
  | descendant => " "

/-- The combinator with the given symbol. -/
def ofSymbol? (text : String) : Option Combinator :=
  [twin, sibling, child, descendant].find? fun combinator => combinator.symbol == text

/-- The wording for a text that is the symbol of no combinator. -/
def unknownMessage (text : String) : String := Text.quote text ++ " is not a valid Combinator"

/-- What stands between the two atoms that a combinator joins. -/
def separator : Combinator → String
  | descendant => " "
  | combinator => " " ++ combinator.symbol ++ " "

end Combinator

/-! ## Chains -/

/-- Node kinds joined by combinators. -/
structure Chain where
  /-- The leftmost atom. -/
  first : String
  /-- Each further atom with the combinator before it. -/
  links : List (Combinator × String) := []
  deriving DecidableEq, Repr

/-- Why atoms and combinators do not make a chain. -/
inductive ChainError where
  | noAtoms
  | combinatorCount (atoms combinators : Nat)
  deriving DecidableEq, Repr

/-- The wording of a refusal. -/
def ChainError.message : ChainError → String
  | noAtoms => "selector chain needs at least one atom"
  | combinatorCount atoms combinators =>
    s!"selector chain with {atoms} atoms needs {atoms - 1} combinators, got {combinators}"

namespace Chain

/-- The atoms from left to right. -/
def atoms (chain : Chain) : List String := chain.first :: chain.links.map Prod.snd

/-- The combinators from left to right. -/
def combinators (chain : Chain) : List Combinator := chain.links.map Prod.fst

/-- The kind of the nodes that the chain can match. -/
def target (chain : Chain) : String := (chain.links.getLast?.map Prod.snd).getD chain.first

/-- The chain with the given atoms and combinators. -/
def ofParts (atoms : List String) (combinators : List Combinator) : Except ChainError Chain :=
  match atoms with
  | [] => .error .noAtoms
  | first :: rest =>
    if combinators.length = rest.length then .ok ⟨first, combinators.zip rest⟩
    else .error (.combinatorCount (rest.length + 1) combinators.length)

/-- The canonical text of a chain. -/
def render (chain : Chain) : String :=
  chain.first ++ String.join (chain.links.map fun link => link.1.separator ++ link.2)

theorem length_combinators (chain : Chain) :
    chain.combinators.length + 1 = chain.atoms.length := by
  simp [combinators, atoms]

/-- A chain is rebuilt from its parts. -/
theorem ofParts_atoms_combinators (chain : Chain) :
    ofParts chain.atoms chain.combinators = .ok chain := by
  obtain ⟨first, links⟩ := chain
  have rebuilt : (links.map Prod.fst).zip (links.map Prod.snd) = links := by
    induction links with
    | nil => rfl
    | cons link links ih => simp [ih]
  simp [ofParts, atoms, combinators, rebuilt]

/-- A chain that was built has the parts it was built from. -/
theorem atoms_of_ofParts {atoms : List String} {combinators : List Combinator} {chain : Chain}
    (built : ofParts atoms combinators = .ok chain) :
    chain.atoms = atoms ∧ chain.combinators = combinators := by
  unfold ofParts at built
  split at built
  · cases built
  · next first rest =>
    split at built
    · next count =>
      injection built with same
      subst same
      constructor
      · simp [Chain.atoms, List.map_snd_zip (Nat.le_of_eq count.symm)]
      · simp [Chain.combinators, List.map_fst_zip (Nat.le_of_eq count)]
    · cases built

end Chain

end TreeStyle
