import Std.Data.HashMap
import TreeStyle.Selector
import TreeStyle.Tree.View

/-!
# Matching a chain

A chain matches a node if the node has the kind of the last atom and some node
that is related to it by the last combinator is matched by the chain without
that atom.  Matching goes from right to left, and from the nearest candidate to
the farthest.

The answers for atoms with a combinator before them are kept in a memo, under
the chain, the number of the atom and the key of the node, so that no pair of
atom and node is looked into twice.  A node of another kind is refused at once
and leaves no entry.

Main statements: `related_eq_ancestors` and its companions (what the candidates
of each combinator are), and the equations of `matchesAt`.
-/

namespace TreeStyle

set_option autoImplicit false

/-! ## Candidates -/

namespace TreeView

variable {Node : Type} (view : TreeView Node)

/-- The nodes that may stand for the atom on the left of a combinator, given the
node on its right, nearest first. -/
def related (combinator : Combinator) (node : Node) : List Node :=
  match combinator with
  | .child => (view.parent node).toList
  | .twin =>
    match view.parent node, view.index node with
    | some above, place + 1 => ((view.children above)[place]?).toList
    | _, _ => []
  | .sibling => view.previousSiblings node
  | .descendant => view.ancestors node

theorem related_eq_ancestors (node : Node) :
    view.related .descendant node = view.ancestors node := rfl

theorem related_eq_previousSiblings (node : Node) :
    view.related .sibling node = view.previousSiblings node := rfl

theorem related_eq_parent (node : Node) :
    view.related .child node = (view.parent node).toList := rfl

end TreeView

/-! ## Memos -/

/-- The place of a selector: its rule, and its number in the rule.  Two selectors of
a sheet may be equal; their places differ. -/
structure SelectorPlace where
  rule : Nat
  selector : Nat := 0
  deriving DecidableEq, Hashable, Repr

/-- What an entry of a memo is about. -/
structure MemoKey where
  place : SelectorPlace
  /-- The number of the atom, counted from the left. -/
  atom : Nat
  /-- The key of the node. -/
  node : Int
  deriving DecidableEq, Hashable, Repr

/-- The answers found so far. -/
abbrev Memo := Std.HashMap MemoKey Bool

/-! ## Matching -/

namespace Chain

/-- The chain read from the right: its last atom, and before it, nearest first, the
combinators with the atoms on their left. -/
def leftwardFrom (atom : String) :
    (links : List (Combinator × String)) → (passed : List (Combinator × String)) →
      String × List (Combinator × String)
  | [], passed => (atom, passed)
  | (combinator, next) :: links, passed => leftwardFrom next links ((combinator, atom) :: passed)

/-- The last atom of a chain and the way to the left from it. -/
def leftward (chain : Chain) : String × List (Combinator × String) :=
  leftwardFrom chain.first chain.links []

end Chain

section Matching

variable {Node : Type} (view : TreeView Node)

/-- Whether a node stands for an atom, given the way to the left from it. -/
def matchesAt (place : SelectorPlace) (atom : String) :
    (left : List (Combinator × String)) → Node → StateM Memo Bool
  | [], node => pure (view.kind node == atom)
  | (combinator, before) :: left, node => do
    if view.kind node == atom then
      let key : MemoKey := ⟨place, left.length + 1, view.key node⟩
      match (← get)[key]? with
      | some answer => return answer
      | none =>
        let answer ← (view.related combinator node).anyM (matchesAt place before left)
        modify (·.insert key answer)
        return answer
    else return false

/-- Whether a chain matches a node, by a memo that may know answers already. -/
def matchesWith (place : SelectorPlace) (chain : Chain) (node : Node) : StateM Memo Bool :=
  matchesAt view place chain.leftward.1 chain.leftward.2 node

/-- Whether a chain matches a node. -/
def chainMatches (chain : Chain) (node : Node) : Bool :=
  (matchesWith view ⟨0, 0⟩ chain node {}).1

end Matching

end TreeStyle
