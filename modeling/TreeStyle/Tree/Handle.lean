import TreeStyle.Tree.Forest

/-!
# Handles on foreign nodes

A tree that another library owns is reached through handles.  A handle that was
obtained from the children of its parent knows its place; any other handle looks
for its node among the parent's children.  Foreign nodes are told apart by an
identifier, so two handles are equal if their nodes have the same identifier.

Main statement: `ForeignTree.view`, the same interface as for nodes in memory.
-/

namespace TreeStyle

set_option autoImplicit false

/-- A foreign tree: its nodes, and the identifier of each. -/
structure ForeignTree where
  forest : Forest
  identifier : Nat → Int

/-- A node of a foreign tree, with its place if that is known. -/
structure Handle where
  node : Nat
  place : Option Nat := none
  deriving DecidableEq, Repr

namespace ForeignTree

variable (tree : ForeignTree)

def parent (handle : Handle) : Option Handle :=
  (tree.forest.parent handle.node).map fun above => { node := above }

def children (handle : Handle) : List Handle :=
  (tree.forest.children handle.node).zipIdx.map fun entry =>
    { node := entry.1, place := some entry.2 }

/-- The place of a handle; without a known one, the first place among the parent's
children at which a node with the same identifier stands. -/
def index (handle : Handle) : Nat :=
  match handle.place with
  | some place => place
  | none =>
    match tree.forest.parent handle.node with
    | none => 0
    | some above =>
      (tree.forest.children above).findIdx fun child =>
        tree.identifier child == tree.identifier handle.node

/-- Whether two handles are on the same node. -/
def same (left right : Handle) : Bool :=
  tree.identifier left.node == tree.identifier right.node

/-- The text of a handle. -/
def describe (handle : Handle) : String :=
  let range := tree.forest.byteRange handle.node
  "TreeSitterNode(" ++ Text.quote (tree.forest.kind handle.node) ++ s!", ({range.1}, {range.2}))"

/-- The handles of a foreign tree, with the identifiers for keys. -/
def view : TreeView Handle where
  kind := fun handle => tree.forest.kind handle.node
  parent := tree.parent
  children := tree.children
  index := tree.index
  key := fun handle => tree.identifier handle.node
  height := fun handle => tree.forest.size - handle.node
  depth := fun handle => handle.node
  height_parent := by
    intro handle above up
    simp only [parent, Option.map_eq_some_iff] at up
    obtain ⟨label, up, rfl⟩ := up
    have bounds := tree.forest.lt_parent up
    simp only
    omega
  depth_child := by
    intro handle below down
    simp only [children, List.mem_map] at down
    obtain ⟨entry, listed, rfl⟩ := down
    obtain ⟨child, place⟩ := entry
    exact tree.forest.child_lt (List.fst_mem_of_mem_zipIdx listed)

end ForeignTree

end TreeStyle
