/-!
# Views of a tree

Matching and styling need to know little about a node: its kind, its parent, its
children in order, its place among its siblings, and a key by which a cache
tells it from other nodes.  A view provides these for one kind of tree, with two
measures that bound the way up and the way down, so that every walk ends.

Main statements: `ancestors_of_root`, `ancestors_of_parent` (the way up, one
step at a time) and `walk_eq` (the way down, one node at a time).
-/

namespace TreeStyle

set_option autoImplicit false

/-- What styling needs to know about the nodes of a tree. -/
structure TreeView (Node : Type) where
  kind : Node → String
  parent : Node → Option Node
  children : Node → List Node
  /-- The place among the children of the parent, and zero for a root. -/
  index : Node → Nat
  /-- Nodes with the same key are the same node to a cache. -/
  key : Node → Int
  /-- A bound on the number of steps up from a node. -/
  height : Node → Nat
  /-- A bound on the number of steps down from a node. -/
  depth : Node → Nat
  height_parent : ∀ {node above : Node}, parent node = some above → height above < height node
  depth_child : ∀ {node below : Node}, below ∈ children node → depth below < depth node

namespace TreeView

variable {Node : Type} (view : TreeView Node)

/-! ## Along the siblings -/

/-- The siblings before a node, nearest first. -/
def previousSiblings (node : Node) : List Node :=
  match view.parent node with
  | none => []
  | some above => ((view.children above).take (view.index node)).reverse

/-! ## Up -/

/-- The parent of a node, its parent, and so on up to the root. -/
def ancestors (node : Node) : List Node :=
  match _up : view.parent node with
  | none => []
  | some above => above :: ancestors above
termination_by view.height node
decreasing_by exact view.height_parent _up

theorem ancestors_of_root {node : Node} (root : view.parent node = none) :
    view.ancestors node = [] := by
  rw [ancestors]
  split
  · rfl
  · next above up => rw [root] at up; cases up

theorem ancestors_of_parent {node above : Node} (up : view.parent node = some above) :
    view.ancestors node = above :: view.ancestors above := by
  rw [ancestors]
  split
  · next root => rw [root] at up; cases up
  · next other equation =>
    rw [equation] at up
    cases up
    rfl

/-! ## Down -/

/-- The nodes under a node, itself included, in pre-order, each with its distance
from the node where the walk started. -/
def walk (node : Node) (distance : Nat := 0) : List (Node × Nat) :=
  (node, distance) ::
    (view.children node).attach.flatMap fun below => walk below.val (distance + 1)
termination_by view.depth node
decreasing_by exact view.depth_child below.property

/-- A walk visits the node first and then walks its children from left to right. -/
theorem walk_eq (node : Node) (distance : Nat) :
    view.walk node distance =
      (node, distance) ::
        (view.children node).flatMap fun below => view.walk below (distance + 1) := by
  rw [walk]
  congr 1
  simp [List.flatMap_def]

/-- The nodes of a kind under a node, itself included, in pre-order. -/
def find (node : Node) (kind : String) : List Node :=
  ((view.walk node).map Prod.fst).filter fun found => view.kind found == kind

end TreeView

end TreeStyle
