import Mathlib.Data.List.Forall2
import Mathlib.Data.List.Induction
import TreeStyle.Proofs.Tree.WellFormed

/-!
# Positions in a tree

A position is the way down from the root: at each node on the way, the place of the child
to go on with.  A tree shows a shape if the same positions exist in both and have the same
kinds (`TreeView.Shows`).  If the links from children to parents go back along the ways
down (`TreeView.Rooted`), the way up from a position is the position itself, shortened
from its end.

Main statements: `TreeView.at?_append`, `TreeView.Rooted.parent_concat` and
`TreeView.Rooted.wellFormed`.
-/

namespace TreeStyle

set_option autoImplicit false

/-! ## Related lists -/

/-- Related options are both empty, or their values are related. -/
theorem optionRel_iff {Node Other : Type} {same : Node → Other → Prop} {node : Option Node}
    {other : Option Other} :
    Option.Rel same node other ↔
      (node = none ∧ other = none) ∨ ∃ left right, node = some left ∧ other = some right ∧
        same left right := by
  constructor
  · rintro (pair | _)
    · exact .inr ⟨_, _, rfl, rfl, pair⟩
    · exact .inl ⟨rfl, rfl⟩
  · rintro (⟨rfl, rfl⟩ | ⟨left, right, rfl, rfl, pair⟩)
    · exact .none
    · exact .some pair

/-- Lists are related if their entries are related place by place, where there are any. -/
theorem forall₂_iff_getElem? {Node Other : Type} {same : Node → Other → Prop}
    {nodes : List Node} {others : List Other} :
    List.Forall₂ same nodes others ↔
      ∀ place : Nat, Option.Rel same nodes[place]? others[place]? := by
  constructor
  · intro pairs
    induction pairs with
    | nil => exact fun place => .none
    | cons pair _ ih =>
      intro place
      cases place with
      | zero => exact .some pair
      | succ place => exact ih place
  · intro entries
    induction nodes generalizing others with
    | nil =>
      cases others with
      | nil => exact .nil
      | cons => cases entries 0
    | cons node nodes ih =>
      cases others with
      | nil => cases entries 0
      | cons other others =>
        have first := entries 0
        cases first with
        | some pair => exact .cons pair (ih fun place => entries (place + 1))

/-- Lists that are put together from related parts are related. -/
theorem forall₂_flatMap {Node Other Entry Image : Type} {same : Node → Other → Prop}
    {alike : Entry → Image → Prop} {nodes : List Node} {others : List Other}
    (pairs : List.Forall₂ same nodes others) {expand : Node → List Entry}
    {otherExpand : Other → List Image}
    (each : ∀ node ∈ nodes, ∀ other, same node other →
      List.Forall₂ alike (expand node) (otherExpand other)) :
    List.Forall₂ alike (nodes.flatMap expand) (others.flatMap otherExpand) := by
  induction pairs with
  | nil => exact .nil
  | cons pair _ ih =>
    rw [List.flatMap_cons, List.flatMap_cons]
    refine List.rel_append (each _ List.mem_cons_self _ pair) ?_
    exact ih fun node listed => each node (List.mem_cons_of_mem _ listed)

/-- What holds of each two entries of a list holds of the related entries. -/
theorem pairwise_of_forall₂ {Node Other : Type} {same : Node → Other → Prop}
    {apart : Node → Node → Prop} {otherApart : Other → Other → Prop} {nodes : List Node}
    {others : List Other} (pairs : List.Forall₂ same nodes others) (pairwise : nodes.Pairwise apart)
    (each : ∀ {left right : Node} {first second : Other}, same left first → same right second →
      apart left right → otherApart first second) :
    others.Pairwise otherApart := by
  induction pairs with
  | nil => exact .nil
  | @cons node other nodes others pair rest ih =>
    rw [List.pairwise_cons] at pairwise ⊢
    refine ⟨?_, ih pairwise.2⟩
    intro second member
    obtain ⟨place, found⟩ := List.mem_iff_getElem?.mp member
    rcases optionRel_iff.mp (forall₂_iff_getElem?.mp rest place) with
      ⟨_, none⟩ | ⟨right, _, listed, otherListed, otherPair⟩
    · rw [found] at none
      cases none
    · rw [found] at otherListed
      cases otherListed
      exact each pair otherPair (pairwise.1 right (List.mem_of_getElem? listed))

/-! ## Ways down -/

namespace TreeView

variable {Node : Type}

/-- The node at a position under a node. -/
def at? (view : TreeView Node) (node : Node) : List Nat → Option Node
  | [] => some node
  | place :: path => (view.children node)[place]?.bind fun child => view.at? child path

variable {view : TreeView Node}

theorem at?_cons {node : Node} {place : Nat} {path : List Nat} :
    view.at? node (place :: path) =
      (view.children node)[place]?.bind fun child => view.at? child path := rfl

theorem at?_append (node : Node) (first second : List Nat) :
    view.at? node (first ++ second) =
      (view.at? node first).bind fun middle => view.at? middle second := by
  induction first generalizing node with
  | nil => rfl
  | cons place first ih =>
    rw [List.cons_append, at?_cons, at?_cons, Option.bind_assoc]
    congr 1
    funext child
    exact ih child

theorem at?_concat {root node : Node} {path : List Nat} (here : view.at? root path = some node)
    (place : Nat) : view.at? root (path ++ [place]) = (view.children node)[place]? := by
  rw [at?_append, here, Option.bind_some]
  simp only [at?, Option.bind_fun_some]

/-- One more place leads to a child. -/
theorem at?_concat_eq_some_iff {root node : Node} {path : List Nat} {place : Nat} :
    view.at? root (path ++ [place]) = some node ↔
      ∃ above, view.at? root path = some above ∧ (view.children above)[place]? = some node := by
  rw [at?_append, Option.bind_eq_some_iff]
  simp only [at?, Option.bind_fun_some]

end TreeView

/-! ## Shapes -/

namespace Shape

/-- The kind at the top of a shape. -/
def kind : Shape → String
  | .node kind _ _ _ => kind

def children : Shape → List Shape
  | .node _ _ _ children => children

/-- The part of a shape at a position. -/
def at? (shape : Shape) : List Nat → Option Shape
  | [] => some shape
  | place :: path => shape.children[place]?.bind fun child => child.at? path

end Shape

/-- The tree under a node has the positions of a shape, with the same kinds. -/
def TreeView.Shows {Node : Type} (view : TreeView Node) (root : Node) (shape : Shape) : Prop :=
  ∀ path, (view.at? root path).map view.kind = (shape.at? path).map Shape.kind

/-- Trees of one shape have the same positions, with the same kinds. -/
theorem TreeView.Shows.same_kind {Node Other : Type} {view : TreeView Node} {other : TreeView Other}
    {root : Node} {otherRoot : Other} {shape : Shape} (shows : view.Shows root shape)
    (otherShows : other.Shows otherRoot shape) (path : List Nat) :
    Option.Rel (fun node image => view.kind node = other.kind image) (view.at? root path)
      (other.at? otherRoot path) := by
  have kinds := (shows path).trans (otherShows path).symm
  cases here : view.at? root path with
  | none =>
    rw [here, Option.map_none, eq_comm, Option.map_eq_none_iff] at kinds
    rw [kinds]
    exact .none
  | some node =>
    rw [here, Option.map_some, eq_comm, Option.map_eq_some_iff] at kinds
    obtain ⟨image, otherHere, kind⟩ := kinds
    rw [otherHere]
    exact .some kind.symm

/-! ## Ways up -/

namespace TreeView

variable {Node : Type}

/-- The node has no parent, and the nodes under it are the parents of their children. -/
structure Rooted (view : TreeView Node) (root : Node) : Prop where
  parent_root : view.parent root = none
  parent_of_child : ∀ {path : List Nat} {node child : Node} {place : Nat},
    view.at? root path = some node → (view.children node)[place]? = some child →
      view.parent child = some node

/-- Whether a node stands at some position under a root. -/
def IsUnder (view : TreeView Node) (root node : Node) : Prop :=
  ∃ path, view.at? root path = some node

theorem IsUnder.child {view : TreeView Node} {root node child : Node}
    (under : view.IsUnder root node) (listed : child ∈ view.children node) :
    view.IsUnder root child := by
  obtain ⟨path, here⟩ := under
  obtain ⟨place, found⟩ := List.mem_iff_getElem?.mp listed
  exact ⟨path ++ [place], at?_concat_eq_some_iff.mpr ⟨node, here, found⟩⟩

namespace Rooted

variable {view : TreeView Node} {root : Node} (rooted : view.Rooted root)
include rooted

/-- **The way up from a position is the position without its last place.** -/
theorem parent_concat {path : List Nat} {place : Nat} {node : Node}
    (here : view.at? root (path ++ [place]) = some node) :
    ∃ above, view.at? root path = some above ∧ (view.children above)[place]? = some node ∧
      view.parent node = some above := by
  obtain ⟨above, front, listed⟩ := at?_concat_eq_some_iff.mp here
  exact ⟨above, front, listed, rooted.parent_of_child front listed⟩

/-- A node with a parent stands at a place among the children of the parent. -/
theorem exists_concat {path : List Nat} {node above : Node} (here : view.at? root path = some node)
    (up : view.parent node = some above) :
    ∃ front place, path = front ++ [place] ∧ view.at? root front = some above ∧
      (view.children above)[place]? = some node := by
  rcases List.eq_nil_or_concat' path with rfl | ⟨front, place, rfl⟩
  · cases here
    rw [rooted.parent_root] at up
    cases up
  · obtain ⟨upper, upperHere, listed, parent⟩ := rooted.parent_concat here
    rw [parent] at up
    cases up
    exact ⟨front, place, rfl, upperHere, listed⟩

/-- **A node stands at one position** if the nodes know their places. -/
theorem position_unique
    (index_of_child : ∀ {path : List Nat} {node child : Node} {place : Nat},
      view.at? root path = some node → (view.children node)[place]? = some child →
        view.index child = place)
    {path other : List Nat} {node : Node} (here : view.at? root path = some node)
    (otherHere : view.at? root other = some node) : path = other := by
  -- The positions are followed up to the root, from their ends.
  induction path using List.reverseRecOn generalizing other node with
  | nil =>
    cases here
    rcases List.eq_nil_or_concat' other with rfl | ⟨front, place, rfl⟩
    · rfl
    · obtain ⟨_, _, _, up⟩ := rooted.parent_concat otherHere
      rw [rooted.parent_root] at up
      cases up
  | append_singleton path place ih =>
    obtain ⟨above, aboveHere, listed, up⟩ := rooted.parent_concat here
    obtain ⟨front, otherPlace, rfl, otherAbove, otherListed⟩ := rooted.exists_concat otherHere up
    rw [ih aboveHere otherAbove, ← index_of_child aboveHere listed,
      index_of_child otherAbove otherListed]

/-- **A tree with links both ways is well-formed** if its nodes know their places and have
keys of their own. -/
theorem wellFormed
    (index_of_child : ∀ {path : List Nat} {node child : Node} {place : Nat},
      view.at? root path = some node → (view.children node)[place]? = some child →
        view.index child = place)
    (key_injective : ∀ {left right : Node}, view.key left = view.key right → left = right) :
    view.WellFormed (view.IsUnder root) := by
  refine ⟨.of_distinct ?_ ?_ ?_, ?_, ?_, ?_⟩
  · rintro node above ⟨path, here⟩ up
    obtain ⟨front, _, _, aboveHere, _⟩ := rooted.exists_concat here up
    exact ⟨front, aboveHere⟩
  · exact fun under listed => under.child listed
  · exact fun _ _ same => key_injective same
  · rintro node above ⟨path, here⟩ up
    obtain ⟨front, place, _, aboveHere, listed⟩ := rooted.exists_concat here up
    rw [index_of_child aboveHere listed]
    exact listsAt_iff.mpr ⟨node, listed, rfl⟩
  · rintro above child place ⟨path, here⟩ found
    exact congrArg (Option.map view.key) (rooted.parent_of_child here found)
  · rintro above child place ⟨path, here⟩ found
    exact index_of_child here found

end Rooted

end TreeView

end TreeStyle
