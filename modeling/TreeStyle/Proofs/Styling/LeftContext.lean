import TreeStyle.Proofs.Styling.Resemblance
import TreeStyle.Proofs.Tree.Planting

/-!
# What the style of a node depends on

The left context of a node consists of its kind and the kinds of the siblings before it,
and of the same for its parent, and so on up to the root.  Every node to which a chain can
go on from a node stands in its left context: the parent and the ancestors have the rest
of it for theirs, and a sibling before the node has a part of the same siblings before it
(`TreeView.WellFormed.leftContext_child`).

So nodes with the same left context have the same style, in one tree or in two.  What
stands under a node, behind it, behind one of its ancestors or under one of the siblings
before them makes no difference.

Main statement: `TreeView.WellFormed.alike_of_leftContext`.
-/

namespace TreeStyle

set_option autoImplicit false

/-- The kinds at a node and before it: those of the siblings before it, nearest first, and
that of the node. -/
structure Level where
  before : List String
  kind : String
  deriving DecidableEq, Repr

namespace TreeView

variable {Node Other : Type}

/-! ## Left contexts -/

def level (view : TreeView Node) (node : Node) : Level :=
  ⟨(view.previousSiblings node).map view.kind, view.kind node⟩

/-- The left context of a node: the kinds at it and before it, and those at each of its
ancestors. -/
def leftContext (view : TreeView Node) (node : Node) : List Level :=
  (node :: view.ancestors node).map view.level

theorem leftContext_of_root {view : TreeView Node} {node : Node} (root : view.parent node = none) :
    view.leftContext node = [⟨[], view.kind node⟩] := by
  simp [leftContext, view.ancestors_of_root root, level, previousSiblings, root]

/-- The left context of a node goes on with that of its parent. -/
theorem leftContext_of_parent {view : TreeView Node} {node above : Node}
    (up : view.parent node = some above) :
    view.leftContext node = view.level node :: view.leftContext above := by
  rw [leftContext, view.ancestors_of_parent up, List.map_cons, leftContext]

/-- Nodes with the same left context are both roots, or their parents have the same left
context. -/
theorem parents_of_leftContext {view : TreeView Node} {other : TreeView Other} {node : Node}
    {image : Other} (same : view.leftContext node = other.leftContext image) :
    (view.parent node = none ∧ other.parent image = none) ∨
      ∃ above upper, view.parent node = some above ∧ other.parent image = some upper ∧
        view.leftContext above = other.leftContext upper := by
  cases up : view.parent node with
  | none =>
    cases otherUp : other.parent image with
    | none => exact .inl ⟨rfl, rfl⟩
    | some upper =>
      rw [leftContext_of_root up, leftContext_of_parent otherUp] at same
      exact absurd (List.cons.inj same).2.symm (List.cons_ne_nil _ _)
  | some above =>
    cases otherUp : other.parent image with
    | none =>
      rw [leftContext_of_parent up, leftContext_of_root otherUp] at same
      exact absurd (List.cons.inj same).2 (List.cons_ne_nil _ _)
    | some upper =>
      rw [leftContext_of_parent up, leftContext_of_parent otherUp] at same
      exact .inr ⟨above, upper, rfl, rfl, (List.cons.inj same).2⟩

theorem level_of_leftContext {view : TreeView Node} {other : TreeView Other} {node : Node}
    {image : Other} (same : view.leftContext node = other.leftContext image) :
    view.level node = other.level image :=
  (List.cons.inj same).1

/-! ## Handles on one node -/

/-- What is the same for handles on one node is the same along lists of handles on the same
nodes. -/
theorem map_eq_of_map_key {view : TreeView Node} {member : Node → Prop} {Value : Type}
    {value : Node → Value}
    (congr : ∀ {left right : Node}, member left → member right → view.key left = view.key right →
      value left = value right) {nodes others : List Node} (inside : ∀ node ∈ nodes, member node)
    (otherInside : ∀ node ∈ others, member node)
    (same : nodes.map view.key = others.map view.key) : nodes.map value = others.map value := by
  induction nodes generalizing others with
  | nil =>
    cases others with
    | nil => rfl
    | cons => cases same
  | cons node nodes ih =>
    cases others with
    | nil => cases same
    | cons other others =>
      rw [List.map_cons, List.map_cons, List.cons.injEq] at same
      rw [List.map_cons, List.map_cons,
        congr (inside node List.mem_cons_self) (otherInside other List.mem_cons_self) same.1,
        ih (fun next listed => inside next (List.mem_cons_of_mem _ listed))
          (fun next listed => otherInside next (List.mem_cons_of_mem _ listed)) same.2]

namespace Keyed

variable {view : TreeView Node} {member : Node → Prop} (keyed : view.Keyed member)
include keyed

theorem level_eq {left right : Node} (first : member left) (second : member right)
    (same : view.key left = view.key right) : view.level left = view.level right := by
  have kind {left right : Node} (first : member left) (second : member right)
      (same : view.key left = view.key right) : view.kind left = view.kind right :=
    (keyed.agree first second same).kind
  have before := map_eq_of_map_key kind (fun _ => keyed.related_mem first)
    (fun _ => keyed.related_mem second) (keyed.map_key_related .sibling first second same)
  unfold level
  rw [kind first second same]
  exact congrArg (Level.mk · _) before

/-- Handles on one node have one left context. -/
theorem leftContext_eq {left right : Node} (first : member left) (second : member right)
    (same : view.key left = view.key right) : view.leftContext left = view.leftContext right := by
  have above := map_eq_of_map_key keyed.level_eq (fun _ => keyed.related_mem first)
    (fun _ => keyed.related_mem second) (keyed.map_key_related .descendant first second same)
  unfold leftContext
  rw [List.map_cons, List.map_cons, keyed.level_eq first second same]
  exact congrArg (List.cons _) above

end Keyed

/-! ## Siblings -/

namespace WellFormed

variable {view : TreeView Node} {member : Node → Prop} (tree : view.WellFormed member)
include tree

/-- **The left context of a child** consists of the kinds of the children up to it, and of
the left context of the node. -/
theorem leftContext_child {above child : Node} {place : Nat} (inside : member above)
    (found : (view.children above)[place]? = some child) :
    view.leftContext child =
      ⟨((view.children above).take place).reverse.map view.kind, view.kind child⟩ ::
        view.leftContext above := by
  have childInside := tree.child_mem inside (List.mem_of_getElem? found)
  obtain ⟨upper, up, same⟩ := Option.map_eq_some_iff.mp (tree.parent_of_child inside found)
  have upperInside := tree.parent_mem childInside up
  have kinds : (view.children upper).map view.kind = (view.children above).map view.kind :=
    map_eq_of_map_key (fun first second same => (tree.agree first second same).kind)
      (fun _ => tree.child_mem upperInside) (fun _ => tree.child_mem inside)
      (tree.agree upperInside inside same).children
  rw [leftContext_of_parent up, tree.leftContext_eq upperInside inside same]
  unfold level
  simp only [previousSiblings, up, tree.index_of_child inside found, List.map_reverse,
    List.map_take, kinds]

/-- The nearest sibling is the first one of those before a node. -/
theorem related_twin {node : Node} (inside : member node) :
    view.related .twin node = (view.previousSiblings node).take 1 := by
  unfold related previousSiblings
  cases up : view.parent node with
  | none => rfl
  | some above =>
    simp only
    cases index : view.index node with
    | zero => rfl
    | succ place =>
      obtain ⟨child, found, _⟩ := listsAt_iff.mp (tree.listed inside up)
      rw [index] at found
      have bound := (List.getElem?_eq_some_iff.mp found).1
      have entry := List.getElem?_eq_getElem (Nat.lt_of_succ_lt bound)
      have whole : (view.children above).take (place + 1) =
          (view.children above).take place ++ [(view.children above)[place]] := by
        rw [List.take_add_one, entry, Option.toList_some]
      simp only [entry, whole, List.reverse_append, List.reverse_singleton,
        List.singleton_append]
      rfl

end WellFormed

/-! ## Positions to the left -/

/-- The positions on the way to a position, and those of the siblings before the nodes on
the way. -/
def IsLeftOf (position path : List Nat) : Prop :=
  position = [] ∨ ∃ front before place rest, position = front ++ [before] ∧
    path = front ++ place :: rest ∧ before ≤ place

theorem isLeftOf_cons {place : Nat} {position path : List Nat} (left : IsLeftOf position path) :
    IsLeftOf (place :: position) (place :: path) := by
  rcases left with rfl | ⟨front, before, next, rest, rfl, rfl, earlier⟩
  · exact .inr ⟨[], place, place, path, rfl, rfl, Nat.le_refl place⟩
  · exact .inr ⟨place :: front, before, next, rest, rfl, rfl, earlier⟩

/-! ## Two trees -/

section TwoTrees

variable {view : TreeView Node} {other : TreeView Other} {member : Node → Prop}
  {otherMember : Other → Prop}

/-- Nodes of two trees with the same left context. -/
def SameLeft (view : TreeView Node) (other : TreeView Other) (member : Node → Prop)
    (otherMember : Other → Prop) (node : Node) (image : Other) : Prop :=
  member node ∧ otherMember image ∧ view.leftContext node = other.leftContext image

variable (tree : view.WellFormed member) (otherTree : other.WellFormed otherMember)
include tree otherTree

/-- Children at one place have the same left context if their parents have, and if the
kinds of the children up to them are the same. -/
theorem SameLeft.child {above : Node} {upper : Other}
    (pair : view.SameLeft other member otherMember above upper) {place : Nat} {child : Node}
    {image : Other} (found : (view.children above)[place]? = some child)
    (otherFound : (other.children upper)[place]? = some image)
    (kinds : ((view.children above).map view.kind).take (place + 1) =
      ((other.children upper).map other.kind).take (place + 1)) :
    view.SameLeft other member otherMember child image := by
  obtain ⟨inside, otherInside, same⟩ := pair
  refine ⟨tree.child_mem inside (List.mem_of_getElem? found),
    otherTree.child_mem otherInside (List.mem_of_getElem? otherFound), ?_⟩
  have before := congrArg (List.take place) kinds
  have entry := congrArg (fun kinds => kinds[place]?) kinds
  simp only [List.take_take, Nat.min_eq_left (Nat.le_succ place)] at before
  simp only [List.getElem?_take_of_lt (Nat.lt_succ_self place), List.getElem?_map, found,
    otherFound, Option.map_some, Option.some.injEq] at entry
  rw [tree.leftContext_child inside found, otherTree.leftContext_child otherInside otherFound, same,
    entry, List.map_reverse, List.map_reverse, List.map_take, List.map_take, before]

/-- The siblings before nodes with the same left context have the same left context. -/
theorem SameLeft.previousSiblings {node : Node} {image : Other}
    (pair : view.SameLeft other member otherMember node image) :
    List.Forall₂ (view.SameLeft other member otherMember) (view.previousSiblings node)
      (other.previousSiblings image) := by
  obtain ⟨inside, otherInside, same⟩ := pair
  have kinds := congrArg Level.before (level_of_leftContext same)
  simp only [level] at kinds
  unfold TreeView.previousSiblings at kinds ⊢
  rcases parents_of_leftContext same with ⟨root, otherRoot⟩ | ⟨above, upper, up, otherUp, sameAbove⟩
  · rw [root, otherRoot]
    exact .nil
  · have abovePair : view.SameLeft other member otherMember above upper :=
      ⟨tree.parent_mem inside up, otherTree.parent_mem otherInside otherUp, sameAbove⟩
    simp only [up, otherUp, List.map_reverse, List.reverse_inj] at kinds ⊢
    refine List.rel_reverse (forall₂_iff_getElem?.mpr fun place => optionRel_iff.mpr ?_)
    have entry := congrArg (fun kinds => kinds[place]?) kinds
    simp only [List.getElem?_map] at entry
    cases found : ((view.children above).take (view.index node))[place]? with
    | none =>
      rw [found, Option.map_none, eq_comm, Option.map_eq_none_iff] at entry
      exact .inl ⟨rfl, entry⟩
    | some child =>
      rw [found, Option.map_some, eq_comm, Option.map_eq_some_iff] at entry
      obtain ⟨sibling, otherFound, _⟩ := entry
      obtain ⟨earlier, listed⟩ := of_getElem?_take found
      obtain ⟨otherEarlier, otherListed⟩ := of_getElem?_take otherFound
      refine .inr ⟨child, sibling, rfl, otherFound, ?_⟩
      have front := congrArg (List.take (place + 1)) kinds
      rw [List.map_take, List.map_take, List.take_take, List.take_take,
        Nat.min_eq_left earlier, Nat.min_eq_left otherEarlier] at front
      exact abovePair.child tree otherTree listed otherListed front

/-- **Nodes with the same left context resemble each other.** -/
theorem resembles_of_leftContext :
    view.Resembles other (view.SameLeft other member otherMember) := by
  constructor
  · rintro node image ⟨_, _, same⟩
    exact congrArg Level.kind (level_of_leftContext same)
  · intro combinator node image pair
    cases combinator with
    | sibling => exact pair.previousSiblings tree otherTree
    | twin =>
      rw [tree.related_twin pair.1, otherTree.related_twin pair.2.1]
      exact List.forall₂_take 1 (pair.previousSiblings tree otherTree)
    | child =>
      obtain ⟨inside, otherInside, same⟩ := pair
      rw [related_eq_parent, related_eq_parent]
      rcases parents_of_leftContext same with
        ⟨root, otherRoot⟩ | ⟨above, upper, up, otherUp, sameAbove⟩
      · rw [root, otherRoot]
        exact .nil
      · rw [up, otherUp]
        exact .cons ⟨tree.parent_mem inside up, otherTree.parent_mem otherInside otherUp, sameAbove⟩
          .nil
    | descendant =>
      rw [related_eq_ancestors, related_eq_ancestors]
      induction size : view.height node using Nat.strongRecOn generalizing node image with
      | ind size ih =>
        obtain ⟨inside, otherInside, same⟩ := pair
        rcases parents_of_leftContext same with
          ⟨root, otherRoot⟩ | ⟨above, upper, up, otherUp, sameAbove⟩
        · rw [view.ancestors_of_root root, other.ancestors_of_root otherRoot]
          exact .nil
        · have lower := view.height_parent up
          have pair : view.SameLeft other member otherMember above upper :=
            ⟨tree.parent_mem inside up, otherTree.parent_mem otherInside otherUp, sameAbove⟩
          rw [view.ancestors_of_parent up, other.ancestors_of_parent otherUp]
          exact .cons pair (ih (view.height above) (by omega) pair rfl)

/-- **Nodes at one position have the same left context** if their trees have the same kinds
at the positions to the left. -/
theorem SameLeft.at? {root node : Node} {otherRoot image : Other}
    (pair : view.SameLeft other member otherMember root otherRoot) {path : List Nat}
    (here : view.at? root path = some node) (otherHere : other.at? otherRoot path = some image)
    (kinds : ∀ position, IsLeftOf position path →
      (view.at? root position).map view.kind = (other.at? otherRoot position).map other.kind) :
    view.SameLeft other member otherMember node image := by
  induction path generalizing root otherRoot with
  | nil =>
    cases here
    cases otherHere
    exact pair
  | cons place path ih =>
    rw [at?_cons, Option.bind_eq_some_iff] at here otherHere
    obtain ⟨child, found, further⟩ := here
    obtain ⟨otherChild, otherFound, otherFurther⟩ := otherHere
    have front : ((view.children root).map view.kind).take (place + 1) =
        ((other.children otherRoot).map other.kind).take (place + 1) := by
      apply List.ext_getElem?
      intro before
      rw [List.getElem?_take, List.getElem?_take]
      split
      · next earlier =>
        have kind := kinds [before]
          (.inr ⟨[], before, place, path, rfl, rfl, Nat.lt_succ_iff.mp earlier⟩)
        simp only [TreeView.at?, Option.bind_fun_some] at kind
        rw [List.getElem?_map, List.getElem?_map, kind]
      · rfl
    refine ih (pair.child tree otherTree found otherFound front) further otherFurther ?_
    intro position left
    have kind := kinds (place :: position) (isLeftOf_cons left)
    rw [at?_cons, at?_cons, found, otherFound] at kind
    exact kind

end TwoTrees

/-- **The style of a node depends on its left context alone.**  Nodes of two trees with the
same left context are matched and styled alike.  In particular, a change of the tree at
positions that are not to the left of a node makes no difference to the node: at its
descendants, behind it or behind an ancestor, or under a sibling before one of these. -/
theorem WellFormed.alike_of_leftContext {view : TreeView Node} {other : TreeView Other}
    {member : Node → Prop} {otherMember : Other → Prop} (tree : view.WellFormed member)
    (otherTree : other.WellFormed otherMember) :
    (∀ {node : Node} {image : Other}, member node → otherMember image →
      view.leftContext node = other.leftContext image → view.Alike other node image) ∧
    (∀ {root node : Node} {otherRoot image : Other} {path : List Nat}, member root →
      otherMember otherRoot → view.parent root = none → other.parent otherRoot = none →
      view.at? root path = some node → other.at? otherRoot path = some image →
      (∀ position, IsLeftOf position path →
        (view.at? root position).map view.kind = (other.at? otherRoot position).map other.kind) →
      view.Alike other node image) := by
  have resembles := resembles_of_leftContext tree otherTree
  have alike {node : Node} {image : Other}
      (pair : view.SameLeft other member otherMember node image) : view.Alike other node image :=
    resembles.alike tree.toKeyed.searchable otherTree.toKeyed.searchable pair pair.1 pair.2.1
  constructor
  · exact fun inside otherInside same => alike ⟨inside, otherInside, same⟩
  · intro root node otherRoot image path inside otherInside top otherTop here otherHere kinds
    have kind : view.kind root = other.kind otherRoot := Option.some.inj (kinds [] (.inl rfl))
    have pair : view.SameLeft other member otherMember root otherRoot := by
      refine ⟨inside, otherInside, ?_⟩
      rw [leftContext_of_root top, leftContext_of_root otherTop, kind]
    exact alike (pair.at? tree otherTree here otherHere kinds)

end TreeView

/-- The block with a node under each of its nodes, and one more node at its end. -/
def Forest.editedBlock : Construction :=
  Forest.empty.plant
    (.node "block" 0 0 [.node "comment" 0 0 [.node "text" 0 0 []],
      .node "string" 0 0 [.node "escape" 0 0 []], .node "number" 0 0 []])

/-- The string in the block is styled alike after the edit. -/
theorem Forest.alike_editedBlock : block.view.Alike editedBlock.forest.view 1 3 := by
  have edited : editedBlock.forest.view.WellFormed (editedBlock.forest.view.IsUnder 5) :=
    (Forest.plant_plants Forest.empty _).2.wellFormed
  have here : block.view.at? 2 [1] = some 1 := by decide
  have otherHere : editedBlock.forest.view.at? 5 [1] = some 3 := by decide
  refine (wellFormed_block.alike_of_leftContext edited).2 (by decide) ⟨[], rfl⟩ (by decide)
    (by decide) here otherHere ?_
  rintro position (rfl | ⟨front, before, place, rest, rfl, split, earlier⟩)
  · decide
  · cases front with
    | nil =>
      cases split
      have cases : before = 0 ∨ before = 1 := by omega
      rcases cases with rfl | rfl <;> decide
    | cons next front => simp at split

end TreeStyle
