import Mathlib.Data.List.Lex
import TreeStyle.Proofs.Tree.Planting
import TreeStyle.Proofs.Tree.Preorder
import TreeStyle.Proofs.Tree.Traversal

/-!
# Down and up

A walk visits the nodes under a node, each at a distance, and the way up from a node passes
its ancestors, the nearest first.  In a well-formed tree both say the same of two nodes: the
walk from one of them visits the other one at a distance that is not zero exactly if the
first one is the ancestor at that distance.  Both sides go by the last step of the way,
which is from the parent of the node that is visited
(`TreeView.WellFormed.walksTo_succ_iff`).

The positions of siblings differ in the last place alone, and a walk visits positions in
lexicographic order, so it visits siblings in the order of their places
(`TreeView.WellFormed.visitsBefore_iff_of_listsAt`).  Hence the siblings before a node are
the children of its parent that a walk from the root visits before the node.

Main statement: `TreeView.WellFormed.walk_dual_ancestors`.
-/

namespace TreeStyle

set_option autoImplicit false

/-- What two words have in common in front does not count for their order. -/
theorem lex_append_iff (front first second : List Nat) :
    List.Lex (· < ·) (front ++ first) (front ++ second) ↔ List.Lex (· < ·) first second := by
  induction front with
  | nil => rfl
  | cons place front ih => rw [List.cons_append, List.cons_append, List.lex_cons_iff, ih]

namespace TreeView

variable {Node : Type}

/-! ## What a walk visits -/

section Visited

variable (view : TreeView Node)

/-- Whether a walk from a node visits another one at a distance. -/
def WalksTo (start node : Node) (distance : Nat) : Prop :=
  ∃ visited, view.key visited = view.key node ∧ (visited, distance) ∈ view.walk start

/-- Whether a walk from a node visits one node before another one. -/
def VisitsBefore (root left right : Node) : Prop :=
  ∃ first second : Nat, first < second ∧
    ((view.walk root).map fun entry => view.key entry.1)[first]? = some (view.key left) ∧
    ((view.walk root).map fun entry => view.key entry.1)[second]? = some (view.key right)

variable {view}

/-- The visits of a walk are numbered as the positions are. -/
theorem getElem?_walk_eq_some_iff {start : Node} {number : Nat} {entry : Node × Nat} :
    (view.walk start)[number]? = some entry ↔
      ∃ path, (view.positions start)[number]? = some path ∧
        view.at? start path = some entry.1 ∧ path.length = entry.2 := by
  have pair := forall₂_iff_getElem?.mp (view.walk_positions start 0) number
  rcases optionRel_iff.mp pair with
    ⟨none, otherNone⟩ | ⟨path, visit, found, otherFound, here, length⟩
  · simp [none, otherNone]
  · rw [found, otherFound, Option.some.injEq]
    rw [Nat.zero_add] at length
    constructor
    · rintro rfl
      exact ⟨path, rfl, here, length.symm⟩
    · rintro ⟨_, same, there, otherLength⟩
      cases same
      rw [here, Option.some.injEq] at there
      exact Prod.ext there (length.trans otherLength)

theorem mem_walk_iff {start visited : Node} {distance : Nat} :
    (visited, distance) ∈ view.walk start ↔
      ∃ path, view.at? start path = some visited ∧ path.length = distance := by
  rw [List.mem_iff_getElem?]
  constructor
  · rintro ⟨number, found⟩
    obtain ⟨path, _, here⟩ := getElem?_walk_eq_some_iff.mp found
    exact ⟨path, here⟩
  · rintro ⟨path, here⟩
    have listed := (view.mem_positions_iff start path).mpr (by rw [here.1]; rfl)
    obtain ⟨number, found⟩ := List.mem_iff_getElem?.mp listed
    exact ⟨number, getElem?_walk_eq_some_iff.mpr ⟨path, found, here⟩⟩

theorem walksTo_iff {start node : Node} {distance : Nat} :
    view.WalksTo start node distance ↔
      ∃ path visited, view.at? start path = some visited ∧ view.key visited = view.key node ∧
        path.length = distance := by
  constructor
  · rintro ⟨visited, same, listed⟩
    obtain ⟨path, here, length⟩ := mem_walk_iff.mp listed
    exact ⟨path, visited, here, same, length⟩
  · rintro ⟨path, visited, here, same, length⟩
    exact ⟨visited, same, mem_walk_iff.mpr ⟨path, here, length⟩⟩

/-- A walk is at no distance from the node where it started. -/
theorem walksTo_zero_iff {start node : Node} :
    view.WalksTo start node 0 ↔ view.key start = view.key node := by
  rw [walksTo_iff]
  constructor
  · rintro ⟨path, visited, here, same, length⟩
    rw [List.length_eq_zero_iff.mp length] at here
    cases here
    exact same
  · intro same
    exact ⟨[], start, rfl, same, rfl⟩

/-- Of two visits, the first one is at the position that comes first. -/
theorem lex_of_getElem?_positions {root : Node} {first second : Nat} {path other : List Nat}
    (less : first < second) (found : (view.positions root)[first]? = some path)
    (otherFound : (view.positions root)[second]? = some other) :
    List.Lex (· < ·) path other := by
  obtain ⟨_, rfl⟩ := List.getElem?_eq_some_iff.mp found
  obtain ⟨_, rfl⟩ := List.getElem?_eq_some_iff.mp otherFound
  exact List.pairwise_iff_getElem.mp (view.positions_sorted root) first second _ _ less

/-- The children that are taken from the front stand at their places. -/
theorem listsAt_of_take {above : Node} {count place : Nat}
    (bound : place < ((view.children above).take count).length) :
    view.ListsAt above place ((view.children above).take count)[place] :=
  listsAt_iff.mpr ⟨_, (of_getElem?_take (List.getElem?_eq_getElem bound)).2, rfl⟩

end Visited

namespace WellFormed

variable {view : TreeView Node} {member : Node → Prop} (tree : view.WellFormed member)
include tree

/-! ## Ancestors -/

/-- **A node is one step farther down than its parent**, from wherever the walk starts. -/
theorem walksTo_succ_iff {start node : Node} (startInside : member start) (inside : member node)
    (distance : Nat) :
    view.WalksTo start node (distance + 1) ↔
      ∃ above, view.parent node = some above ∧ view.WalksTo start above distance := by
  simp only [walksTo_iff]
  constructor
  · rintro ⟨path, visited, here, same, length⟩
    rcases List.eq_nil_or_concat' path with rfl | ⟨front, place, rfl⟩
    · cases length
    · obtain ⟨upper, front_here, found⟩ := at?_concat_eq_some_iff.mp here
      have upperInside := tree.at?_mem startInside front_here
      have listed : view.ListsAt upper place node := listsAt_iff.mpr ⟨visited, found, same⟩
      obtain ⟨_, above, up, sameAbove⟩ := tree.parent_of_listsAt upperInside inside listed
      exact ⟨above, up, front, upper, front_here, sameAbove.symm, by simpa using length⟩
  · rintro ⟨above, up, path, upper, here, same, rfl⟩
    have upperInside := tree.at?_mem startInside here
    have listed := tree.listsAt_congr (tree.parent_mem inside up) upperInside same.symm
      (tree.listed inside up)
    obtain ⟨child, found, sameChild⟩ := listsAt_iff.mp listed
    exact ⟨path ++ [view.index node], child, at?_concat_eq_some_iff.mpr ⟨upper, here, found⟩,
      sameChild, List.length_append⟩

/-- **The node where a walk starts is an ancestor of what the walk visits**, the one at the
distance of the visit. -/
theorem walksTo_succ_iff_getElem?_ancestors {start node : Node} (startInside : member start)
    (inside : member node) (distance : Nat) :
    view.WalksTo start node (distance + 1) ↔
      ((view.ancestors node).map view.key)[distance]? = some (view.key start) := by
  induction distance generalizing node with
  | zero =>
    rw [tree.walksTo_succ_iff startInside inside]
    cases up : view.parent node with
    | none => simp [view.ancestors_of_root up]
    | some above => simp [view.ancestors_of_parent up, walksTo_zero_iff, eq_comm]
  | succ distance ih =>
    rw [tree.walksTo_succ_iff startInside inside]
    cases up : view.parent node with
    | none => simp [view.ancestors_of_root up]
    | some above =>
      simpa [view.ancestors_of_parent up] using ih (tree.parent_mem inside up)

/-- The ancestors of a node are the nodes from which a walk visits it farther down. -/
theorem mem_ancestors_iff_walksTo {start node : Node} (startInside : member start)
    (inside : member node) :
    view.key start ∈ (view.ancestors node).map view.key ↔
      ∃ distance, 0 < distance ∧ view.WalksTo start node distance := by
  rw [List.mem_iff_getElem?]
  constructor
  · rintro ⟨distance, found⟩
    exact ⟨distance + 1, Nat.succ_pos distance,
      (tree.walksTo_succ_iff_getElem?_ancestors startInside inside distance).mpr found⟩
  · rintro ⟨_ | distance, positive, visits⟩
    · cases positive
    · exact ⟨distance,
        (tree.walksTo_succ_iff_getElem?_ancestors startInside inside distance).mp visits⟩

end WellFormed

/-! ## The tree of a node -/

/-- A node without a parent, and in the walk from it the given node. -/
structure IsRootOf (view : TreeView Node) (member : Node → Prop) (root node : Node) : Prop where
  inside : member root
  top : view.parent root = none
  visited : ∃ distance, view.WalksTo root node distance

namespace WellFormed

variable {view : TreeView Node} {member : Node → Prop} (tree : view.WellFormed member)
include tree

/-- Every node has a root. -/
theorem exists_isRootOf {node : Node} (inside : member node) :
    ∃ root, view.IsRootOf member root node := by
  induction size : view.height node using Nat.strongRecOn generalizing node with
  | ind size ih =>
    cases up : view.parent node with
    | none => exact ⟨node, inside, up, 0, walksTo_zero_iff.mpr rfl⟩
    | some above =>
      have lower := view.height_parent up
      obtain ⟨root, rootInside, top, distance, visits⟩ :=
        ih (view.height above) (by omega) (tree.parent_mem inside up) rfl
      exact ⟨root, rootInside, top, distance + 1,
        (tree.walksTo_succ_iff rootInside inside distance).mpr ⟨above, up, visits⟩⟩

/-- A node has the roots of its parent. -/
theorem isRootOf_parent {root node above : Node} (isRoot : view.IsRootOf member root node)
    (inside : member node) (up : view.parent node = some above) :
    view.IsRootOf member root above := by
  obtain ⟨rootInside, top, distance, visits⟩ := isRoot
  cases distance with
  | zero =>
    -- The root has no parent, so it is not this node.
    have parents := (tree.agree rootInside inside (walksTo_zero_iff.mp visits)).parent
    rw [top, up] at parents
    cases parents
  | succ distance =>
    obtain ⟨other, parent, visits⟩ :=
      (tree.walksTo_succ_iff rootInside inside distance).mp visits
    rw [up, Option.some.injEq] at parent
    exact ⟨rootInside, top, distance, parent ▸ visits⟩

/-! ## The order of siblings -/

/-- **A walk visits nodes in the order of their positions.** -/
theorem visitsBefore_iff_lex {root left right first second : Node} {path other : List Nat}
    (inside : member root) (here : view.at? root path = some first)
    (same : view.key first = view.key left) (otherHere : view.at? root other = some second)
    (otherSame : view.key second = view.key right) :
    view.VisitsBefore root left right ↔ List.Lex (· < ·) path other := by
  rw [VisitsBefore, ← same, ← otherSame]
  simp only [List.getElem?_map, Option.map_eq_some_iff, getElem?_walk_eq_some_iff]
  constructor
  · rintro ⟨number, later, less, ⟨_, ⟨visited, found, there, _⟩, key⟩,
      ⟨_, ⟨otherVisited, otherFound, otherThere, _⟩, otherKey⟩⟩
    obtain rfl : visited = path := tree.position_unique inside there here key
    obtain rfl : otherVisited = other :=
      tree.position_unique inside otherThere otherHere otherKey
    exact lex_of_getElem?_positions less found otherFound
  · intro before
    have listed := (view.mem_positions_iff root path).mpr (by rw [here]; rfl)
    have otherListed := (view.mem_positions_iff root other).mpr (by rw [otherHere]; rfl)
    obtain ⟨number, found⟩ := List.mem_iff_getElem?.mp listed
    obtain ⟨later, otherFound⟩ := List.mem_iff_getElem?.mp otherListed
    refine ⟨number, later, ?_, ⟨(first, path.length), ⟨path, found, here, rfl⟩, rfl⟩,
      (second, other.length), ⟨other, otherFound, otherHere, rfl⟩, rfl⟩
    -- The order of the numbers is that of the positions, which is total.
    rcases Nat.lt_trichotomy number later with less | rfl | greater
    · exact less
    · rw [found, Option.some.injEq] at otherFound
      rw [otherFound] at before
      exact absurd before (List.lt_irrefl other)
    · have after := lex_of_getElem?_positions greater otherFound found
      exact absurd after (List.lt_asymm before)

/-- **A walk visits siblings in the order of their places.** -/
theorem visitsBefore_iff_of_listsAt {root above left right : Node} {place later : Nat}
    (isRoot : view.IsRootOf member root above) (inside : member above)
    (listed : view.ListsAt above place left) (otherListed : view.ListsAt above later right) :
    view.VisitsBefore root left right ↔ place < later := by
  obtain ⟨_, visits⟩ := isRoot.visited
  obtain ⟨path, upper, here, same, _⟩ := walksTo_iff.mp visits
  have upperInside := tree.at?_mem isRoot.inside here
  obtain ⟨child, found, sameChild⟩ :=
    listsAt_iff.mp (tree.listsAt_congr inside upperInside same.symm listed)
  obtain ⟨other, otherFound, otherSame⟩ :=
    listsAt_iff.mp (tree.listsAt_congr inside upperInside same.symm otherListed)
  rw [tree.visitsBefore_iff_lex isRoot.inside (at?_concat_eq_some_iff.mpr ⟨upper, here, found⟩)
    sameChild (at?_concat_eq_some_iff.mpr ⟨upper, here, otherFound⟩) otherSame, lex_append_iff,
    List.lex_singleton_iff]

/-- What is visited one after the other is not the same node. -/
theorem key_ne_of_visitsBefore {root left right : Node} (inside : member root)
    (before : view.VisitsBefore root left right) : view.key left ≠ view.key right := by
  obtain ⟨first, second, less, here, otherHere⟩ := before
  intro same
  have bound := (List.getElem?_eq_some_iff.mp here).1
  rw [same, ← otherHere] at here
  have equal := (List.getElem?_inj bound (tree.nodup_walk inside 0)).mp here
  omega

/-! ## The siblings before a node -/

/-- Of the siblings before a node, a walk visits the nearer ones later. -/
theorem pairwise_previousSiblings {root node : Node} (isRoot : view.IsRootOf member root node)
    (inside : member node) :
    (view.previousSiblings node).Pairwise fun nearer farther =>
      view.VisitsBefore root farther nearer := by
  rw [previousSiblings]
  cases up : view.parent node with
  | none => exact .nil
  | some above =>
    rw [List.pairwise_reverse, List.pairwise_iff_getElem]
    intro place later bound otherBound less
    exact (tree.visitsBefore_iff_of_listsAt (tree.isRootOf_parent isRoot inside up)
      (tree.parent_mem inside up) (listsAt_of_take bound) (listsAt_of_take otherBound)).mpr less

/-- **The siblings before a node are the children of its parent that are visited before it.** -/
theorem mem_previousSiblings_iff_visitsBefore {root node : Node}
    (isRoot : view.IsRootOf member root node) (inside : member node) (sibling : Node) :
    view.key sibling ∈ (view.previousSiblings node).map view.key ↔
      (∃ above, view.parent node = some above ∧
        view.key sibling ∈ (view.children above).map view.key) ∧
      view.VisitsBefore root sibling node := by
  rw [List.mem_map, ← related_eq_previousSiblings, ← tree.sibling_iff inside]
  constructor
  · rintro ⟨upper, before, place, upperInside, less, listed⟩
    obtain ⟨above, up, rfl, found⟩ :=
      (tree.exists_listsAt_iff inside before place).mp ⟨upper, upperInside, listed⟩
    refine ⟨⟨above, up, List.mem_of_getElem? found⟩, ?_⟩
    exact (tree.visitsBefore_iff_of_listsAt (tree.isRootOf_parent isRoot inside up)
      (tree.parent_mem inside up) found (tree.listed inside up)).mpr less
  · rintro ⟨⟨above, up, child⟩, earlier⟩
    obtain ⟨before, found⟩ := List.mem_iff_getElem?.mp child
    have aboveInside := tree.parent_mem inside up
    have listed := tree.listed inside up
    have less := (tree.visitsBefore_iff_of_listsAt (tree.isRootOf_parent isRoot inside up)
      aboveInside found listed).mp earlier
    exact ⟨above, before, view.index node, aboveInside, less, found, listed⟩

/-! ## The nearest candidates -/

/-- The places of nodes are in range. -/
theorem inRange {node : Node} (inside : member node) : view.InRange node := by
  intro above up
  obtain ⟨child, found, _⟩ := listsAt_iff.mp (tree.listed inside up)
  exact Nat.le_of_lt (List.getElem?_eq_some_iff.mp found).1

end WellFormed

/-- The sibling right before a node is the nearest one of those before it. -/
theorem InRange.related_twin_eq {view : TreeView Node} {node : Node}
    (inRange : view.InRange node) :
    view.related .twin node = (view.previousSiblings node).head?.toList := by
  cases up : view.parent node with
  | none => simp only [related, previousSiblings, up, List.head?_nil, Option.toList_none]
  | some above =>
    cases index : view.index node with
    | zero =>
      simp only [related, previousSiblings, up, index, List.take_zero, List.reverse_nil,
        List.head?_nil, Option.toList_none]
    | succ place =>
      have bound := inRange above up
      rw [index] at bound
      simp only [related, previousSiblings, up, index, List.take_add_one,
        List.getElem?_eq_getElem bound, Option.toList_some, List.reverse_concat,
        List.head?_cons]

/-- The parent of a node is the nearest one of its ancestors. -/
theorem related_child_eq (view : TreeView Node) (node : Node) :
    view.related .child node = (view.ancestors node).head?.toList := by
  rw [related_eq_parent]
  cases up : view.parent node with
  | none => rw [view.ancestors_of_root up, List.head?_nil]
  | some above => rw [view.ancestors_of_parent up, List.head?_cons]

/-! ## Both ways -/

/-- **Walking down and climbing up are dual.**  The loop over parents passes the ancestors of
a node, the loop over a stack makes the walk from it, and the look-ups from its place down to
zero find the siblings before it.

The walk from another node visits the node at a distance that is not zero exactly if the
other one is an ancestor of the node, and then it is the ancestor at that distance.  The
siblings before the node are, without repetition and nearest first, the children of its
parent that the walk from its root visits before it.  The nearest sibling and the nearest
ancestor are the candidates of `+` and of `>`. -/
theorem WellFormed.walk_dual_ancestors {view : TreeView Node} {member : Node → Prop}
    (tree : view.WellFormed member) {node : Node} (inside : member node) :
    (∀ passed, view.Climbs (view.parent node) passed ↔ passed = view.ancestors node) ∧
    (∀ visited, view.Visits [(node, 0)] visited ↔ visited = view.walk node) ∧
    view.previousSiblings? node = some (view.previousSiblings node) ∧
    (∀ upper, member upper →
      (view.key upper ∈ (view.ancestors node).map view.key ↔
        ∃ distance, 0 < distance ∧ view.WalksTo upper node distance) ∧
      ∀ distance, view.WalksTo upper node (distance + 1) ↔
        ((view.ancestors node).map view.key)[distance]? = some (view.key upper)) ∧
    (∃ root, view.IsRootOf member root node) ∧
    (∀ root, view.IsRootOf member root node →
      ((view.previousSiblings node).map view.key).Nodup ∧
      (view.previousSiblings node).Pairwise
        (fun nearer farther => view.VisitsBefore root farther nearer) ∧
      ∀ sibling, view.key sibling ∈ (view.previousSiblings node).map view.key ↔
        (∃ above, view.parent node = some above ∧
          view.key sibling ∈ (view.children above).map view.key) ∧
        view.VisitsBefore root sibling node) ∧
    view.related .twin node = (view.previousSiblings node).head?.toList ∧
    view.related .child node = (view.ancestors node).head?.toList := by
  have inRange := tree.inRange inside
  refine ⟨view.climbs_iff node, view.visits_root_iff node, inRange.previousSiblings?_eq, ?_,
    tree.exists_isRootOf inside, ?_, inRange.related_twin_eq, view.related_child_eq node⟩
  · intro upper upperInside
    exact ⟨tree.mem_ancestors_iff_walksTo upperInside inside,
      tree.walksTo_succ_iff_getElem?_ancestors upperInside inside⟩
  · intro root isRoot
    have sorted := tree.pairwise_previousSiblings isRoot inside
    refine ⟨?_, sorted, tree.mem_previousSiblings_iff_visitsBefore isRoot inside⟩
    rw [List.nodup_iff_pairwise_ne, List.pairwise_map]
    exact sorted.imp fun before => (tree.key_ne_of_visitsBefore isRoot.inside before).symm

end TreeView

/-! ## A tree with a list in it -/

/-- A block over a comment, a string, and a list with a comment of its own. -/
def Forest.nestedBlock : Forest :=
  (Forest.empty.plant
    (.node "block" 0 0 [.node "comment" 0 0 [], .node "string" 0 0 [],
      .node "list" 0 0 [.node "comment" 0 0 []]])).forest

theorem Forest.wellFormed_nestedBlock :
    nestedBlock.view.WellFormed (nestedBlock.view.IsUnder 4) :=
  (plant_plants empty _).2.wellFormed

/-- A walk from the block visits the comment in the list two steps down, and the list after
the comment and the string, in this order; none from the string visits the comment in the
list. -/
theorem Forest.nestedBlock_walk :
    let view := nestedBlock.view
    let member := view.IsUnder 4
    (member 1 ∧ member 2 ∧ member 3 ∧ view.IsRootOf member 4 3) ∧
      view.WalksTo 4 2 2 ∧ (∀ distance, ¬view.WalksTo 1 2 (distance + 1)) ∧
      view.VisitsBefore 4 0 1 ∧ view.VisitsBefore 4 0 3 ∧ view.VisitsBefore 4 1 3 ∧
      view.related .twin 3 = [1] ∧ view.related .child 2 = [3] := by
  intro view member
  have block : member 4 := ⟨[], rfl⟩
  have string : member 1 := ⟨[1], by decide⟩
  have list : member 3 := ⟨[2], by decide⟩
  have comment : member 2 := ⟨[2, 0], by decide⟩
  have top : view.parent 4 = none := by decide
  have up : view.parent 3 = some 4 := by decide
  have further : view.parent 2 = some 3 := by decide
  have listAncestors : view.ancestors 3 = [4] := by
    rw [view.ancestors_of_parent up, view.ancestors_of_root top]
  have commentAncestors : view.ancestors 2 = [3, 4] := by
    rw [view.ancestors_of_parent further, listAncestors]
  obtain ⟨_, _, _, fromAbove, _, _, _, nearest⟩ :=
    wellFormed_nestedBlock.walk_dual_ancestors comment
  obtain ⟨_, _, _, fromBlock, _, siblings, twin, _⟩ :=
    wellFormed_nestedBlock.walk_dual_ancestors list
  rw [commentAncestors] at fromAbove nearest
  rw [listAncestors] at fromBlock
  have root : view.IsRootOf member 4 3 := ⟨block, top, 1, ((fromBlock 4 block).2 0).mpr rfl⟩
  obtain ⟨_, sorted, earlier⟩ := siblings 4 root
  refine ⟨⟨string, comment, list, root⟩, ((fromAbove 4 block).2 1).mpr rfl, ?_,
    (List.pairwise_cons.mp sorted).1 0 List.mem_cons_self, ((earlier 0).mp (by decide)).2,
    ((earlier 1).mp (by decide)).2, twin, nearest⟩
  intro distance visits
  have listed := (fromAbove 1 string).1.mpr ⟨distance + 1, Nat.succ_pos distance, visits⟩
  exact absurd listed (by decide)

end TreeStyle
