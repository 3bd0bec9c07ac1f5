import TreeStyle.Matching
import TreeStyle.Tree.Forest

/-!
# Well-formed trees

A node may be reached by several handles, which caches and memos take for the same
node if their keys are equal.  So what a view says about a tree is meant up to keys:
handles with the same key have to agree (`TreeView.Keyed`), and in a well-formed tree
the links to parents and to children are inverse to each other as well
(`TreeView.WellFormed`).

The relations of the four combinators are stated by the lists of children alone.  The
candidates of the matcher, which come from parents and places, are the nodes that are
so related.

Main statements: `Keyed.map_key_related` and `WellFormed.stands_iff`.
-/

namespace TreeStyle

set_option autoImplicit false

namespace TreeView

variable {Node : Type}

/-! ## Sets of nodes that a search stays in -/

theorem of_getElem?_take {nodes : List Node} {count place : Nat} {node : Node}
    (found : (nodes.take count)[place]? = some node) :
    place < count ∧ nodes[place]? = some node := by
  rw [List.getElem?_take] at found
  split at found
  · next earlier => exact ⟨earlier, found⟩
  · cases found

/-- The nodes before a place are those that stand at an earlier one. -/
theorem mem_take_iff_getElem? {nodes : List Node} {count : Nat} {node : Node} :
    node ∈ nodes.take count ↔ ∃ place, place < count ∧ nodes[place]? = some node := by
  rw [List.mem_iff_getElem?]
  constructor
  · rintro ⟨place, found⟩
    exact ⟨place, of_getElem?_take found⟩
  · rintro ⟨place, earlier, found⟩
    exact ⟨place, by rw [List.getElem?_take_of_lt earlier, found]⟩

section Closed

variable {view : TreeView Node} {member : Node → Prop}
  (parent_mem : ∀ {node above : Node}, member node → view.parent node = some above → member above)
include parent_mem

theorem ancestor_mem {node above : Node} (inside : member node)
    (listed : above ∈ view.ancestors node) : member above := by
  -- The way up is followed by the height of the node.
  induction size : view.height node using Nat.strongRecOn generalizing node with
  | ind size ih =>
    cases up : view.parent node with
    | none =>
      rw [view.ancestors_of_root up] at listed
      cases listed
    | some next =>
      have nextInside := parent_mem inside up
      rw [view.ancestors_of_parent up] at listed
      rcases List.mem_cons.mp listed with rfl | further
      · exact nextInside
      · have lower := view.height_parent up
        exact ih (view.height next) (by omega) nextInside further rfl

/-- A set with the parents and the siblings before its nodes has all candidates of its
nodes. -/
theorem related_mem
    (earlier_mem : ∀ {node above sibling : Node}, member node → view.parent node = some above →
      sibling ∈ (view.children above).take (view.index node) → member sibling)
    {combinator : Combinator} {node candidate : Node} (inside : member node)
    (listed : candidate ∈ view.related combinator node) : member candidate := by
  cases combinator with
  | child => exact parent_mem inside (by simpa [related] using listed)
  | twin =>
    unfold related at listed
    simp only at listed
    split at listed
    · next above place up index =>
      rw [Option.mem_toList] at listed
      apply earlier_mem inside up
      rw [index]
      exact mem_take_iff_getElem?.mpr ⟨place, Nat.lt_succ_self place, listed⟩
    · cases listed
  | sibling =>
    rw [related_eq_previousSiblings, previousSiblings] at listed
    split at listed
    · cases listed
    · next above up =>
      rw [List.mem_reverse] at listed
      exact earlier_mem inside up listed
  | descendant => exact ancestor_mem parent_mem inside listed

end Closed

/-! ## Keys -/

/-- Handles of which a view says the same, up to keys. -/
structure Agree (view : TreeView Node) (left right : Node) : Prop where
  kind : view.kind left = view.kind right
  index : view.index left = view.index right
  parent : (view.parent left).map view.key = (view.parent right).map view.key
  children : (view.children left).map view.key = (view.children right).map view.key

/-- The members are closed under parents and children, and their keys tell the nodes
apart. -/
structure Keyed (view : TreeView Node) (member : Node → Prop) : Prop where
  parent_mem : ∀ {node above : Node}, member node → view.parent node = some above → member above
  child_mem : ∀ {node below : Node}, member node → below ∈ view.children node → member below
  agree : ∀ {left right : Node}, member left → member right → view.key left = view.key right →
    view.Agree left right

/-- Pairwise distinct keys tell the nodes apart. -/
theorem Keyed.of_distinct {view : TreeView Node} {member : Node → Prop}
    (parent_mem : ∀ {node above : Node}, member node → view.parent node = some above →
      member above)
    (child_mem : ∀ {node below : Node}, member node → below ∈ view.children node → member below)
    (distinct : ∀ {left right : Node}, member left → member right →
      view.key left = view.key right → left = right) : view.Keyed member := by
  refine ⟨parent_mem, child_mem, ?_⟩
  intro left right first second same
  obtain rfl := distinct first second same
  exact ⟨rfl, rfl, rfl, rfl⟩

namespace Keyed

variable {view : TreeView Node} {member : Node → Prop} (keyed : view.Keyed member)
include keyed

/-- Handles on one node have no parent, or parents with the same key. -/
theorem parents {left right : Node} (first : member left) (second : member right)
    (same : view.key left = view.key right) :
    (view.parent left = none ∧ view.parent right = none) ∨
      ∃ above upper, view.parent left = some above ∧ view.parent right = some upper ∧
        member above ∧ member upper ∧ view.key above = view.key upper := by
  have agree := (keyed.agree first second same).parent
  cases up : view.parent left with
  | none =>
    cases other : view.parent right with
    | none => exact .inl ⟨rfl, rfl⟩
    | some upper => simp [up, other] at agree
  | some above =>
    cases other : view.parent right with
    | none => simp [up, other] at agree
    | some upper =>
      rw [up, other, Option.map_some, Option.map_some, Option.some.injEq] at agree
      exact .inr ⟨above, upper, rfl, rfl, keyed.parent_mem first up,
        keyed.parent_mem second other, agree⟩

theorem map_key_ancestors {left right : Node} (first : member left) (second : member right)
    (same : view.key left = view.key right) :
    (view.ancestors left).map view.key = (view.ancestors right).map view.key := by
  induction size : view.height left using Nat.strongRecOn generalizing left right with
  | ind size ih =>
    rcases keyed.parents first second same with
      ⟨root, otherRoot⟩ | ⟨above, upper, up, otherUp, inside, otherInside, sameAbove⟩
    · rw [view.ancestors_of_root root, view.ancestors_of_root otherRoot]
    · have lower := view.height_parent up
      have further := ih (view.height above) (by omega) inside otherInside sameAbove rfl
      rw [view.ancestors_of_parent up, view.ancestors_of_parent otherUp, List.map_cons,
        List.map_cons, sameAbove, further]

/-- The candidates of a member are members. -/
theorem related_mem {combinator : Combinator} {node candidate : Node} (inside : member node)
    (listed : candidate ∈ view.related combinator node) : member candidate :=
  TreeView.related_mem keyed.parent_mem
    (fun inside up listed =>
      keyed.child_mem (keyed.parent_mem inside up) (List.mem_of_mem_take listed))
    inside listed

/-- The nodes under a member are members. -/
theorem walk_mem {node : Node} (inside : member node) (distance : Nat) :
    ∀ entry ∈ view.walk node distance, member entry.1 := by
  induction size : view.depth node using Nat.strongRecOn generalizing node distance with
  | ind size ih =>
    intro entry listed
    rw [view.walk_eq, List.mem_cons, List.mem_flatMap] at listed
    rcases listed with rfl | ⟨below, child, further⟩
    · exact inside
    · have lower := view.depth_child child
      exact ih (view.depth below) (by omega) (keyed.child_mem inside child) (distance + 1) rfl
        entry further

/-- **The candidates of handles on one node are handles on the same nodes.** -/
theorem map_key_related (combinator : Combinator) {left right : Node} (first : member left)
    (second : member right) (same : view.key left = view.key right) :
    (view.related combinator left).map view.key =
      (view.related combinator right).map view.key := by
  have index := (keyed.agree first second same).index
  cases combinator with
  | descendant => exact keyed.map_key_ancestors first second same
  | child =>
    rcases keyed.parents first second same with
      ⟨root, otherRoot⟩ | ⟨above, upper, up, otherUp, _, _, sameAbove⟩
    · simp [related, root, otherRoot]
    · simp [related, up, otherUp, sameAbove]
  | twin =>
    rcases keyed.parents first second same with
      ⟨root, otherRoot⟩ | ⟨above, upper, up, otherUp, inside, otherInside, sameAbove⟩
    · simp [related, root, otherRoot]
    · have children := (keyed.agree inside otherInside sameAbove).children
      simp only [related, up, otherUp, index]
      cases view.index right with
      | zero => rfl
      | succ place =>
        have entry := congrArg (·[place]?) children
        simp only [List.getElem?_map] at entry
        cases found : (view.children above)[place]? <;>
          cases other : (view.children upper)[place]? <;> simp_all
  | sibling =>
    rcases keyed.parents first second same with
      ⟨root, otherRoot⟩ | ⟨above, upper, up, otherUp, inside, otherInside, sameAbove⟩
    · simp [related, previousSiblings, root, otherRoot]
    · have children := (keyed.agree inside otherInside sameAbove).children
      simp only [related, previousSiblings, up, otherUp, index, List.map_reverse, List.map_take,
        children]

end Keyed

/-! ## Links -/

/-- Whether a node stands at a place among the children of another one. -/
def ListsAt (view : TreeView Node) (above : Node) (place : Nat) (child : Node) : Prop :=
  ((view.children above).map view.key)[place]? = some (view.key child)

theorem listsAt_iff {view : TreeView Node} {above left : Node} {place : Nat} :
    view.ListsAt above place left ↔
      ∃ child, (view.children above)[place]? = some child ∧ view.key child = view.key left := by
  rw [ListsAt, List.getElem?_map, Option.map_eq_some_iff]

/-- A node stands at its place among the children of its parent, and the children of a
node know their parent and their places. -/
structure WellFormed (view : TreeView Node) (member : Node → Prop) : Prop
    extends Keyed view member where
  listed : ∀ {node above : Node}, member node → view.parent node = some above →
    view.ListsAt above (view.index node) node
  parent_of_child : ∀ {above child : Node} {place : Nat}, member above →
    (view.children above)[place]? = some child →
      (view.parent child).map view.key = some (view.key above)
  index_of_child : ∀ {above child : Node} {place : Nat}, member above →
    (view.children above)[place]? = some child → view.index child = place

/-! ## Relations between nodes -/

section Relations

variable (view : TreeView Node) (member : Node → Prop)

/-- Whether a node is listed among the children of another one. -/
def IsParent (above node : Node) : Prop :=
  member above ∧ ∃ place, view.ListsAt above place node

/-- Whether a node stands on the left of a combinator, given the node on its right. -/
def Stands : Combinator → Node → Node → Prop
  | .child, left, right => view.IsParent member left right
  | .twin, left, right =>
    ∃ above place, member above ∧ view.ListsAt above place left ∧
      view.ListsAt above (place + 1) right
  | .sibling, left, right =>
    ∃ above before place, member above ∧ before < place ∧ view.ListsAt above before left ∧
      view.ListsAt above place right
  | .descendant, left, right => Relation.TransGen (view.IsParent member) left right

end Relations

namespace WellFormed

variable {view : TreeView Node} {member : Node → Prop} (tree : view.WellFormed member)
include tree

/-- A node that is listed at a place knows the place and has the listing node for its
parent. -/
theorem parent_of_listsAt {above node : Node} {place : Nat} (inside : member above)
    (nodeInside : member node) (listed : view.ListsAt above place node) :
    view.index node = place ∧
      ∃ parent, view.parent node = some parent ∧ view.key parent = view.key above := by
  obtain ⟨child, found, same⟩ := listsAt_iff.mp listed
  have childInside := tree.child_mem inside (List.mem_of_getElem? found)
  have agree := tree.agree childInside nodeInside same
  refine ⟨?_, ?_⟩
  · rw [← agree.index]
    exact tree.index_of_child inside found
  · have parent := tree.parent_of_child inside found
    rw [agree.parent, Option.map_eq_some_iff] at parent
    exact parent

/-- Handles on one node list the same children. -/
theorem listsAt_congr {above upper node : Node} {place : Nat} (inside : member above)
    (otherInside : member upper) (same : view.key above = view.key upper)
    (listed : view.ListsAt above place node) : view.ListsAt upper place node := by
  rw [ListsAt, ← (tree.agree inside otherInside same).children]
  exact listed

theorem isParent_iff {above node : Node} (inside : member above) (nodeInside : member node) :
    view.IsParent member above node ↔
      ∃ parent, view.parent node = some parent ∧ view.key parent = view.key above := by
  constructor
  · rintro ⟨_, place, listed⟩
    exact (tree.parent_of_listsAt inside nodeInside listed).2
  · rintro ⟨parent, up, same⟩
    exact ⟨inside, view.index node, tree.listsAt_congr (tree.parent_mem nodeInside up) inside same
      (tree.listed nodeInside up)⟩

/-! ### Ancestors -/

theorem exists_ancestor {above node : Node} (inside : member node)
    (nested : Relation.TransGen (view.IsParent member) above node) :
    ∃ candidate ∈ view.ancestors node, view.key candidate = view.key above := by
  induction nested with
  | single link =>
    obtain ⟨parent, up, same⟩ := (tree.isParent_iff link.1 inside).mp link
    rw [view.ancestors_of_parent up]
    exact ⟨parent, List.mem_cons_self, same⟩
  | @tail middle node _ link ih =>
    obtain ⟨parent, up, same⟩ := (tree.isParent_iff link.1 inside).mp link
    obtain ⟨candidate, listed, found⟩ := ih link.1
    have keys := tree.map_key_ancestors (tree.parent_mem inside up) link.1 same
    have key : view.key candidate ∈ (view.ancestors parent).map view.key := by
      rw [keys]
      exact List.mem_map_of_mem listed
    obtain ⟨other, otherListed, otherKey⟩ := List.mem_map.mp key
    rw [view.ancestors_of_parent up]
    exact ⟨other, List.mem_cons_of_mem _ otherListed, otherKey.trans found⟩

theorem nested_of_ancestor {above node candidate : Node} (aboveInside : member above)
    (inside : member node) (listed : candidate ∈ view.ancestors node)
    (same : view.key candidate = view.key above) :
    Relation.TransGen (view.IsParent member) above node := by
  induction size : view.height node using Nat.strongRecOn generalizing node with
  | ind size ih =>
    cases up : view.parent node with
    | none =>
      rw [view.ancestors_of_root up] at listed
      cases listed
    | some parent =>
      have parentInside := tree.parent_mem inside up
      rw [view.ancestors_of_parent up] at listed
      rcases List.mem_cons.mp listed with rfl | further
      · exact .single ((tree.isParent_iff aboveInside inside).mpr ⟨candidate, up, same⟩)
      · have lower := view.height_parent up
        have nested := ih (view.height parent) (by omega) parentInside further rfl
        exact .tail nested ((tree.isParent_iff parentInside inside).mpr ⟨parent, up, rfl⟩)

/-! ### Siblings -/

/-- Two nodes stand under one parent exactly if the parent of the second one lists the
first one, too. -/
theorem exists_listsAt_iff {left node : Node} (inside : member node) (before place : Nat) :
    (∃ above, member above ∧ view.ListsAt above before left ∧ view.ListsAt above place node) ↔
      ∃ parent, view.parent node = some parent ∧ view.index node = place ∧
        view.ListsAt parent before left := by
  constructor
  · rintro ⟨above, aboveInside, first, second⟩
    obtain ⟨index, parent, up, same⟩ := tree.parent_of_listsAt aboveInside inside second
    refine ⟨parent, up, index, ?_⟩
    exact tree.listsAt_congr aboveInside (tree.parent_mem inside up) same.symm first
  · rintro ⟨parent, up, rfl, first⟩
    exact ⟨parent, tree.parent_mem inside up, first, tree.listed inside up⟩

theorem twin_iff {left node : Node} (inside : member node) :
    view.Stands member .twin left node ↔
      ∃ candidate ∈ view.related .twin node, view.key candidate = view.key left := by
  have split : view.Stands member .twin left node ↔
      ∃ place parent, view.parent node = some parent ∧ view.index node = place + 1 ∧
        view.ListsAt parent place left := by
    constructor
    · rintro ⟨above, place, listing⟩
      exact ⟨place, (tree.exists_listsAt_iff inside place (place + 1)).mp ⟨above, listing⟩⟩
    · rintro ⟨place, linked⟩
      obtain ⟨above, listing⟩ := (tree.exists_listsAt_iff inside place (place + 1)).mpr linked
      exact ⟨above, place, listing⟩
  rw [split]
  constructor
  · rintro ⟨place, parent, up, index, listed⟩
    obtain ⟨child, found, same⟩ := listsAt_iff.mp listed
    exact ⟨child, by simp [related, up, index, found], same⟩
  · rintro ⟨candidate, listed, same⟩
    unfold related at listed
    simp only at listed
    split at listed
    · next parent place up index =>
      rw [Option.mem_toList] at listed
      exact ⟨place, parent, up, index, listsAt_iff.mpr ⟨candidate, listed, same⟩⟩
    · cases listed

theorem sibling_iff {left node : Node} (inside : member node) :
    view.Stands member .sibling left node ↔
      ∃ candidate ∈ view.related .sibling node, view.key candidate = view.key left := by
  have split : view.Stands member .sibling left node ↔
      ∃ before parent, view.parent node = some parent ∧ before < view.index node ∧
        view.ListsAt parent before left := by
    constructor
    · rintro ⟨above, before, place, aboveInside, earlier, listing⟩
      obtain ⟨parent, up, rfl, first⟩ :=
        (tree.exists_listsAt_iff inside before place).mp ⟨above, aboveInside, listing⟩
      exact ⟨before, parent, up, earlier, first⟩
    · rintro ⟨before, parent, up, earlier, first⟩
      obtain ⟨above, aboveInside, listing⟩ :=
        (tree.exists_listsAt_iff inside before _).mpr ⟨parent, up, rfl, first⟩
      exact ⟨above, before, _, aboveInside, earlier, listing⟩
  rw [split]
  constructor
  · rintro ⟨before, parent, up, earlier, listed⟩
    obtain ⟨child, found, same⟩ := listsAt_iff.mp listed
    refine ⟨child, ?_, same⟩
    simp only [related, previousSiblings, up, List.mem_reverse]
    exact mem_take_iff_getElem?.mpr ⟨before, earlier, found⟩
  · rintro ⟨candidate, listed, same⟩
    rw [related_eq_previousSiblings, previousSiblings] at listed
    split at listed
    · cases listed
    · next parent up =>
      rw [List.mem_reverse] at listed
      obtain ⟨before, earlier, found⟩ := mem_take_iff_getElem?.mp listed
      exact ⟨before, parent, up, earlier, listsAt_iff.mpr ⟨candidate, found, same⟩⟩

/-- **The candidates of a combinator are the nodes that stand on its left.** -/
theorem stands_iff {combinator : Combinator} {left node : Node} (leftInside : member left)
    (inside : member node) :
    view.Stands member combinator left node ↔
      ∃ candidate ∈ view.related combinator node, view.key candidate = view.key left := by
  cases combinator with
  | child => simpa [Stands, related] using tree.isParent_iff leftInside inside
  | twin => exact tree.twin_iff inside
  | sibling => exact tree.sibling_iff inside
  | descendant =>
    constructor
    · exact tree.exists_ancestor inside
    · rintro ⟨candidate, listed, same⟩
      exact tree.nested_of_ancestor leftInside inside listed same

end WellFormed

end TreeView

/-! ## A small tree -/

/-- A block over a comment and a string. -/
def Forest.block : Forest :=
  (Forest.empty.plant
    (.node "block" 0 0 [.node "comment" 0 0 [], .node "string" 0 0 []])).forest

theorem Forest.wellFormed_block : Forest.block.view.WellFormed (· < 3) := by
  have up : ∀ label, label < 3 → ∀ above ∈ block.parent label,
      above < 3 ∧ (block.children above)[block.index label]? = some label := by
    decide
  have down : ∀ label, label < 3 → ∀ entry ∈ (block.children label).zipIdx,
      block.parent entry.1 = some label ∧ block.index entry.1 = entry.2 := by
    decide
  refine ⟨.of_distinct ?_ ?_ ?_, ?_, ?_, ?_⟩
  · exact fun inside above => (up _ inside _ above).1
  · exact fun inside listed => Nat.lt_trans (block.child_lt listed) inside
  · exact fun _ _ same => Int.ofNat.inj same
  · intro label above inside parent
    exact TreeView.listsAt_iff.mpr ⟨label, (up label inside above parent).2, rfl⟩
  · intro above child place inside found
    have parent := (down above inside (child, place) (List.mem_zipIdx_iff_getElem?.mpr found)).1
    exact congrArg (Option.map block.view.key) parent
  · intro above child place inside found
    exact (down above inside (child, place) (List.mem_zipIdx_iff_getElem?.mpr found)).2

end TreeStyle
