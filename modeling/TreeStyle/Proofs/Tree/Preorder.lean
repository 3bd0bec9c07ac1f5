import TreeStyle.Proofs.Tree.Positions

/-!
# Pre-order

The positions under a node are listed in pre-order: the node itself first, and then, from
the first child to the last, what is under the child.  This is the lexicographic order of
the positions, so each of them is listed once.

A walk visits the nodes at these positions, each with the length of its position for the
distance.  In a well-formed tree no node stands at two positions under another one, even
if the tree goes on above that one.

Main statements: `TreeView.walk_positions`, `TreeView.positions_sorted` and
`TreeView.WellFormed.position_unique`.
-/

namespace TreeStyle

set_option autoImplicit false

/-- Numbers grow along a numbered list. -/
theorem pairwise_zipIdx {Item : Type} (items : List Item) :
    items.zipIdx.Pairwise fun first second => first.2 < second.2 := by
  rw [← List.pairwise_map (R := fun first second => first < second), List.zipIdx_map_snd]
  exact List.pairwise_lt_range'

namespace TreeView

variable {Node : Type}

section Positions

variable (view : TreeView Node)

/-- The positions under a node, itself included, in pre-order. -/
def positions (node : Node) : List (List Nat) :=
  [] :: (view.children node).attach.zipIdx.flatMap fun entry =>
    (positions entry.1.val).map (entry.2 :: ·)
termination_by view.depth node
decreasing_by exact view.depth_child entry.1.property

theorem positions_eq (node : Node) :
    view.positions node =
      [] :: (view.children node).zipIdx.flatMap fun entry =>
        (view.positions entry.1).map (entry.2 :: ·) := by
  rw [positions]
  congr 1
  have numbered : (view.children node).zipIdx =
      (view.children node).attach.zipIdx.map fun entry => (entry.1.val, entry.2) := by
    conv_lhs => rw [← List.attach_map_subtype_val (view.children node), List.zipIdx_map]
    rfl
  rw [numbered, List.flatMap_map]

/-- The positions are those where there is a node. -/
theorem mem_positions_iff (node : Node) (path : List Nat) :
    path ∈ view.positions node ↔ (view.at? node path).isSome := by
  induction path generalizing node with
  | nil =>
    rw [positions_eq]
    exact iff_of_true List.mem_cons_self rfl
  | cons place path ih =>
    rw [positions_eq, at?_cons, List.mem_cons, List.mem_flatMap]
    constructor
    · rintro (none | ⟨⟨child, number⟩, listed, below⟩)
      · cases none
      · obtain ⟨further, member, same⟩ := List.mem_map.mp below
        obtain ⟨rfl, rfl⟩ := List.cons.inj same
        rw [List.mem_zipIdx_iff_getElem?.mp listed]
        exact (ih child).mp member
    · intro here
      cases found : (view.children node)[place]? with
      | none => rw [found] at here; cases here
      | some child =>
        rw [found] at here
        refine .inr ⟨(child, place), List.mem_zipIdx_iff_getElem?.mpr found, ?_⟩
        exact List.mem_map_of_mem ((ih child).mpr here)

/-- **Positions are listed in lexicographic order.** -/
theorem positions_sorted (node : Node) : (view.positions node).Pairwise (List.Lex (· < ·)) := by
  induction size : view.depth node using Nat.strongRecOn generalizing node with
  | ind size ih =>
    rw [positions_eq, List.pairwise_cons, List.pairwise_flatMap]
    refine ⟨?_, ?_, ?_⟩
    · intro path member
      obtain ⟨entry, _, below⟩ := List.mem_flatMap.mp member
      obtain ⟨further, _, rfl⟩ := List.mem_map.mp below
      exact .nil
    · rintro ⟨child, place⟩ member
      have found := List.mem_zipIdx_iff_getElem?.mp member
      have lower : view.depth child < view.depth node :=
        view.depth_child (List.mem_of_getElem? found)
      rw [List.pairwise_map]
      exact (ih (view.depth child) (by omega) child rfl).imp .cons
    · refine (pairwise_zipIdx (view.children node)).imp ?_
      intro first second less path member other otherMember
      obtain ⟨_, _, rfl⟩ := List.mem_map.mp member
      obtain ⟨_, _, rfl⟩ := List.mem_map.mp otherMember
      exact .rel less

/-- **A walk visits the nodes at the positions**, in their order. -/
theorem walk_positions (node : Node) (distance : Nat) :
    List.Forall₂ (fun path entry =>
        view.at? node path = some entry.1 ∧ entry.2 = distance + path.length)
      (view.positions node) (view.walk node distance) := by
  induction size : view.depth node using Nat.strongRecOn generalizing node distance with
  | ind size ih =>
    have numbered : (view.children node).flatMap (fun below => view.walk below (distance + 1)) =
        (view.children node).zipIdx.flatMap fun entry => view.walk entry.1 (distance + 1) := by
      conv_lhs => rw [← List.zipIdx_map_fst 0 (view.children node), List.flatMap_map]
    rw [positions_eq, walk_eq, numbered]
    refine .cons ⟨rfl, rfl⟩ (forall₂_flatMap (List.forall₂_same.mpr fun _ _ => rfl) ?_)
    rintro ⟨child, place⟩ listed _ rfl
    have found := List.mem_zipIdx_iff_getElem?.mp listed
    have lower : view.depth child < view.depth node :=
      view.depth_child (List.mem_of_getElem? found)
    rw [List.forall₂_map_left_iff]
    refine (ih (view.depth child) (by omega) child (distance + 1) rfl).imp ?_
    rintro path ⟨below, reached⟩ ⟨here, length⟩
    rw [at?_cons, found, List.length_cons]
    exact ⟨here, by omega⟩

end Positions

/-! ## One position for a node -/

namespace WellFormed

variable {view : TreeView Node} {member : Node → Prop} (tree : view.WellFormed member)
include tree

theorem at?_mem {root node : Node} {path : List Nat} (inside : member root)
    (here : view.at? root path = some node) : member node := by
  induction path generalizing root with
  | nil =>
    cases here
    exact inside
  | cons place path ih =>
    rw [at?_cons, Option.bind_eq_some_iff] at here
    obtain ⟨child, found, further⟩ := here
    exact ih (tree.child_mem inside (List.mem_of_getElem? found)) further

/-- A child has one ancestor more than its parent. -/
theorem length_ancestors_child {above child : Node} {place : Nat} (inside : member above)
    (found : (view.children above)[place]? = some child) :
    (view.ancestors child).length = (view.ancestors above).length + 1 := by
  have childInside := tree.child_mem inside (List.mem_of_getElem? found)
  obtain ⟨parent, up, same⟩ := Option.map_eq_some_iff.mp (tree.parent_of_child inside found)
  have keys := tree.map_key_ancestors (tree.parent_mem childInside up) inside same
  rw [view.ancestors_of_parent up, List.length_cons, ← List.length_map (f := view.key), keys,
    List.length_map]

/-- The length of a position is the number of ancestors that it adds. -/
theorem length_ancestors_at? {root node : Node} {path : List Nat} (inside : member root)
    (here : view.at? root path = some node) :
    (view.ancestors node).length = (view.ancestors root).length + path.length := by
  induction path using List.reverseRecOn generalizing node with
  | nil =>
    cases here
    rfl
  | append_singleton path place ih =>
    obtain ⟨above, front, found⟩ := at?_concat_eq_some_iff.mp here
    rw [tree.length_ancestors_child (tree.at?_mem inside front) found, ih front,
      List.length_append, List.length_singleton, Nat.add_assoc]

/-- **A node stands at one position** under a node of a well-formed tree. -/
theorem position_unique {root node image : Node} {path other : List Nat} (inside : member root)
    (here : view.at? root path = some node) (otherHere : view.at? root other = some image)
    (same : view.key node = view.key image) : path = other := by
  -- Positions of one node are of one length, so they are followed up side by side.
  have length : path.length = other.length := by
    have keys := congrArg List.length (tree.map_key_ancestors (tree.at?_mem inside here)
      (tree.at?_mem inside otherHere) same)
    rw [List.length_map, List.length_map, tree.length_ancestors_at? inside here,
      tree.length_ancestors_at? inside otherHere] at keys
    exact Nat.add_left_cancel keys
  induction path using List.reverseRecOn generalizing other node image with
  | nil => exact (List.eq_nil_of_length_eq_zero length.symm).symm
  | append_singleton path place ih =>
    rcases List.eq_nil_or_concat' other with rfl | ⟨front, otherPlace, rfl⟩
    · rw [List.length_append, List.length_singleton] at length
      cases length
    · have agree := tree.agree (tree.at?_mem inside here) (tree.at?_mem inside otherHere) same
      obtain ⟨above, aboveHere, found⟩ := at?_concat_eq_some_iff.mp here
      obtain ⟨upper, upperHere, otherFound⟩ := at?_concat_eq_some_iff.mp otherHere
      have aboveInside := tree.at?_mem inside aboveHere
      have upperInside := tree.at?_mem inside upperHere
      have places : place = otherPlace := by
        rw [← tree.index_of_child aboveInside found, agree.index,
          tree.index_of_child upperInside otherFound]
      have keys : view.key above = view.key upper := by
        have parents := agree.parent
        rw [tree.parent_of_child aboveInside found,
          tree.parent_of_child upperInside otherFound] at parents
        exact Option.some.inj parents
      have lengths : path.length = front.length := by simpa using length
      rw [ih aboveHere upperHere keys lengths, places]

/-- **A walk visits each node once.** -/
theorem nodup_walk {root : Node} (inside : member root) (distance : Nat) :
    ((view.walk root distance).map fun entry => view.key entry.1).Nodup := by
  rw [List.nodup_iff_pairwise_ne, List.pairwise_map]
  refine pairwise_of_forall₂ (view.walk_positions root distance) (view.positions_sorted root) ?_
  intro path other entry otherEntry here otherHere less same
  rw [tree.position_unique inside here.1 otherHere.1 same] at less
  exact List.lt_irrefl other less

end WellFormed

end TreeView

end TreeStyle
