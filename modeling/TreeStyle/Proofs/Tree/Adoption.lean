import TreeStyle.Proofs.Tree.WellFormed

/-!
# Forests that grow

A construction adds a node to a forest and lets it adopt some of the roots.  Apart from
that it leaves the forest as it is: a node keeps its kind, its children, and the parent
it has (`Forest.Grows`).  So two nodes of one tree stay in one tree, and a tree none of
whose nodes is given a parent stays the same to every reader.

A construction can fail half way.  The node that was not completed lists children which
it did not adopt, so in general a node cannot be relied on to be the parent of all its
children.  What can be relied on is that the siblings before a node were adopted before
it (`Forest.Linked`).

Main statements: `Forest.grows_construct`, `Forest.Linked.construct`,
`Forest.Grows.root_eq` and `Forest.Linked.related_inTreeOf`.
-/

namespace TreeStyle

set_option autoImplicit false

/-! ## Adoption -/

/-- A node with a parent, at a place among its children. -/
def ForestNode.under (node : ForestNode) (label place : Nat) : ForestNode :=
  { node with parent := some label, index := place }

/-- A child that has a parent ends the adoption. -/
theorem adoptAll_of_owned {nodes : Array ForestNode} {label index first : Nat} {rest : List Nat}
    {node : ForestNode} (here : nodes[first]? = some node) (owned : node.parent.isSome) :
    (adoptAll nodes label index (first :: rest)).1 = nodes := by
  simp [adoptAll, here, owned]

/-- A root is adopted, and the adoption goes on with the next child. -/
theorem adoptAll_of_root {nodes : Array ForestNode} {label index first : Nat} {rest : List Nat}
    {node : ForestNode} (here : nodes[first]? = some node) (root : node.parent = none) :
    adoptAll nodes label index (first :: rest) =
      adoptAll (nodes.setIfInBounds first (node.under label index)) label (index + 1) rest := by
  simp [adoptAll, here, root, ForestNode.under]

/-- A node that is not listed is left as it is. -/
theorem adoptAll_of_not_mem {nodes : Array ForestNode} (label index : Nat) {children : List Nat}
    {child : Nat} (other : child ∉ children) :
    (adoptAll nodes label index children).1[child]? = nodes[child]? := by
  induction children generalizing nodes index with
  | nil => rfl
  | cons first rest ih =>
    obtain ⟨different, later⟩ := not_or.mp (mt List.mem_cons.mpr other)
    unfold adoptAll
    split
    · exact ih _ later
    · split
      · rfl
      · rw [ih _ later, Array.getElem?_setIfInBounds_ne (Ne.symm different)]

/-- A node that has a parent is left as it is. -/
theorem adoptAll_keeps {nodes : Array ForestNode} (label index : Nat) (children : List Nat)
    (known : ∀ child ∈ children, child < nodes.size) {child : Nat} {node : ForestNode}
    (found : nodes[child]? = some node) (owned : node.parent.isSome) :
    (adoptAll nodes label index children).1[child]? = some node := by
  induction children generalizing nodes index with
  | nil => exact found
  | cons first rest ih =>
    have bound := known first List.mem_cons_self
    have here := Array.getElem?_eq_getElem bound
    cases parent : nodes[first].parent with
    | some above =>
      rw [adoptAll_of_owned here (by rw [parent]; rfl)]
      exact found
    | none =>
      rw [adoptAll_of_root here parent]
      apply ih
      · intro other member
        rw [Array.size_setIfInBounds]
        exact known other (List.mem_cons_of_mem _ member)
      · rw [Array.getElem?_setIfInBounds_ne, found]
        rintro rfl
        obtain rfl := Option.some.inj (here.symm.trans found)
        rw [parent] at owned
        cases owned

/-- A root that a node adopted at a place of its list, behind children that it adopted as
well. -/
structure IsAdopted (nodes after : Array ForestNode) (label index : Nat) (children : List Nat)
    (child : Nat) (node : ForestNode) (place : Nat) : Prop where
  orphan : ∃ orphan, nodes[child]? = some orphan ∧ orphan.parent = none ∧
    node = orphan.under label (index + place)
  listed : children[place]? = some child
  earlier : ∀ before sibling, before < place → children[before]? = some sibling →
    ∃ adopted, after[sibling]? = some adopted ∧ adopted.parent = some label

/-- **A node is as it was, or it was adopted.** -/
theorem adoptAll_getElem? {nodes : Array ForestNode} {label index : Nat} {children : List Nat}
    (known : ∀ child ∈ children, child < nodes.size) {child : Nat} {node : ForestNode}
    (found : (adoptAll nodes label index children).1[child]? = some node) :
    nodes[child]? = some node ∨ ∃ place,
      IsAdopted nodes (adoptAll nodes label index children).1 label index children child node
        place := by
  induction children generalizing nodes index with
  | nil => exact .inl found
  | cons first rest ih =>
    have bound := known first List.mem_cons_self
    have here := Array.getElem?_eq_getElem bound
    cases parent : nodes[first].parent with
    | some above =>
      rw [adoptAll_of_owned here (by rw [parent]; rfl)] at found
      exact .inl found
    | none =>
      rw [adoptAll_of_root here parent] at found ⊢
      have knownLater : ∀ other ∈ rest,
          other < (nodes.setIfInBounds first (nodes[first].under label index)).size := by
        intro other member
        rw [Array.size_setIfInBounds]
        exact known other (List.mem_cons_of_mem _ member)
      have adopted : (nodes.setIfInBounds first (nodes[first].under label index))[first]? =
          some (nodes[first].under label index) :=
        Array.getElem?_setIfInBounds_self_of_lt bound
      have kept := adoptAll_keeps label (index + 1) rest knownLater adopted rfl
      rcases ih knownLater found with same | ⟨place, ⟨orphan, before, root, rfl⟩, listed, earlier⟩
      · by_cases equal : first = child
        · subst equal
          rw [adopted, Option.some.injEq] at same
          refine .inr ⟨0, ⟨_, here, parent, same.symm⟩, rfl, ?_⟩
          exact fun before _ less => absurd less (Nat.not_lt_zero before)
        · rw [Array.getElem?_setIfInBounds_ne equal] at same
          exact .inl same
      · have different : first ≠ child := by
          rintro rfl
          rw [adopted, Option.some.injEq] at before
          rw [← before] at root
          cases root
        rw [Array.getElem?_setIfInBounds_ne different] at before
        refine .inr ⟨place + 1, ⟨orphan, before, root, ?_⟩, listed, ?_⟩
        · rw [Nat.add_assoc, Nat.add_comm 1]
        · intro other sibling less found
          cases other with
          | zero =>
            obtain rfl : first = sibling := Option.some.inj found
            exact ⟨_, kept, rfl⟩
          | succ other => exact earlier other sibling (Nat.lt_of_succ_lt_succ less) found

/-! ## Forests before and after -/

namespace Forest

/-- A later state of a forest: nodes have been added, and roots have been given parents. -/
structure Grows (before after : Forest) : Prop where
  size_le : before.size ≤ after.size
  kind : ∀ {label : Nat}, label < before.size → after.kind label = before.kind label
  children : ∀ {label : Nat}, label < before.size → after.children label = before.children label
  parent : ∀ {label above : Nat}, before.parent label = some above →
    after.parent label = some above
  index : ∀ {label above : Nat}, before.parent label = some above →
    after.index label = before.index label

/-- Whether a node had no parent and has one later. -/
def GivenParent (before after : Forest) (label : Nat) : Prop :=
  before.parent label = none ∧ (after.parent label).isSome

/-- Parents are nodes, and the siblings before a node have the same parent. -/
structure Linked (forest : Forest) : Prop where
  parent_lt : ∀ {label above : Nat}, forest.parent label = some above → above < forest.size
  earlier : ∀ {label above sibling : Nat}, forest.parent label = some above →
    sibling ∈ (forest.children above).take (forest.index label) →
      forest.parent sibling = some above

theorem linked_empty : Linked empty := by
  constructor
  · intro label above up
    cases up
  · intro label above sibling up
    cases up

theorem Grows.refl (forest : Forest) : forest.Grows forest :=
  ⟨Nat.le_refl _, fun _ => rfl, fun _ => rfl, fun up => up, fun _ => rfl⟩

theorem exists_node (forest : Forest) {label : Nat} (known : label < forest.size) :
    ∃ node, forest.node? label = some node :=
  ⟨_, Array.getElem?_eq_getElem known⟩

/-! ## Construction -/

section Construct

variable (forest : Forest) (kind : String) (children : List Nat) (startByte endByte : Int)

/-- The children that exist. -/
def known : List Nat := children.filter (· < forest.size)

/-- The node that is constructed. -/
def constructed : ForestNode := { kind, children := forest.known children, startByte, endByte }

/-- A construction adds the node and lets it adopt its children. -/
theorem nodes_construct :
    (forest.construct kind children startByte endByte).forest.nodes =
      (adoptAll (forest.nodes.push (forest.constructed kind children startByte endByte))
        forest.size 0 (forest.known children)).1 := rfl

theorem lt_of_mem_known {child : Nat} (member : child ∈ forest.known children) :
    child < forest.size :=
  of_decide_eq_true (List.mem_filter.mp member).2

theorem lt_size_push {child : Nat} (member : child ∈ forest.known children) (node : ForestNode) :
    child < (forest.nodes.push node).size := by
  rw [Array.size_push]
  exact Nat.lt_succ_of_lt (forest.lt_of_mem_known children member)

/-- A node is found as before when another one has been added. -/
theorem getElem?_push {label : Nat} (bound : label < forest.size) (new : ForestNode) :
    (forest.nodes.push new)[label]? = forest.node? label := by
  rw [Array.getElem?_push_lt bound, ← Array.getElem?_eq_getElem bound]
  rfl

/-- The constructed node is not adopted itself. -/
theorem node?_construct_self :
    (forest.construct kind children startByte endByte).forest.node? forest.size =
      some (forest.constructed kind children startByte endByte) := by
  have unlisted : forest.size ∉ forest.known children := fun member =>
    absurd (forest.lt_of_mem_known children member) (Nat.lt_irrefl forest.size)
  rw [node?, nodes_construct, adoptAll_of_not_mem _ _ unlisted, size, Array.getElem?_push_size]

/-- What a construction makes of a node: the node as it was, or adopted at a place behind
children that were adopted as well. -/
inductive Outcome (after : Forest) (node : ForestNode) : ForestNode → Prop where
  | kept : Outcome after node node
  | adopted (place : Nat) (root : node.parent = none)
      (earlier : ∀ sibling ∈ (forest.known children).take place,
        after.parent sibling = some forest.size) :
      Outcome after node (node.under forest.size place)

/-- **A node of the forest is as it was, or the constructed node adopted it.** -/
theorem exists_outcome {label : Nat} (bound : label < forest.size) :
    ∃ node after, forest.node? label = some node ∧
      (forest.construct kind children startByte endByte).forest.node? label = some after ∧
      forest.Outcome children (forest.construct kind children startByte endByte).forest node
        after := by
  obtain ⟨node, found⟩ := forest.exists_node bound
  obtain ⟨after, later⟩ := exists_node
    (forest.construct kind children startByte endByte).forest
    (by rw [size_construct]; exact Nat.lt_succ_of_lt bound)
  refine ⟨node, after, found, later, ?_⟩
  rw [node?, nodes_construct] at later
  rcases adoptAll_getElem? (fun _ member => forest.lt_size_push children member _) later with
    same | ⟨place, ⟨orphan, before, root, rfl⟩, _, earlier⟩
  · rw [forest.getElem?_push bound, found, Option.some.injEq] at same
    subst same
    exact .kept
  · rw [forest.getElem?_push bound, found, Option.some.injEq] at before
    subst before
    rw [Nat.zero_add]
    refine .adopted place root ?_
    intro sibling member
    obtain ⟨position, less, siblingListed⟩ := TreeView.mem_take_iff_getElem?.mp member
    obtain ⟨adopted, siblingFound, parent⟩ := earlier position sibling less siblingListed
    rw [Forest.parent, node?, nodes_construct, siblingFound]
    exact parent

/-- **A construction lets a forest grow.** -/
theorem grows_construct :
    forest.Grows (forest.construct kind children startByte endByte).forest := by
  have outcome {label : Nat} (bound : label < forest.size) :=
    forest.exists_outcome kind children startByte endByte bound
  constructor
  · rw [size_construct]
    exact Nat.le_succ forest.size
  · intro label bound
    obtain ⟨node, after, found, later, outcome⟩ := outcome bound
    rw [Forest.kind, Forest.kind, found, later]
    cases outcome <;> rfl
  · intro label bound
    obtain ⟨node, after, found, later, outcome⟩ := outcome bound
    rw [Forest.children, Forest.children, found, later]
    cases outcome <;> rfl
  · intro label above up
    obtain ⟨node, after, found, later, outcome⟩ := outcome (forest.lt_parent up).2
    rw [Forest.parent, found, Option.bind_some] at up
    rw [Forest.parent, later, Option.bind_some]
    cases outcome with
    | kept => exact up
    | adopted place root => rw [root] at up; cases up
  · intro label above up
    obtain ⟨node, after, found, later, outcome⟩ := outcome (forest.lt_parent up).2
    rw [Forest.parent, found, Option.bind_some] at up
    rw [Forest.index, Forest.index, found, later]
    cases outcome with
    | kept => rfl
    | adopted place root => rw [root] at up; cases up

variable {forest kind children startByte endByte}

/-- The constructed node has no parent, so what has one was there before. -/
theorem lt_of_parent_construct {label above : Nat}
    (up : (forest.construct kind children startByte endByte).forest.parent label = some above) :
    label < forest.size := by
  have less := (lt_parent _ up).2
  rw [size_construct] at less
  rcases Nat.lt_succ_iff_lt_or_eq.mp less with old | rfl
  · exact old
  · rw [Forest.parent, node?_construct_self] at up
    cases up

/-- A parent is one that the node had before, or the constructed node. -/
theorem parent_construct {label above : Nat}
    (up : (forest.construct kind children startByte endByte).forest.parent label = some above) :
    forest.parent label = some above ∨ above = forest.size ∧
      ∀ sibling ∈ (forest.known children).take
          ((forest.construct kind children startByte endByte).forest.index label),
        (forest.construct kind children startByte endByte).forest.parent sibling =
          some forest.size := by
  obtain ⟨node, after, found, later, outcome⟩ :=
    forest.exists_outcome kind children startByte endByte (lt_of_parent_construct up)
  rw [Forest.parent, later, Option.bind_some] at up
  cases outcome with
  | kept =>
    left
    rw [Forest.parent, found, Option.bind_some]
    exact up
  | adopted place root earlier =>
    right
    refine ⟨(Option.some.inj up).symm, ?_⟩
    rw [Forest.index, later]
    exact earlier

/-- **A construction links the nodes that it adopts.** -/
theorem Linked.construct (linked : forest.Linked) :
    (forest.construct kind children startByte endByte).forest.Linked := by
  have grows := forest.grows_construct kind children startByte endByte
  constructor
  · intro label above up
    rw [size_construct]
    rcases parent_construct up with old | ⟨rfl, _⟩
    · exact Nat.lt_succ_of_lt (linked.parent_lt old)
    · exact Nat.lt_succ_self forest.size
  · intro label above sibling up member
    rcases parent_construct up with old | ⟨rfl, earlier⟩
    · rw [grows.children (linked.parent_lt old), grows.index old] at member
      exact grows.parent (linked.earlier old member)
    · rw [Forest.children, node?_construct_self] at member
      exact earlier sibling member

end Construct

/-! ## Trees of a forest -/

/-- The root of the tree in which a node stands. -/
def root (forest : Forest) (label : Nat) : Nat := (forest.view.ancestors label).getLastD label

theorem root_of_root {forest : Forest} {label : Nat} (alone : forest.parent label = none) :
    forest.root label = label := by
  rw [root, forest.view.ancestors_of_root alone, List.getLastD_nil]

/-- A node stands in the tree of its parent. -/
theorem root_of_parent {forest : Forest} {label above : Nat}
    (up : forest.parent label = some above) : forest.root label = forest.root above := by
  rw [root, forest.view.ancestors_of_parent up, List.getLastD_cons, root]

/-- **When a forest grows, the nodes of a tree stay together.** -/
theorem Grows.root_eq {before after : Forest} (grows : before.Grows after) (label : Nat) :
    after.root label = after.root (before.root label) := by
  induction size : before.view.height label using Nat.strongRecOn generalizing label with
  | ind size ih =>
    cases up : before.parent label with
    | none => rw [root_of_root up]
    | some above =>
      have lower := before.view.height_parent up
      rw [root_of_parent up, root_of_parent (grows.parent up)]
      exact ih (before.view.height above) (by omega) above rfl

theorem Grows.root_congr {before after : Forest} (grows : before.Grows after) {label other : Nat}
    (same : before.root label = before.root other) : after.root label = after.root other := by
  rw [grows.root_eq label, same, ← grows.root_eq other]

/-- Whether a node stands in the tree of another one. -/
def InTreeOf (forest : Forest) (node label : Nat) : Prop :=
  label < forest.size ∧ forest.root label = forest.root node

/-- The parents and the siblings before the nodes of a tree stand in the tree. -/
theorem Linked.related_inTreeOf {forest : Forest} (linked : forest.Linked) {node label : Nat}
    {combinator : Combinator} {candidate : Nat} (inside : forest.InTreeOf node label)
    (listed : candidate ∈ forest.view.related combinator label) :
    forest.InTreeOf node candidate := by
  refine TreeView.related_mem ?_ ?_ inside listed
  · intro label above inside up
    exact ⟨linked.parent_lt up, (root_of_parent up).symm.trans inside.2⟩
  · intro label above sibling inside up member
    have sibling_up := linked.earlier up member
    refine ⟨(forest.lt_parent sibling_up).2, ?_⟩
    rw [root_of_parent sibling_up, ← root_of_parent up]
    exact inside.2

end Forest

end TreeStyle
