import Mathlib.Logic.Relation
import TreeStyle.Proofs.Tree.Planting
import TreeStyle.Proofs.Tree.Traversal

/-!
# Heaps that constructors make

A construction adopts children from the left, up to the first one that has a parent by
then, be it one that it had before or the constructed node itself.  The children in front
of that one are adopted, each at its place, and nothing else is changed
(`Forest.exists_adopts`).

A heap is what calls of the constructor leave behind, whether they fail or not.  In every
heap a node is listed at its place by its parent, and what a completed node lists knows
the node and the place (`Heap.Consistent`).  This is all that readers of a tree rely on.

Main statements: `Heap.represents_trees` and `Forest.refused_construct`.
-/

namespace TreeStyle

set_option autoImplicit false

/-! ## Where adoption stops -/

/-- The children in front of the first one that has a parent when its turn comes.  An
adoption ends there as if they were all. -/
structure AreAdopted (nodes : Array ForestNode) (label index : Nat)
    (children accepted : List Nat) : Prop where
  distinct : accepted.Nodup
  orphans : ∀ child ∈ accepted, ∃ node, nodes[child]? = some node ∧ node.parent = none
  same : (adoptAll nodes label index children).1 = (adoptAll nodes label index accepted).1
  rest : accepted = children ∧ (adoptAll nodes label index children).2 = none ∨
    ∃ culprit later node, children = accepted ++ culprit :: later ∧
      (adoptAll nodes label index children).2 = some node ∧
      (adoptAll nodes label index children).1[culprit]? = some node ∧ node.parent.isSome

theorem exists_areAdopted {nodes : Array ForestNode} {label index : Nat} {children : List Nat}
    (known : ∀ child ∈ children, child < nodes.size) :
    ∃ accepted, AreAdopted nodes label index children accepted := by
  induction children generalizing nodes index with
  | nil => exact ⟨[], .nil, fun _ member => absurd member List.not_mem_nil, rfl, .inl ⟨rfl, rfl⟩⟩
  | cons first rest ih =>
    have bound := known first List.mem_cons_self
    have here := Array.getElem?_eq_getElem bound
    cases parent : nodes[first].parent with
    | some above =>
      have owned : nodes[first].parent.isSome := by rw [parent]; rfl
      refine ⟨[], .nil, fun _ member => absurd member List.not_mem_nil, ?_, .inr ?_⟩
      · exact adoptAll_of_owned here owned
      · refine ⟨first, rest, nodes[first], rfl, ?_, ?_, owned⟩
        · simp [adoptAll, here, owned]
        · rw [adoptAll_of_owned here owned]
          exact here
    | none =>
      have adopted : (nodes.setIfInBounds first (nodes[first].under label index))[first]? =
          some (nodes[first].under label index) :=
        Array.getElem?_setIfInBounds_self_of_lt bound
      obtain ⟨accepted, distinct, orphans, same, ending⟩ := @ih
        (nodes.setIfInBounds first (nodes[first].under label index)) (index + 1)
        (by
          intro child member
          rw [Array.size_setIfInBounds]
          exact known child (List.mem_cons_of_mem _ member))
      have fresh : first ∉ accepted := by
        intro member
        obtain ⟨node, found, root⟩ := orphans first member
        rw [adopted, Option.some.injEq] at found
        rw [← found] at root
        cases root
      refine ⟨first :: accepted, List.nodup_cons.mpr ⟨fresh, distinct⟩, ?_, ?_, ?_⟩
      · intro child member
        rcases List.mem_cons.mp member with rfl | later
        · exact ⟨_, here, parent⟩
        · obtain ⟨node, found, root⟩ := orphans child later
          rw [Array.getElem?_setIfInBounds_ne (by rintro rfl; exact fresh later)] at found
          exact ⟨node, found, root⟩
      · rw [adoptAll_of_root here parent, adoptAll_of_root here parent, same]
      · rw [adoptAll_of_root here parent]
        rcases ending with ⟨rfl, all⟩ | ⟨culprit, later, node, rfl, refused⟩
        · exact .inl ⟨rfl, all⟩
        · exact .inr ⟨culprit, later, node, rfl, refused⟩

namespace Forest

/-- What a construction does with its children: it adopts those in front, and stops at
the first one that had a parent or has been adopted already. -/
structure Adopts (forest : Forest) (children accepted : List Nat) (made : Construction) :
    Prop where
  distinct : accepted.Nodup
  orphans : ∀ child ∈ accepted, child < forest.size ∧ forest.parent child = none
  adopted : ∀ {place child : Nat}, accepted[place]? = some child →
    made.forest.parent child = some forest.size ∧ made.forest.index child = place
  others : ∀ {label : Nat}, label < forest.size → label ∉ accepted →
    made.forest.node? label = forest.node? label
  rest : accepted = forest.known children ∧ made.refused = none ∨
    ∃ culprit later refused, forest.known children = accepted ++ culprit :: later ∧
      made.refused = some refused ∧ made.forest.node? culprit = some refused ∧
      (culprit ∈ accepted ∨ (forest.parent culprit).isSome)

section Construct

variable (forest : Forest) (kind : String) (children : List Nat) (startByte endByte : Int)

/-- **A construction adopts children up to the first one that has a parent.** -/
theorem exists_adopts :
    ∃ accepted, forest.Adopts children accepted
      (forest.construct kind children startByte endByte) := by
  obtain ⟨accepted, distinct, orphans, same, ending⟩ :=
    @exists_areAdopted (forest.nodes.push (forest.constructed kind children startByte endByte))
      forest.size 0 (forest.known children)
      fun child member => forest.lt_size_push children member _
  have listed : ∀ child ∈ accepted, child ∈ forest.known children := by
    rcases ending with ⟨rfl, _⟩ | ⟨culprit, later, _, all, _⟩
    · exact fun child member => member
    · rw [all]
      exact fun child member => List.mem_append_left _ member
  have adopted := (@adoptAll_of_orphans _ forest.size 0 _ distinct orphans).2
  have node?_eq (label : Nat) :
      (forest.construct kind children startByte endByte).forest.node? label =
        (adoptAll (forest.nodes.push (forest.constructed kind children startByte endByte))
          forest.size 0 accepted).1[label]? := by
    rw [node?, nodes_construct, same]
  have others {label : Nat} (bound : label < forest.size) (other : label ∉ accepted) :
      (forest.construct kind children startByte endByte).forest.node? label =
        forest.node? label := by
    rw [node?_eq, adoptAll_of_not_mem _ _ other, forest.getElem?_push bound]
  refine ⟨accepted, distinct, ?_, ?_, others, ?_⟩
  · intro child member
    have bound := forest.lt_of_mem_known children (listed child member)
    obtain ⟨node, found, root⟩ := orphans child member
    rw [forest.getElem?_push bound] at found
    rw [Forest.parent, found]
    exact ⟨bound, root⟩
  · intro place child found
    obtain ⟨node, after⟩ := adopted place child found
    rw [Forest.parent, Forest.index, node?_eq, after, Nat.zero_add]
    exact ⟨rfl, rfl⟩
  · rcases ending with all | ⟨culprit, later, refused, all, stopped, found, owned⟩
    · exact .inl all
    · have here : (forest.construct kind children startByte endByte).forest.node? culprit =
          some refused := found
      refine .inr ⟨culprit, later, refused, all, stopped, here, ?_⟩
      by_cases member : culprit ∈ accepted
      · exact .inl member
      · have bound := forest.lt_of_mem_known children
          (show culprit ∈ forest.known children by rw [all]; simp)
        rw [Forest.parent, ← others bound member, here]
        exact .inr owned

variable {forest kind children startByte endByte}

/-- The children that are adopted come first, so they keep their places. -/
theorem Adopts.getElem?_known {accepted : List Nat} {made : Construction}
    (adopts : forest.Adopts children accepted made) {place child : Nat}
    (found : accepted[place]? = some child) : (forest.known children)[place]? = some child := by
  rcases adopts.rest with ⟨rfl, _⟩ | ⟨culprit, later, refused, all, _⟩
  · exact found
  · rw [all]
    exact List.getElem?_append_left (List.getElem?_eq_some_iff.mp found).1 ▸ found

/-- All children are adopted exactly if they are distinct and none of them had a parent. -/
theorem Adopts.refused_eq_none_iff {accepted : List Nat} {made : Construction}
    (adopts : forest.Adopts children accepted made) :
    made.refused = none ↔ (forest.known children).Nodup ∧
      ∀ child ∈ forest.known children, forest.parent child = none := by
  rcases adopts.rest with ⟨all, none⟩ | ⟨culprit, later, refused, all, some, _, offends⟩
  · rw [← all]
    exact iff_of_true none ⟨adopts.distinct, fun child member => (adopts.orphans child member).2⟩
  · rw [some, all]
    refine iff_of_false (by simp) ?_
    rintro ⟨distinct, roots⟩
    rcases offends with repeated | owned
    · have apart := (List.nodup_append.mp distinct).2.2 culprit repeated culprit
        List.mem_cons_self
      exact absurd rfl apart
    · rw [roots culprit (by simp)] at owned
      cases owned

/-- What had no parent and was not adopted can be adopted later. -/
theorem Adopts.refused_construct_eq_none {accepted others : List Nat}
    (adopts : forest.Adopts children accepted
      (forest.construct kind children startByte endByte))
    (distinct : others.Nodup)
    (left : ∀ child ∈ others, child < forest.size ∧ child ∉ accepted ∧
      forest.parent child = none) (newKind : String) (start stop : Int) :
    ((forest.construct kind children startByte endByte).forest.construct newKind others start
      stop).refused = none := by
  refine (construct_of_orphans distinct ?_).1
  intro child member
  obtain ⟨bound, other, root⟩ := left child member
  refine ⟨?_, ?_⟩
  · rw [size_construct]
    exact Nat.lt_succ_of_lt bound
  · rw [Forest.parent, adopts.others bound other]
    exact root

/-- A node with a parent had it before, or is listed at its place by the constructed node. -/
theorem listed_construct {label above : Nat}
    (up : (forest.construct kind children startByte endByte).forest.parent label = some above) :
    (forest.parent label = some above ∧
      (forest.construct kind children startByte endByte).forest.index label =
        forest.index label) ∨
    above = forest.size ∧ (forest.known children)[
      (forest.construct kind children startByte endByte).forest.index label]? = some label := by
  obtain ⟨accepted, adopts⟩ := forest.exists_adopts kind children startByte endByte
  by_cases member : label ∈ accepted
  · obtain ⟨place, found⟩ := List.mem_iff_getElem?.mp member
    obtain ⟨parent, index⟩ := adopts.adopted found
    rw [parent, Option.some.injEq] at up
    rw [index]
    exact .inr ⟨up.symm, adopts.getElem?_known found⟩
  · have same := adopts.others (lt_of_parent_construct up) member
    rw [Forest.parent, same] at up
    rw [Forest.index, Forest.index, same]
    exact .inl ⟨up, rfl⟩

/-- What a completed node lists was adopted at its place. -/
theorem adopted_of_not_refused
    (completed : (forest.construct kind children startByte endByte).refused = none)
    {place child : Nat} (found : (forest.known children)[place]? = some child) :
    (forest.construct kind children startByte endByte).forest.parent child = some forest.size ∧
      (forest.construct kind children startByte endByte).forest.index child = place := by
  obtain ⟨accepted, adopts⟩ := forest.exists_adopts kind children startByte endByte
  rcases adopts.rest with ⟨rfl, _⟩ | ⟨_, _, refused, _, failed, _⟩
  · exact adopts.adopted found
  · rw [completed] at failed
    cases failed

variable (forest kind children startByte endByte)

/-- **A construction fails exactly if a child has a parent or is listed twice.**  Then the
children in front of the first such child belong to the node that was not completed, at
their places, and every other node is as it was.  So what was left without a parent can be
adopted later on. -/
theorem refused_construct :
    ((forest.construct kind children startByte endByte).refused = none ↔
      (forest.known children).Nodup ∧
        ∀ child ∈ forest.known children, forest.parent child = none) ∧
    ∀ refused, (forest.construct kind children startByte endByte).refused = some refused →
      let after := (forest.construct kind children startByte endByte).forest
      ∃ accepted culprit later, forest.known children = accepted ++ culprit :: later ∧
        after.node? culprit = some refused ∧
        (culprit ∈ accepted ∨ (forest.parent culprit).isSome) ∧
        accepted.Nodup ∧ (∀ child ∈ accepted, forest.parent child = none) ∧
        (∀ label, label < forest.size → label ∉ accepted →
          after.parent label = forest.parent label ∧ after.index label = forest.index label) ∧
        (∀ place child, accepted[place]? = some child →
          after.parent child = some forest.size ∧ after.index child = place) ∧
        ∀ (others : List Nat) (newKind : String) (start stop : Int), others.Nodup →
          (∀ child ∈ others, child < forest.size ∧ child ∉ accepted ∧
            forest.parent child = none) →
          (after.construct newKind others start stop).refused = none := by
  obtain ⟨accepted, adopts⟩ := forest.exists_adopts kind children startByte endByte
  refine ⟨adopts.refused_eq_none_iff, ?_⟩
  intro refused failed
  rcases adopts.rest with ⟨_, none⟩ | ⟨culprit, later, node, all, some, found, offends⟩
  · rw [none] at failed
    cases failed
  · obtain rfl : node = refused := Option.some.inj (some.symm.trans failed)
    refine ⟨accepted, culprit, later, all, found, offends, adopts.distinct, ?_, ?_, ?_, ?_⟩
    · exact fun child member => (adopts.orphans child member).2
    · intro label bound other
      rw [Forest.parent, Forest.parent, Forest.index, Forest.index, adopts.others bound other]
      exact ⟨rfl, rfl⟩
    · exact fun place child => adopts.adopted
    · exact fun others newKind start stop distinct left =>
        adopts.refused_construct_eq_none distinct left newKind start stop

end Construct

/-- The first of two children is adopted by a node that refuses the second one, and is
refused itself from then on. -/
theorem adopted_by_refused :
    let before := (empty.construct "x" []).forest
    let owned := ((before.construct "y" []).forest.construct "p" [1]).forest
    let failed := owned.construct "f" [0, 1]
    failed.refused.isSome ∧ owned.parent 0 = none ∧ failed.forest.parent 0 = some 3 ∧
      (owned.construct "g" [0]).refused = none ∧
      (failed.forest.construct "g" [0]).refused.isSome := by
  decide

end Forest

/-! ## Calls of the constructor -/

/-- What a constructor is called with. -/
structure Call where
  kind : String
  children : List Nat := []
  startByte : Int := 0
  endByte : Int := 0

/-- The nodes that exist, and those of them whose construction did not fail. -/
structure Heap where
  forest : Forest := .empty
  completed : List Nat := []

namespace Heap

/-- Calls the constructor. -/
def call (heap : Heap) (call : Call) : Heap :=
  let made := heap.forest.construct call.kind call.children call.startByte call.endByte
  { forest := made.forest
    completed :=
      if made.refused.isNone then made.label :: heap.completed else heap.completed }

/-- The heap that calls leave behind, from the first one to the last. -/
def ofCalls (calls : List Call) : Heap := calls.foldl Heap.call {}

/-- Nodes are listed by their parents at their places, and the nodes that a completed node
lists know it and their places. -/
structure Consistent (heap : Heap) : Prop where
  parent_lt : ∀ {label above : Nat}, heap.forest.parent label = some above →
    above < heap.forest.size
  listed : ∀ {label above : Nat}, heap.forest.parent label = some above →
    (heap.forest.children above)[heap.forest.index label]? = some label
  completed_lt : ∀ {above : Nat}, above ∈ heap.completed → above < heap.forest.size
  adopted : ∀ {above place child : Nat}, above ∈ heap.completed →
    (heap.forest.children above)[place]? = some child →
      heap.forest.parent child = some above ∧ heap.forest.index child = place

theorem consistent_start : Consistent {} := by
  constructor
  · intro label above up
    cases up
  · intro label above up
    cases up
  · intro above member
    cases member
  · intro above place child member
    cases member

/-- A call completes at most the node that it constructs. -/
theorem mem_completed_call {heap : Heap} {call : Call} {label : Nat} :
    label ∈ (heap.call call).completed ↔
      label ∈ heap.completed ∨ label = heap.forest.size ∧
        (heap.forest.construct call.kind call.children call.startByte call.endByte).refused =
          none := by
  simp only [Heap.call]
  cases (heap.forest.construct call.kind call.children call.startByte call.endByte).refused with
  | none => simp [Forest.construct, or_comm]
  | some refused => simp

/-- **A call leaves a consistent heap consistent**, whether it fails or not. -/
theorem Consistent.call {heap : Heap} (consistent : heap.Consistent) (call : Call) :
    (heap.call call).Consistent := by
  have grows := heap.forest.grows_construct call.kind call.children call.startByte call.endByte
  have self : (heap.call call).forest.children heap.forest.size =
      heap.forest.known call.children := by
    rw [Forest.children, Heap.call, Forest.node?_construct_self]
    rfl
  have old {above : Nat} (bound : above < heap.forest.size) :
      above < (heap.call call).forest.size := by
    rw [Heap.call, Forest.size_construct]
    exact Nat.lt_succ_of_lt bound
  have new : heap.forest.size < (heap.call call).forest.size := by
    rw [Heap.call, Forest.size_construct]
    exact Nat.lt_succ_self heap.forest.size
  constructor
  · intro label above up
    rcases Forest.listed_construct up with ⟨before, _⟩ | ⟨rfl, _⟩
    · exact old (consistent.parent_lt before)
    · exact new
  · intro label above up
    rcases Forest.listed_construct up with ⟨before, index⟩ | ⟨rfl, listed⟩
    · have children := grows.children (consistent.parent_lt before)
      have listed := consistent.listed before
      rw [← index, ← children] at listed
      exact listed
    · rw [self]
      exact listed
  · intro above member
    rcases mem_completed_call.mp member with before | ⟨rfl, _⟩
    · exact old (consistent.completed_lt before)
    · exact new
  · intro above place child member listed
    rcases mem_completed_call.mp member with before | ⟨rfl, completed⟩
    · have children := grows.children (consistent.completed_lt before)
      obtain ⟨up, index⟩ := consistent.adopted before (children ▸ listed)
      exact ⟨grows.parent up, (grows.index up).trans index⟩
    · rw [self] at listed
      exact Forest.adopted_of_not_refused completed listed

/-- Every heap is consistent. -/
theorem consistent_ofCalls (calls : List Call) : (ofCalls calls).Consistent := by
  induction calls using List.reverseRecOn with
  | nil => exact consistent_start
  | append_singleton calls last ih =>
    rw [ofCalls, List.foldl_append]
    exact ih.call last

/-! ## What readers rely on -/

namespace Consistent

variable {heap : Heap} (consistent : heap.Consistent)
include consistent

/-- No node is listed twice by completed nodes. -/
theorem listed_once {above other place otherPlace child : Nat} (completed : above ∈ heap.completed)
    (otherCompleted : other ∈ heap.completed)
    (found : (heap.forest.children above)[place]? = some child)
    (otherFound : (heap.forest.children other)[otherPlace]? = some child) :
    above = other ∧ place = otherPlace := by
  obtain ⟨up, index⟩ := consistent.adopted completed found
  obtain ⟨otherUp, otherIndex⟩ := consistent.adopted otherCompleted otherFound
  rw [up, Option.some.injEq] at otherUp
  exact ⟨otherUp, index.symm.trans otherIndex⟩

theorem inRange (node : Nat) : heap.forest.view.InRange node := by
  intro above up
  have bound := (List.getElem?_eq_some_iff.mp (consistent.listed up)).1
  exact Nat.le_of_lt bound

end Consistent

/-- The way up leads to newer nodes. -/
theorem lt_of_transGen_parent {forest : Forest} {node above : Nat}
    (up : Relation.TransGen (fun below above => forest.parent below = some above) node above) :
    node < above := by
  induction up with
  | single link => exact (forest.lt_parent link).1
  | tail _ link ih => exact Nat.lt_trans ih (forest.lt_parent link).1

/-- **Heaps represent trees.**  After any calls of the constructor, whether they failed or
not, a node is listed at its place by its parent; what a completed node lists knows it and
the place, so that nothing is listed twice; and no way up comes back.  So the loops up and
down end at every node, siblings are never looked up out of range, and every chain can be
matched. -/
theorem represents_trees (calls : List Call) :
    let heap := ofCalls calls
    let forest := heap.forest
    let view := forest.view
    (∀ node above : Nat, forest.parent node = some above →
      (forest.children above)[forest.index node]? = some node) ∧
    (∀ above ∈ heap.completed, ∀ place child : Nat, (forest.children above)[place]? = some child →
      forest.parent child = some above ∧ forest.index child = place) ∧
    (∀ above ∈ heap.completed, ∀ other ∈ heap.completed, ∀ place otherPlace child : Nat,
      (forest.children above)[place]? = some child →
      (forest.children other)[otherPlace]? = some child → above = other ∧ place = otherPlace) ∧
    (∀ node, ¬Relation.TransGen (fun below above => forest.parent below = some above) node node) ∧
    ∀ node : Nat,
      view.previousSiblings? node = some (view.previousSiblings node) ∧
      (∀ passed, view.Climbs (view.parent node) passed ↔ passed = view.ancestors node) ∧
      (∀ visited, view.Visits [(node, 0)] visited ↔ visited = view.walk node) ∧
      (∀ combinator, view.related? combinator node = some (view.related combinator node)) ∧
      ∀ place chain memo, matchesWith? view place chain node memo =
        some (matchesWith view place chain node memo) := by
  intro heap forest view
  have consistent := consistent_ofCalls calls
  refine ⟨?_, ?_, ?_, ?_, ?_⟩
  · exact fun node above => consistent.listed
  · exact fun above completed place child => consistent.adopted completed
  · exact fun above completed other otherCompleted place otherPlace child =>
      consistent.listed_once completed otherCompleted
  · exact fun node cycle => Nat.lt_irrefl node (lt_of_transGen_parent cycle)
  · intro node
    refine ⟨?_, view.climbs_iff node, view.visits_root_iff node, ?_, ?_⟩
    · exact (consistent.inRange node).previousSiblings?_eq
    · exact (consistent.inRange node).related?_eq
    · exact fun place chain => TreeView.InRange.matchesWith?_eq consistent.inRange place chain node

end Heap

end TreeStyle
