import TreeStyle.Proofs.Tree.Adoption
import TreeStyle.Proofs.Tree.Positions

/-!
# Planted trees

A tree is planted children first, each under a label that is new.  The roots of the
children are orphans, and no two of them are one, so the node over them adopts them all
(`Forest.construct_of_orphans`).  Nothing else in the forest is given a parent, so trees
that were planted before stay as they are.

Main statements: `Forest.plant_plants`, which says what planting does to a forest, and
`Forest.Plants.wellFormed`.
-/

namespace TreeStyle

set_option autoImplicit false

/-! ## Adopting orphans -/

/-- Distinct nodes without parents are adopted, each at its place. -/
theorem adoptAll_of_orphans {nodes : Array ForestNode} {label index : Nat} {children : List Nat}
    (distinct : children.Nodup)
    (orphans : ∀ child ∈ children, ∃ node, nodes[child]? = some node ∧ node.parent = none) :
    (adoptAll nodes label index children).2 = none ∧
      ∀ (place child : Nat), children[place]? = some child → ∃ node : ForestNode,
        (adoptAll nodes label index children).1[child]? =
          some (node.under label (index + place)) := by
  induction children generalizing nodes index with
  | nil =>
    refine ⟨rfl, ?_⟩
    intro place child found
    cases found
  | cons first rest ih =>
    obtain ⟨node, here, root⟩ := orphans first List.mem_cons_self
    obtain ⟨fresh, distinct⟩ := List.nodup_cons.mp distinct
    have later : ∀ child ∈ rest, ∃ other,
        (nodes.setIfInBounds first (node.under label index))[child]? = some other ∧
          other.parent = none := by
      intro child member
      obtain ⟨other, found, orphan⟩ := orphans child (List.mem_cons_of_mem _ member)
      refine ⟨other, ?_, orphan⟩
      rw [Array.getElem?_setIfInBounds_ne, found]
      rintro rfl
      exact fresh member
    obtain ⟨accepted, adopted⟩ := @ih _ (index + 1) distinct later
    rw [adoptAll_of_root here root]
    refine ⟨accepted, ?_⟩
    intro place child found
    cases place with
    | zero =>
      cases found
      refine ⟨node, ?_⟩
      have bound := (Array.getElem?_eq_some_iff.mp here).1
      refine adoptAll_keeps label (index + 1) rest ?_
        (Array.getElem?_setIfInBounds_self_of_lt bound) rfl
      intro other member
      obtain ⟨_, found, _⟩ := later other member
      exact (Array.getElem?_eq_some_iff.mp found).1
    | succ place =>
      obtain ⟨other, found⟩ := adopted place child found
      refine ⟨other, ?_⟩
      rw [found, Nat.add_assoc, Nat.add_comm 1]

namespace Forest

theorem Grows.trans {first second third : Forest} (earlier : first.Grows second)
    (later : second.Grows third) : first.Grows third := by
  have known {label : Nat} (bound : label < first.size) : label < second.size :=
    Nat.lt_of_lt_of_le bound earlier.size_le
  constructor
  · exact Nat.le_trans earlier.size_le later.size_le
  · exact fun bound => (later.kind (known bound)).trans (earlier.kind bound)
  · exact fun bound => (later.children (known bound)).trans (earlier.children bound)
  · exact fun up => later.parent (earlier.parent up)
  · exact fun up => (later.index (earlier.parent up)).trans (earlier.index up)

section Construct

variable {forest : Forest} {kind : String} {children : List Nat} {startByte endByte : Int}

/-- **A node over orphans adopts them all.** -/
theorem construct_of_orphans (distinct : children.Nodup)
    (orphans : ∀ child ∈ children, child < forest.size ∧ forest.parent child = none) :
    (forest.construct kind children startByte endByte).refused = none ∧
      (forest.construct kind children startByte endByte).forest.children forest.size = children ∧
      ∀ place child, children[place]? = some child →
        (forest.construct kind children startByte endByte).forest.parent child =
            some forest.size ∧
          (forest.construct kind children startByte endByte).forest.index child = place := by
  have known : forest.known children = children :=
    List.filter_eq_self.mpr fun child member => decide_eq_true (orphans child member).1
  have roots : ∀ child ∈ forest.known children, ∃ node,
      (forest.nodes.push (forest.constructed kind children startByte endByte))[child]? =
        some node ∧ node.parent = none := by
    intro child member
    rw [known] at member
    obtain ⟨bound, root⟩ := orphans child member
    obtain ⟨node, found⟩ := forest.exists_node bound
    refine ⟨node, ?_, ?_⟩
    · rw [forest.getElem?_push bound, found]
    · rw [Forest.parent, found, Option.bind_some] at root
      exact root
  obtain ⟨accepted, adopted⟩ :=
    @adoptAll_of_orphans _ forest.size 0 _ (known.symm ▸ distinct) roots
  refine ⟨accepted, ?_, ?_⟩
  · rw [Forest.children, node?_construct_self]
    exact known
  · intro place child found
    rw [← known] at found
    obtain ⟨node, after⟩ := adopted place child found
    rw [Forest.parent, Forest.index, node?, nodes_construct, after, Nat.zero_add]
    exact ⟨rfl, rfl⟩

/-- Only the children of a node are given a parent by its construction. -/
theorem parent_construct_of_not_mem {label : Nat} (bound : label < forest.size)
    (other : label ∉ children) :
    (forest.construct kind children startByte endByte).forest.parent label =
      forest.parent label := by
  have unlisted : label ∉ forest.known children :=
    fun member => other (List.mem_filter.mp member).1
  rw [Forest.parent, node?, nodes_construct, adoptAll_of_not_mem _ _ unlisted,
    forest.getElem?_push bound, Forest.parent]

end Construct

/-! ## Trees in a growing forest -/

/-- A node of the forest over a tree of the given shape, with links both ways and places
that are known.  The node itself may be given a parent. -/
structure Holds (forest : Forest) (label : Nat) (shape : Shape) : Prop where
  known : label < forest.size
  shows : forest.view.Shows label shape
  linked : ∀ {path : List Nat} {node child place : Nat}, forest.view.at? label path = some node →
    (forest.children node)[place]? = some child →
      forest.parent child = some node ∧ forest.index child = place

theorem Grows.at?_eq {before after : Forest} (grows : before.Grows after) {label : Nat}
    (known : label < before.size) (path : List Nat) :
    after.view.at? label path = before.view.at? label path := by
  induction path generalizing label with
  | nil => rfl
  | cons place path ih =>
    rw [TreeView.at?_cons, TreeView.at?_cons, show after.view.children label =
      before.view.children label from grows.children known]
    cases found : (before.view.children label)[place]? with
    | none => rfl
    | some child =>
      have lower := before.child_lt (List.mem_of_getElem? found)
      exact ih (Nat.lt_trans lower known)

theorem at?_lt {forest : Forest} {label node : Nat} (known : label < forest.size)
    {path : List Nat} (here : forest.view.at? label path = some node) : node < forest.size := by
  induction path generalizing label with
  | nil =>
    cases here
    exact known
  | cons place path ih =>
    rw [TreeView.at?_cons, Option.bind_eq_some_iff] at here
    obtain ⟨child, found, further⟩ := here
    exact ih (Nat.lt_trans (forest.child_lt (List.mem_of_getElem? found)) known) further

/-- **A tree stays as it is when the forest grows.** -/
theorem Holds.grow {before after : Forest} {label : Nat} {shape : Shape}
    (holds : before.Holds label shape) (grows : before.Grows after) : after.Holds label shape := by
  have size := Nat.lt_of_lt_of_le holds.known grows.size_le
  refine ⟨size, ?_, ?_⟩
  · intro path
    rw [grows.at?_eq holds.known, ← holds.shows path]
    cases here : before.view.at? label path with
    | none => rfl
    | some node => exact congrArg some (grows.kind (at?_lt holds.known here))
  · intro path node child place here listed
    rw [grows.at?_eq holds.known] at here
    rw [grows.children (at?_lt holds.known here)] at listed
    obtain ⟨up, index⟩ := holds.linked here listed
    exact ⟨grows.parent up, (grows.index up).trans index⟩

/-! ## Planting -/

/-- What planting a tree does to a forest. -/
structure Plants (before : Forest) (shape : Shape) (after : Forest) (label : Nat) : Prop where
  grows : before.Grows after
  untouched : ∀ old, old < before.size → after.parent old = before.parent old
  fresh : before.size ≤ label
  holds : after.Holds label shape
  orphan : after.parent label = none
  first : after.index label = 0

theorem Plants.rooted {before after : Forest} {shape : Shape} {label : Nat}
    (plants : before.Plants shape after label) : after.view.Rooted label :=
  ⟨plants.orphan, fun here found => (plants.holds.linked here found).1⟩

/-- The nodes of a planted tree know their places. -/
theorem Plants.index_eq {before after : Forest} {shape : Shape} {label node : Nat}
    (plants : before.Plants shape after label) {path : List Nat}
    (here : after.view.at? label path = some node) : after.index node = path.getLastD 0 := by
  rcases List.eq_nil_or_concat' path with rfl | ⟨front, place, rfl⟩
  · cases here
    exact plants.first
  · obtain ⟨above, aboveHere, listed⟩ := TreeView.at?_concat_eq_some_iff.mp here
    rw [List.getLastD_concat]
    exact (plants.holds.linked aboveHere listed).2

/-- **A planted tree is well-formed.** -/
theorem Plants.wellFormed {before after : Forest} {shape : Shape} {label : Nat}
    (plants : before.Plants shape after label) :
    after.view.WellFormed (after.view.IsUnder label) :=
  plants.rooted.wellFormed (fun here found => (plants.holds.linked here found).2)
    fun same => Int.ofNat.inj same

/-- What planting one tree after the other does to a forest. -/
structure PlantsAll (before : Forest) (shapes : List Shape) (after : Forest)
    (labels : List Nat) : Prop where
  grows : before.Grows after
  untouched : ∀ old, old < before.size → after.parent old = before.parent old
  holds : List.Forall₂ after.Holds labels shapes
  fresh : ∀ label ∈ labels, before.size ≤ label ∧ label < after.size ∧ after.parent label = none
  distinct : labels.Nodup

theorem PlantsAll.nil (forest : Forest) : forest.PlantsAll [] forest [] :=
  ⟨.refl forest, fun _ _ => rfl, .nil, fun _ member => absurd member List.not_mem_nil, .nil⟩

theorem PlantsAll.cons {before middle after : Forest} {shape : Shape} {shapes : List Shape}
    {label : Nat} {labels : List Nat} (plants : before.Plants shape middle label)
    (others : middle.PlantsAll shapes after labels) :
    before.PlantsAll (shape :: shapes) after (label :: labels) := by
  refine ⟨plants.grows.trans others.grows, ?_, .cons (plants.holds.grow others.grows) others.holds,
    ?_, ?_⟩
  · intro old bound
    rw [others.untouched old (Nat.lt_of_lt_of_le bound plants.grows.size_le),
      plants.untouched old bound]
  · intro other member
    rcases List.mem_cons.mp member with rfl | member
    · refine ⟨plants.fresh, (plants.holds.grow others.grows).known, ?_⟩
      rw [others.untouched _ plants.holds.known, plants.orphan]
    · obtain ⟨newer, bound, root⟩ := others.fresh other member
      exact ⟨Nat.le_trans plants.grows.size_le newer, bound, root⟩
  · refine List.nodup_cons.mpr ⟨fun member => ?_, others.distinct⟩
    have newer := (others.fresh label member).1
    exact absurd plants.holds.known (Nat.not_lt.mpr newer)

/-- A node over trees that were planted is the root of a tree. -/
theorem PlantsAll.construct {before after : Forest} {children : List Shape} {labels : List Nat}
    (planted : before.PlantsAll children after labels) (kind : String) (startByte endByte : Int) :
    before.Plants (.node kind startByte endByte children)
      (after.construct kind labels startByte endByte).forest after.size := by
  have grows := after.grows_construct kind labels startByte endByte
  obtain ⟨_, listed, adopted⟩ := @construct_of_orphans after kind labels startByte endByte
    planted.distinct fun label member => (planted.fresh label member).2
  have self := after.node?_construct_self kind labels startByte endByte
  have subtrees := planted.holds.imp fun _ _ holds => holds.grow grows
  refine ⟨planted.grows.trans grows, ?_, planted.grows.size_le, ⟨?_, ?_, ?_⟩, ?_, ?_⟩
  · intro old bound
    rw [parent_construct_of_not_mem (Nat.lt_of_lt_of_le bound planted.grows.size_le),
      planted.untouched old bound]
    intro member
    exact absurd bound (Nat.not_lt.mpr (planted.fresh old member).1)
  · rw [size_construct]
    exact Nat.lt_succ_self _
  · intro path
    cases path with
    | nil =>
      refine congrArg some ?_
      change Forest.kind _ _ = kind
      rw [Forest.kind, self]
      rfl
    | cons place path =>
      rw [TreeView.at?_cons, show TreeView.children _ after.size = labels from listed]
      rw [Shape.at?, Shape.children]
      rcases optionRel_iff.mp (forall₂_iff_getElem?.mp subtrees place) with
        ⟨none, noShape⟩ | ⟨label, shape, found, shapeFound, holds⟩
      · rw [none, noShape]
        rfl
      · rw [found, shapeFound]
        exact holds.shows path
  · intro path node child place here found
    cases path with
    | nil =>
      cases here
      rw [listed] at found
      exact adopted place child found
    | cons first path =>
      rw [TreeView.at?_cons, show TreeView.children _ after.size = labels from listed,
        Option.bind_eq_some_iff] at here
      obtain ⟨label, entry, further⟩ := here
      rcases optionRel_iff.mp (forall₂_iff_getElem?.mp subtrees first) with
        ⟨none, _⟩ | ⟨other, _, same, _, holds⟩
      · rw [entry] at none
        cases none
      · rw [entry] at same
        cases same
        exact holds.linked further found
  · rw [Forest.parent, self]
    rfl
  · rw [Forest.index, self]
    rfl

mutual

theorem plant_plants (forest : Forest) : (shape : Shape) →
    (forest.plant shape).refused = none ∧
      forest.Plants shape (forest.plant shape).forest (forest.plant shape).label
  | .node kind startByte endByte children => by
    have planted := plantAll_plants forest children
    refine ⟨?_, planted.construct kind startByte endByte⟩
    exact (construct_of_orphans planted.distinct fun label member =>
      (planted.fresh label member).2).1

theorem plantAll_plants (forest : Forest) : (shapes : List Shape) →
    forest.PlantsAll shapes (forest.plantAll shapes).1 (forest.plantAll shapes).2
  | [] => .nil forest
  | shape :: shapes =>
    .cons (plant_plants forest shape).2 (plantAll_plants (forest.plant shape).forest shapes)

end

end Forest

end TreeStyle
