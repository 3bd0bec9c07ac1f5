import TreeStyle.Proofs.Tree.Planting

/-!
# The nodes of a planted tree, listed

The parts of a shape are listed with their positions in pre-order (`Shape.preorder`).  A
node bears a shape if it has the kind and the range of bytes at the top of the shape, and
its children bear the children of the shape (`Forest.Bears`).  Adoption changes neither
kinds nor ranges, so the root of a planted tree bears its shape, and a walk lists the parts
of the shape: each with its kind, range and number of children, at a distance that is the
length of its position, under the node at the position without its last place, and with
this place for its index (`Forest.Realizes`).

Main statements: `TreeView.walk_preorder`, `Forest.plant_bears` and
`Forest.plant_realizes`.
-/

namespace TreeStyle

set_option autoImplicit false

/-! ## Pre-order -/

namespace Shape

/-- The range of bytes at the top of a shape. -/
def byteRange : Shape → Int × Int
  | .node _ startByte endByte _ => (startByte, endByte)

mutual

/-- The parts of a shape with their positions, in pre-order. -/
def preorder : Shape → List (List Nat × Shape)
  | .node kind startByte endByte children =>
    ([], .node kind startByte endByte children) :: preorderFrom 0 children

/-- The parts of shapes that are counted from a place on. -/
def preorderFrom (place : Nat) : List Shape → List (List Nat × Shape)
  | [] => []
  | shape :: rest =>
    shape.preorder.map (fun part => (place :: part.1, part.2)) ++ preorderFrom (place + 1) rest

end

end Shape

namespace TreeView

variable {Node : Type}

/-- A relation of nodes to shapes that goes on to hold below. -/
def Descends (view : TreeView Node) (same : Node → Shape → Prop) : Prop :=
  ∀ {node shape}, same node shape → List.Forall₂ same (view.children node) shape.children

variable {view : TreeView Node} {same : Node → Shape → Prop}

mutual

/-- **A walk visits the parts of a shape in pre-order**, related to them by a relation that
goes on to hold below. -/
theorem walk_preorder (descends : view.Descends same) : (shape : Shape) → {root : Node} →
    same root shape → (distance : Nat) →
    List.Forall₂ (fun part entry => view.at? root part.1 = some entry.1 ∧ same entry.1 part.2 ∧
      entry.2 = distance + part.1.length) shape.preorder (view.walk root distance)
  | .node kind startByte endByte children, root, pair, distance => by
    rw [Shape.preorder, walk_eq]
    refine .cons ⟨rfl, pair, rfl⟩ ?_
    refine (walk_preorderFrom descends children (descends pair) 0 (distance + 1)).imp ?_
    rintro ⟨_, part⟩ ⟨node, reached⟩ ⟨number, path, child, rfl, found, here, like, length⟩
    rw [Nat.zero_add, at?_cons, found, List.length_cons]
    exact ⟨here, like, by omega⟩

theorem walk_preorderFrom (descends : view.Descends same) : (shapes : List Shape) →
    {nodes : List Node} → List.Forall₂ same nodes shapes → (place distance : Nat) →
    List.Forall₂ (fun part entry => ∃ number path node, part.1 = (place + number) :: path ∧
      nodes[number]? = some node ∧ view.at? node path = some entry.1 ∧ same entry.1 part.2 ∧
        entry.2 = distance + path.length)
      (Shape.preorderFrom place shapes) (nodes.flatMap fun node => view.walk node distance)
  | [], _, .nil, _, _ => .nil
  | shape :: shapes, node :: nodes, .cons pair pairs, place, distance => by
    rw [Shape.preorderFrom, List.flatMap_cons]
    refine List.rel_append ?_ ?_
    · rw [List.forall₂_map_left_iff]
      refine (walk_preorder descends shape pair distance).imp ?_
      rintro part entry ⟨here, like, length⟩
      exact ⟨0, part.1, node, rfl, rfl, here, like, length⟩
    · refine (walk_preorderFrom descends shapes pairs (place + 1) distance).imp ?_
      rintro part entry ⟨number, path, child, position, found, visited⟩
      rw [Nat.succ_add_eq_add_succ] at position
      exact ⟨number + 1, path, child, position, found, visited⟩

end

end TreeView

namespace Forest

/-! ## Ranges of bytes -/

/-- The nodes of a forest have the same ranges of bytes in a later one. -/
def KeepsRanges (before after : Forest) : Prop :=
  ∀ label, label < before.size → after.byteRange label = before.byteRange label

theorem keepsRanges_construct (forest : Forest) (kind : String) (children : List Nat)
    (startByte endByte : Int) :
    forest.KeepsRanges (forest.construct kind children startByte endByte).forest := by
  intro label bound
  obtain ⟨node, after, found, later, outcome⟩ :=
    forest.exists_outcome kind children startByte endByte bound
  rw [byteRange, byteRange, found, later]
  cases outcome <;> rfl

theorem KeepsRanges.trans {first second third : Forest} (earlier : first.KeepsRanges second)
    (size_le : first.size ≤ second.size) (later : second.KeepsRanges third) :
    first.KeepsRanges third :=
  fun label bound => (later label (Nat.lt_of_lt_of_le bound size_le)).trans (earlier label bound)

/-- The tree under a node is of a shape, with the same kinds and ranges. -/
inductive Bears (forest : Forest) : Nat → Shape → Prop where
  | node {label : Nat} {kind : String} {startByte endByte : Int} {children : List Shape}
      (kind_eq : forest.kind label = kind)
      (range_eq : forest.byteRange label = (startByte, endByte))
      (below : List.Forall₂ forest.Bears (forest.children label) children) :
      Bears forest label (.node kind startByte endByte children)

/-- The children of a node bear the children of the shape. -/
theorem Bears.children {forest : Forest} : forest.view.Descends forest.Bears := by
  rintro label _ ⟨-, -, below⟩
  exact below

mutual

/-- A tree is of its shape in a later forest, too. -/
theorem Bears.grow {before after : Forest} (grows : before.Grows after)
    (keeps : before.KeepsRanges after) : (shape : Shape) → {label : Nat} → label < before.size →
    before.Bears label shape → after.Bears label shape
  | .node kind startByte endByte children, label, known, bears => by
    obtain ⟨kind_eq, range_eq, below⟩ := bears
    refine .node ((grows.kind known).trans kind_eq) ((keeps label known).trans range_eq) ?_
    rw [grows.children known]
    exact bearsAll_grow grows keeps children
      (fun child listed => Nat.lt_trans (before.child_lt listed) known) below

theorem bearsAll_grow {before after : Forest} (grows : before.Grows after)
    (keeps : before.KeepsRanges after) : (shapes : List Shape) → {labels : List Nat} →
    (∀ label ∈ labels, label < before.size) → List.Forall₂ before.Bears labels shapes →
    List.Forall₂ after.Bears labels shapes
  | [], _, _, .nil => .nil
  | shape :: shapes, _, known, .cons bears others =>
    .cons (Bears.grow grows keeps shape (known _ List.mem_cons_self) bears)
      (bearsAll_grow grows keeps shapes
        (fun other listed => known other (List.mem_cons_of_mem _ listed)) others)

end

/-- A node over trees that were planted is of the shape over their shapes. -/
theorem PlantsAll.bears_construct {before after : Forest} {children : List Shape}
    {labels : List Nat} (planted : before.PlantsAll children after labels)
    (each : List.Forall₂ after.Bears labels children) (kind : String) (startByte endByte : Int) :
    (after.construct kind labels startByte endByte).forest.Bears after.size
      (.node kind startByte endByte children) := by
  have self := after.node?_construct_self kind labels startByte endByte
  obtain ⟨-, listed, -⟩ := @construct_of_orphans after kind labels startByte endByte
    planted.distinct fun label member => (planted.fresh label member).2
  refine .node ?_ ?_ ?_
  · rw [Forest.kind, self]
    rfl
  · rw [byteRange, self]
    rfl
  · rw [listed]
    exact bearsAll_grow (after.grows_construct kind labels startByte endByte)
      (after.keepsRanges_construct kind labels startByte endByte) children
      (fun label member => (planted.fresh label member).2.1) each

mutual

/-- **A planted tree is of the shape.** -/
theorem plant_bears (forest : Forest) : (shape : Shape) →
    forest.KeepsRanges (forest.plant shape).forest ∧
      (forest.plant shape).forest.Bears (forest.plant shape).label shape
  | .node kind startByte endByte children => by
    obtain ⟨keeps, each⟩ := plantAll_bears forest children
    have planted := plantAll_plants forest children
    exact ⟨keeps.trans planted.grows.size_le (keepsRanges_construct _ _ _ _ _),
      planted.bears_construct each kind startByte endByte⟩

theorem plantAll_bears (forest : Forest) : (shapes : List Shape) →
    forest.KeepsRanges (forest.plantAll shapes).1 ∧
      List.Forall₂ (forest.plantAll shapes).1.Bears (forest.plantAll shapes).2 shapes
  | [] => ⟨fun _ _ => rfl, .nil⟩
  | shape :: shapes => by
    obtain ⟨keeps, bears⟩ := plant_bears forest shape
    obtain ⟨keepsMore, each⟩ := plantAll_bears (forest.plant shape).forest shapes
    have plants := (plant_plants forest shape).2
    have others := plantAll_plants (forest.plant shape).forest shapes
    exact ⟨keeps.trans plants.grows.size_le keepsMore,
      .cons (bears.grow others.grows keepsMore shape plants.holds.known) each⟩

end

/-! ## Positions in a planted tree -/

/-- What a visited node has of the part of a shape at a position. -/
structure Realizes (forest : Forest) (root : Nat) (part : List Nat × Shape)
    (visited : Nat × Nat) : Prop where
  position : forest.view.at? root part.1 = some visited.1
  distance : visited.2 = part.1.length
  kind : forest.kind visited.1 = part.2.kind
  byteRange : forest.byteRange visited.1 = part.2.byteRange
  children : (forest.children visited.1).length = part.2.children.length
  parent : forest.parent visited.1 =
    if part.1 = [] then none else forest.view.at? root part.1.dropLast
  index : forest.index visited.1 = part.1.getLastD 0

theorem Plants.parent_eq {before after : Forest} {shape : Shape} {label node : Nat}
    (plants : before.Plants shape after label) {path : List Nat}
    (here : after.view.at? label path = some node) :
    after.parent node = if path = [] then none else after.view.at? label path.dropLast := by
  rcases List.eq_nil_or_concat' path with rfl | ⟨front, place, rfl⟩
  · cases here
    exact plants.orphan
  · obtain ⟨above, aboveHere, _, up⟩ := plants.rooted.parent_concat here
    rw [if_neg (by simp), List.dropLast_concat, aboveHere]
    exact up

/-- **A walk of a planted tree lists the parts of its shape.** -/
theorem plant_realizes (forest : Forest) (shape : Shape) :
    List.Forall₂ ((forest.plant shape).forest.Realizes (forest.plant shape).label) shape.preorder
      ((forest.plant shape).forest.view.walk (forest.plant shape).label) := by
  have plants := (plant_plants forest shape).2
  have bears := (plant_bears forest shape).2
  refine (TreeView.walk_preorder Bears.children shape bears 0).imp ?_
  rintro ⟨path, _⟩ visited ⟨here, ⟨kind_eq, range_eq, below⟩, distance⟩
  exact ⟨here, by omega, kind_eq, range_eq, below.length_eq, plants.parent_eq here,
    plants.index_eq here⟩

end Forest

end TreeStyle
