import TreeStyle.Text.Quoted
import TreeStyle.Tree.View

/-!
# Trees in memory

In-memory nodes live in a forest, where each has a label.  A node is constructed
over children that exist already and adopts them one by one.  A child that has a
parent refuses, and the construction fails there; the children before it stay
adopted by the node that was not completed.

Since a node is newer than its children, labels grow from child to parent.  The
forest carries this invariant, which is what makes walks up and down end.

Main statements: `size_construct` (a construction adds one node, whether it
fails or not) and the view `Forest.view`, whose measures rest on the invariant.
-/

namespace TreeStyle

set_option autoImplicit false

/-! ## Nodes -/

/-- A node of a forest, which knows the others by their labels. -/
structure ForestNode where
  kind : String
  children : List Nat
  parent : Option Nat := none
  index : Nat := 0
  startByte : Int := 0
  endByte : Int := 0
  deriving DecidableEq, Repr

/-- Labels grow from child to parent. -/
def Ascending (nodes : Array ForestNode) : Prop :=
  ∀ (label : Nat) (node : ForestNode), nodes[label]? = some node →
    (∀ above ∈ node.parent, label < above) ∧ ∀ below ∈ node.children, below < label

/-- Nodes under their labels. -/
structure Forest where
  nodes : Array ForestNode := #[]
  ascending : Ascending nodes := by
    intro label node found
    simp at found

/-! ## Construction -/

/-- Lets the node `label` adopt children from place `index` on, up to the first one
that has a parent already; that one is returned. -/
def adoptAll (nodes : Array ForestNode) (label : Nat) :
    (index : Nat) → List Nat → Array ForestNode × Option ForestNode
  | _, [] => (nodes, none)
  | index, child :: rest =>
    match nodes[child]? with
    | none => adoptAll nodes label (index + 1) rest
    | some node =>
      if node.parent.isSome then (nodes, some node)
      else
        adoptAll (nodes.setIfInBounds child { node with parent := some label, index := index })
          label (index + 1) rest

theorem size_adoptAll (nodes : Array ForestNode) (label index : Nat) (children : List Nat) :
    (adoptAll nodes label index children).1.size = nodes.size := by
  induction children generalizing nodes index with
  | nil => rfl
  | cons child rest ih =>
    unfold adoptAll
    split
    · exact ih _ _
    · split
      · rfl
      · rw [ih]
        exact Array.size_setIfInBounds

/-- Adoption by a newer node keeps labels ascending. -/
theorem ascending_adoptAll {nodes : Array ForestNode} (ascending : Ascending nodes)
    {label index : Nat} {children : List Nat} (newer : ∀ child ∈ children, child < label) :
    Ascending (adoptAll nodes label index children).1 := by
  induction children generalizing nodes index with
  | nil => exact ascending
  | cons child rest ih =>
    have later : ∀ other ∈ rest, other < label :=
      fun other member => newer other (List.mem_cons_of_mem _ member)
    unfold adoptAll
    split
    · exact ih ascending later
    · next node found =>
      split
      · exact ascending
      · apply ih _ later
        intro place changed at_place
        rw [Array.getElem?_setIfInBounds] at at_place
        split at at_place
        · next same =>
          subst same
          split at at_place
          · injection at_place with equal
            subst equal
            refine ⟨?_, (ascending child node found).2⟩
            intro above member
            have equal : label = above := by simpa using member
            subst equal
            exact newer child List.mem_cons_self
          · cases at_place
        · exact ascending place changed at_place

/-- What constructing a node gives: the forest after it, the label of the node, and
the child that refused, if one did. -/
structure Construction where
  forest : Forest
  label : Nat
  refused : Option ForestNode

namespace Forest

/-- A forest without nodes. -/
def empty : Forest := {}

/-- The number of nodes. -/
def size (forest : Forest) : Nat := forest.nodes.size

/-- A further node stands above those that exist. -/
theorem ascending_push (forest : Forest) {node : ForestNode} (root : node.parent = none)
    (known : ∀ child ∈ node.children, child < forest.size) :
    Ascending (forest.nodes.push node) := by
  intro label found at_label
  rw [Array.getElem?_push] at at_label
  split at at_label
  · next last =>
    injection at_label with equal
    subst equal last
    refine ⟨?_, known⟩
    intro above member
    rw [root] at member
    cases member
  · exact forest.ascending label found at_label

/-- Constructs a node over the given children.  The node exists afterwards even if
a child refuses.  Labels that no node has are left out of the children. -/
def construct (forest : Forest) (kind : String) (children : List Nat)
    (startByte endByte : Int := 0) : Construction :=
  let known := children.filter (· < forest.size)
  have all_known : ∀ child ∈ known, child < forest.size := by
    intro child member
    exact of_decide_eq_true (List.mem_filter.mp member).2
  let node : ForestNode := { kind, children := known, startByte, endByte }
  have pushed : Ascending (forest.nodes.push node) := forest.ascending_push rfl all_known
  let outcome := adoptAll (forest.nodes.push node) forest.size 0 known
  have adopted : Ascending outcome.1 := ascending_adoptAll pushed all_known
  ⟨⟨outcome.1, adopted⟩, forest.size, outcome.2⟩

/-- A construction adds one node, whether it fails or not. -/
theorem size_construct (forest : Forest) (kind : String) (children : List Nat)
    (startByte endByte : Int) :
    (forest.construct kind children startByte endByte).forest.size = forest.size + 1 := by
  simp [construct, size, size_adoptAll]

/-- The wording for a child that refuses. -/
def refusalMessage (child : ForestNode) : String :=
  "node " ++ Text.quote child.kind ++ " already has a parent"

/-! ## Reading a forest -/

/-- The node with a label. -/
def node? (forest : Forest) (label : Nat) : Option ForestNode := forest.nodes[label]?

def kind (forest : Forest) (label : Nat) : String :=
  ((forest.node? label).map ForestNode.kind).getD ""

def parent (forest : Forest) (label : Nat) : Option Nat :=
  (forest.node? label).bind ForestNode.parent

def children (forest : Forest) (label : Nat) : List Nat :=
  ((forest.node? label).map ForestNode.children).getD []

def index (forest : Forest) (label : Nat) : Nat :=
  ((forest.node? label).map ForestNode.index).getD 0

/-- The range of bytes of a node in its source. -/
def byteRange (forest : Forest) (label : Nat) : Int × Int :=
  ((forest.node? label).map fun node => (node.startByte, node.endByte)).getD (0, 0)

/-- The text of a node. -/
def describe (forest : Forest) (label : Nat) : String :=
  "SimpleNode(" ++ Text.quote (forest.kind label) ++
    s!", children={(forest.children label).length})"

theorem lt_parent (forest : Forest) {label above : Nat}
    (up : forest.parent label = some above) : label < above ∧ label < forest.size := by
  rw [parent, Option.bind_eq_some_iff] at up
  obtain ⟨node, found, has_parent⟩ := up
  refine ⟨(forest.ascending label node found).1 above has_parent, ?_⟩
  exact (Array.getElem?_eq_some_iff.mp found).1

theorem child_lt (forest : Forest) {label below : Nat}
    (down : below ∈ forest.children label) : below < label := by
  rw [children] at down
  cases found : forest.node? label with
  | none => simp [found] at down
  | some node =>
    rw [found] at down
    exact (forest.ascending label node found).2 below down

/-- The nodes of a forest, each its own key. -/
def view (forest : Forest) : TreeView Nat where
  kind := forest.kind
  parent := forest.parent
  children := forest.children
  index := forest.index
  key := fun label => label
  height := fun label => forest.size - label
  depth := fun label => label
  height_parent := by
    intro label above up
    have bounds := forest.lt_parent up
    omega
  depth_child := by
    intro label below down
    exact forest.child_lt down

end Forest

/-! ## Shapes -/

/-- A tree as a description states it: kinds, byte ranges and nesting. -/
inductive Shape where
  | node (kind : String) (startByte endByte : Int) (children : List Shape)

instance : Inhabited Shape := ⟨.node "" 0 0 []⟩

mutual

/-- Constructs a tree of the given shape, children first; its root is the node
constructed last. -/
def Forest.plant (forest : Forest) : Shape → Construction
  | .node kind startByte endByte children =>
    let (grown, labels) := Forest.plantAll forest children
    grown.construct kind labels startByte endByte

/-- Constructs trees of the given shapes, and lists their roots. -/
def Forest.plantAll (forest : Forest) : List Shape → Forest × List Nat
  | [] => (forest, [])
  | shape :: rest =>
    let planted := Forest.plant forest shape
    let (grown, labels) := Forest.plantAll planted.forest rest
    (grown, planted.label :: labels)

end

end TreeStyle
