import TreeStyle.Proofs.Styling.Resemblance
import TreeStyle.Proofs.Tree.Planting
import TreeStyle.Tree.Handle

/-!
# Nodes in memory and handles on foreign nodes

One tree may be planted in memory, and it may be reached in another library through
handles.  Nodes in memory store their links and places.  Handles are made anew by every
step; one that comes from the children of its parent knows its place, and any other one
looks for its node by the identifier.

If the identifiers tell the nodes apart and the foreign links go both ways
(`ForeignTree.Represents`), a handle finds the place at which its node stands
(`ForeignTree.Wraps.index_eq`).  So a node in memory and any handle on the node at the same
position have the same kind and the same place, and their parents and children stand at
the same positions (`ForeignTree.Represents.mirrors`).  All other answers follow from that.

Main statements: `ForeignTree.Represents.wellFormed` and
`ForeignTree.Represents.corresponds_plant`.
-/

namespace TreeStyle

set_option autoImplicit false

namespace ForeignTree

/-! ## Foreign trees -/

/-- A foreign tree of the given shape, with links both ways and with identifiers that tell
its nodes apart. -/
structure Represents (foreign : ForeignTree) (base : Nat) (shape : Shape) : Prop where
  shows : foreign.forest.view.Shows base shape
  rooted : foreign.forest.view.Rooted base
  distinct : ∀ {path other : List Nat} {node image : Nat},
    foreign.forest.view.at? base path = some node →
      foreign.forest.view.at? base other = some image →
        foreign.identifier node = foreign.identifier image → path = other

/-- Every shape is that of a foreign tree: a planted one with an identifier for each node. -/
theorem represents_of_plants {before after : Forest} {shape : Shape} {label : Nat}
    (plants : before.Plants shape after label) {identifier : Nat → Int}
    (injective : ∀ {node image}, identifier node = identifier image → node = image) :
    Represents ⟨after, identifier⟩ label shape := by
  refine ⟨plants.holds.shows, plants.rooted, ?_⟩
  intro path other node image here otherHere same
  obtain rfl := injective same
  exact plants.rooted.position_unique (fun above found => (plants.holds.linked above found).2)
    here otherHere

/-! ## Handles -/

/-- A handle on the node at a position.  Its place is not known, or it is the place among
the children of the parent. -/
structure Wraps (foreign : ForeignTree) (base : Nat) (path : List Nat) (handle : Handle) :
    Prop where
  here : foreign.forest.view.at? base path = some handle.node
  place : ∀ place ∈ handle.place, place = path.getLastD 0

/-- The handles on the nodes of a tree. -/
def IsHandle (foreign : ForeignTree) (base : Nat) (handle : Handle) : Prop :=
  ∃ path, foreign.Wraps base path handle

variable {foreign : ForeignTree} {base : Nat} {path : List Nat}

theorem Wraps.of_fresh {label : Nat} (here : foreign.forest.view.at? base path = some label) :
    foreign.Wraps base path { node := label } :=
  ⟨here, fun _ unknown => by cases unknown⟩

theorem getElem?_children (handle : Handle) (place : Nat) :
    (foreign.children handle)[place]? =
      (foreign.forest.children handle.node)[place]?.map fun child =>
        { node := child, place := some place } := by
  unfold children
  rw [List.getElem?_map, List.getElem?_zipIdx, Option.map_map, Nat.zero_add]
  rfl

/-- The children of a handle are handles on the nodes below, with their places. -/
theorem Wraps.child {handle child : Handle} {place : Nat} (wraps : foreign.Wraps base path handle)
    (found : (foreign.children handle)[place]? = some child) :
    foreign.Wraps base (path ++ [place]) child := by
  rw [getElem?_children, Option.map_eq_some_iff] at found
  obtain ⟨label, listed, rfl⟩ := found
  refine ⟨TreeView.at?_concat_eq_some_iff.mpr ⟨handle.node, wraps.here, listed⟩, ?_⟩
  intro known same
  cases same
  rw [List.getLastD_concat]

section Represented

variable {shape : Shape} (represents : foreign.Represents base shape)
include represents

theorem Wraps.parent_of_root {handle : Handle} (wraps : foreign.Wraps base [] handle) :
    foreign.parent handle = none := by
  have same : base = handle.node := Option.some.inj wraps.here
  have root : foreign.forest.parent handle.node = none := same ▸ represents.rooted.parent_root
  rw [parent, root, Option.map_none]

/-- The parent of a handle is a handle on the node above, without a place. -/
theorem Wraps.parent_of_concat {handle : Handle} {place : Nat}
    (wraps : foreign.Wraps base (path ++ [place]) handle) :
    ∃ above, foreign.parent handle = some above ∧ foreign.Wraps base path above := by
  obtain ⟨above, aboveHere, _, up⟩ := represents.rooted.parent_concat wraps.here
  have parent : foreign.forest.parent handle.node = some above := up
  exact ⟨{ node := above }, by rw [ForeignTree.parent, parent, Option.map_some],
    .of_fresh aboveHere⟩

/-- A handle with a parent is on a node below the node of the parent. -/
theorem Wraps.exists_concat {handle above : Handle} (wraps : foreign.Wraps base path handle)
    (up : foreign.view.parent handle = some above) :
    ∃ front place, path = front ++ [place] ∧ foreign.Wraps base front above := by
  rcases List.eq_nil_or_concat' path with rfl | ⟨front, place, rfl⟩
  · have root : foreign.view.parent handle = none := wraps.parent_of_root represents
    rw [root] at up
    cases up
  · obtain ⟨upper, parent, upperWraps⟩ := wraps.parent_of_concat represents
    obtain rfl : upper = above := Option.some.inj (parent.symm.trans up)
    exact ⟨front, place, rfl, upperWraps⟩

/-- A node stands first among its siblings with its identifier. -/
theorem Represents.findIdx_eq {above label place : Nat}
    (aboveHere : foreign.forest.view.at? base path = some above)
    (listed : (foreign.forest.children above)[place]? = some label) :
    ((foreign.forest.children above).findIdx fun child =>
      foreign.identifier child == foreign.identifier label) = place := by
  obtain ⟨bound, entry⟩ := List.getElem?_eq_some_iff.mp listed
  have position {before : Nat} (less : before < (foreign.forest.children above).length) :
      foreign.forest.view.at? base (path ++ [before]) =
        some (foreign.forest.children above)[before] :=
    TreeView.at?_concat_eq_some_iff.mpr ⟨above, aboveHere, List.getElem?_eq_getElem less⟩
  refine (List.findIdx_eq bound).mpr ⟨by rw [entry, beq_self_eq_true], ?_⟩
  intro before earlier
  refine beq_eq_false_iff_ne.mpr fun same => ?_
  rw [← entry] at same
  have positions :=
    represents.distinct (position (Nat.lt_trans earlier bound)) (position bound) same
  have places : before = place := by simpa using positions
  omega

/-- **A handle finds the place at which its node stands**, whether it knows the place or
looks for the identifier. -/
theorem Wraps.index_eq {handle : Handle} (wraps : foreign.Wraps base path handle) :
    foreign.index handle = path.getLastD 0 := by
  obtain ⟨label, known⟩ := handle
  unfold index
  cases known with
  | some place => exact wraps.place place rfl
  | none =>
    rcases List.eq_nil_or_concat' path with rfl | ⟨front, place, rfl⟩
    · have root : foreign.forest.parent label = none :=
        Option.map_eq_none_iff.mp (wraps.parent_of_root represents)
      simp only [root]
      rfl
    · obtain ⟨above, aboveHere, listed, up⟩ := represents.rooted.parent_concat wraps.here
      have parent : foreign.forest.parent label = some above := up
      simp only [parent, List.getLastD_concat]
      exact represents.findIdx_eq aboveHere listed

/-- **Handles with the same identifier are handles on one node**, and say the same. -/
theorem Represents.keyed : foreign.view.Keyed (foreign.IsHandle base) := by
  refine ⟨?_, ?_, ?_⟩
  · rintro handle above ⟨path, wraps⟩ up
    obtain ⟨front, _, _, aboveWraps⟩ := wraps.exists_concat represents up
    exact ⟨front, aboveWraps⟩
  · rintro handle below ⟨path, wraps⟩ listed
    obtain ⟨place, found⟩ := List.mem_iff_getElem?.mp listed
    exact ⟨path ++ [place], wraps.child found⟩
  · rintro left right ⟨path, wraps⟩ ⟨other, otherWraps⟩ same
    obtain rfl := represents.distinct wraps.here otherWraps.here same
    have node : left.node = right.node := Option.some.inj (wraps.here.symm.trans otherWraps.here)
    constructor
    · exact congrArg foreign.forest.kind node
    · exact (wraps.index_eq represents).trans (otherWraps.index_eq represents).symm
    · refine congrArg (Option.map foreign.view.key) ?_
      change foreign.parent left = foreign.parent right
      rw [parent, parent, node]
    · refine congrArg (List.map foreign.view.key) ?_
      change foreign.children left = foreign.children right
      rw [children, children, node]

/-- **A foreign tree is well-formed**, so what holds of well-formed trees holds of handles. -/
theorem Represents.wellFormed : foreign.view.WellFormed (foreign.IsHandle base) := by
  refine ⟨represents.keyed, ?_, ?_, ?_⟩
  · rintro handle above ⟨path, wraps⟩ up
    obtain ⟨front, place, rfl, aboveWraps⟩ := wraps.exists_concat represents up
    have index : foreign.view.index handle = place :=
      (wraps.index_eq represents).trans List.getLastD_concat
    have found : (foreign.forest.children above.node)[place]? = some handle.node :=
      (TreeView.at?_concat aboveWraps.here place).symm.trans wraps.here
    have entry := (getElem?_children above place).trans (congrArg (Option.map _) found)
    rw [index]
    exact TreeView.listsAt_iff.mpr ⟨_, entry, rfl⟩
  · rintro above child place ⟨path, wraps⟩ found
    obtain ⟨upper, parent, upperWraps⟩ := (wraps.child found).parent_of_concat represents
    have node : upper.node = above.node := Option.some.inj (upperWraps.here.symm.trans wraps.here)
    have key : foreign.view.key upper = foreign.view.key above := congrArg foreign.identifier node
    calc (foreign.view.parent child).map foreign.view.key
        = (some upper).map foreign.view.key := congrArg (Option.map foreign.view.key) parent
      _ = some (foreign.view.key above) := congrArg some key
  · rintro above child place ⟨path, wraps⟩ found
    exact ((wraps.child found).index_eq represents).trans List.getLastD_concat

end Represented

/-! ## The same position -/

/-- A node in memory and a handle on the foreign node at the same position. -/
def SamePosition (planted : Construction) (foreign : ForeignTree) (base node : Nat)
    (handle : Handle) : Prop :=
  ∃ path, planted.forest.view.at? planted.label path = some node ∧ foreign.Wraps base path handle

section TwoTrees

variable {shape : Shape} (represents : foreign.Represents base shape) {start : Forest}
  {planted : Construction} (plants : start.Plants shape planted.forest planted.label)
include represents plants

/-- **The nodes and the handles at the same positions are linked alike.** -/
theorem Represents.mirrors :
    planted.forest.view.Mirrors foreign.view (SamePosition planted foreign base) := by
  have positions := plants.holds.shows.same_kind represents.shows
  constructor
  · rintro node handle ⟨path, here, wraps⟩
    have kinds := positions path
    rw [here, wraps.here] at kinds
    cases kinds with
    | some kind => exact kind
  · rintro node handle ⟨path, here, wraps⟩
    exact (plants.index_eq here).trans (wraps.index_eq represents).symm
  · rintro node handle ⟨path, here, wraps⟩
    refine optionRel_iff.mpr ?_
    rcases List.eq_nil_or_concat' path with rfl | ⟨front, place, rfl⟩
    · cases here
      exact .inl ⟨plants.orphan, wraps.parent_of_root represents⟩
    · obtain ⟨above, aboveHere, _, up⟩ := plants.rooted.parent_concat here
      obtain ⟨upper, parent, upperWraps⟩ := wraps.parent_of_concat represents
      exact .inr ⟨above, upper, up, parent, front, aboveHere, upperWraps⟩
  · rintro node handle ⟨path, here, wraps⟩
    refine forall₂_iff_getElem?.mpr fun place => optionRel_iff.mpr ?_
    have entries := positions (path ++ [place])
    rw [TreeView.at?_concat here, TreeView.at?_concat wraps.here] at entries
    rcases optionRel_iff.mp entries with ⟨none, otherNone⟩ | ⟨child, image, found, otherFound, _⟩
    · have noEntry := (getElem?_children handle place).trans (congrArg (Option.map _) otherNone)
      exact .inl ⟨none, noEntry⟩
    · have entry := (getElem?_children handle place).trans (congrArg (Option.map _) otherFound)
      exact .inr ⟨child, _, found, entry, path ++ [place],
        (TreeView.at?_concat here place).trans found, wraps.child entry⟩

end TwoTrees

/-- **Nodes in memory and handles on foreign nodes agree.**  A shape can be planted in
memory, and it has one node and one handle at least at each of its positions.  A node and
any handle at the same position, whether the handle knows its place or not, have links and
places to the same positions, are walked alike, and are matched and styled alike. -/
theorem Represents.corresponds_plant {shape : Shape} (represents : foreign.Represents base shape)
    (start : Forest) :
    (start.plant shape).refused = none ∧
    (∀ {path : List Nat} {part : Shape}, shape.at? path = some part →
      ∃ node handle,
        (start.plant shape).forest.view.at? (start.plant shape).label path = some node ∧
        foreign.Wraps base path handle ∧ (start.plant shape).forest.kind node = part.kind) ∧
    (∀ {path : List Nat} {node : Nat} {handle : Handle},
      (start.plant shape).forest.view.at? (start.plant shape).label path = some node →
      foreign.Wraps base path handle →
        foreign.index handle = path.getLastD 0 ∧
        (start.plant shape).forest.view.Corresponds foreign.view
          (SamePosition (start.plant shape) foreign base)
          ((start.plant shape).forest.view.IsUnder (start.plant shape).label)
          (foreign.IsHandle base) node handle) := by
  obtain ⟨accepted, plants⟩ := Forest.plant_plants start shape
  refine ⟨accepted, ?_, ?_⟩
  · intro path part there
    have kinds := plants.holds.shows path
    have otherKinds := represents.shows path
    rw [there, Option.map_some, Option.map_eq_some_iff] at kinds otherKinds
    obtain ⟨node, here, kind⟩ := kinds
    obtain ⟨label, otherHere, _⟩ := otherKinds
    exact ⟨node, { node := label }, here, .of_fresh otherHere, kind⟩
  · intro path node handle here wraps
    exact ⟨wraps.index_eq represents,
      (represents.mirrors plants).corresponds plants.wellFormed.toKeyed represents.keyed
        ⟨path, here, wraps⟩ ⟨path, here⟩ ⟨path, wraps⟩⟩

end ForeignTree

/-- The block in another library, where identifiers are multiples of eight. -/
def ForeignTree.block : ForeignTree := ⟨Forest.block, fun label => 8 * label⟩

/-- The string in a block in memory and a handle on the string that does not know its
place. -/
theorem ForeignTree.block_corresponds :
    ForeignTree.block.index { node := 1 } = 1 ∧
    Forest.block.view.Corresponds ForeignTree.block.view
      (SamePosition ⟨Forest.block, 2, none⟩ ForeignTree.block 2) (Forest.block.view.IsUnder 2)
      (ForeignTree.block.IsHandle 2) 1 { node := 1 } := by
  have represents : ForeignTree.block.Represents 2
      (.node "block" 0 0 [.node "comment" 0 0 [], .node "string" 0 0 []]) :=
    represents_of_plants (Forest.plant_plants Forest.empty _).2 fun same => by omega
  have here : Forest.block.view.at? 2 [1] = some 1 := by decide
  exact (represents.corresponds_plant Forest.empty).2.2 here (.of_fresh here)

end TreeStyle
