import TreeStyle.Proofs.Styling.Pass
import TreeStyle.Proofs.Tree.Positions

/-!
# Trees that look alike

A chain asks a node for its kind and for its candidates, and the candidates for theirs.
So nodes of two trees are alike to every chain if a relation holds of them that preserves
kinds and candidates (`TreeView.Resembles`).  The relation need not say anything about
the rest of the trees.

If it preserves parents, children and places (`TreeView.Mirrors`), it preserves the
candidates of every combinator, and walks as well.

Main statements: `TreeView.Resembles.alike`, `TreeView.Mirrors.walk` and
`TreeView.Mirrors.corresponds`.
-/

namespace TreeStyle

set_option autoImplicit false

variable {Node Other : Type}

/-! ## Related lists -/

theorem any_eq_of_forall₂ {same : Node → Other → Prop} {nodes : List Node} {others : List Other}
    (pairs : List.Forall₂ same nodes others) {test : Node → Bool} {otherTest : Other → Bool}
    (agree : ∀ {node other}, same node other → test node = otherTest other) :
    nodes.any test = others.any otherTest := by
  induction pairs with
  | nil => rfl
  | cons pair _ ih => rw [List.any_cons, List.any_cons, agree pair, ih]

namespace TreeView

/-! ## What a chain sees -/

/-- No chain, no stylesheet and no base theme tells a node from a node of another tree. -/
structure Alike (view : TreeView Node) (other : TreeView Other) (node : Node) (image : Other) :
    Prop where
  chainMatches : ∀ chain, chainMatches view chain node = chainMatches other chain image
  matchingRules : ∀ sheet, matchingRules view sheet node = matchingRules other sheet image
  resolve : ∀ sheet theme, resolve view sheet theme node = resolve other sheet theme image

/-- No question about a sheet tells the nodes from each other if one is asked with the one
memo, and one with the other. -/
structure AlikeByMemos (view : TreeView Node) (other : TreeView Other) (sheet : Stylesheet)
    (memo otherMemo : Memo) (node : Node) (image : Other) : Prop where
  matchesWith : ∀ place chain, sheet.Lists place chain →
    (matchesWith view place chain node memo).1 = (matchesWith other place chain image otherMemo).1
  matchingRulesWith :
    (matchingRulesWith view sheet node memo).1 = (matchingRulesWith other sheet image otherMemo).1
  resolveWith : ∀ theme,
    (resolveWith view sheet theme node memo).1 = (resolveWith other sheet theme image otherMemo).1

/-- A relation that preserves what a chain sees of a node: its kind, and its candidates
one by one. -/
structure Resembles (view : TreeView Node) (other : TreeView Other)
    (same : Node → Other → Prop) : Prop where
  kind : ∀ {node image}, same node image → view.kind node = other.kind image
  related : ∀ (combinator : Combinator) {node image}, same node image →
    List.Forall₂ same (view.related combinator node) (other.related combinator image)

namespace Resembles

variable {view : TreeView Node} {other : TreeView Other} {same : Node → Other → Prop}
  (resembles : view.Resembles other same)
include resembles

theorem holdsFrom_eq (atom : String) (left : List (Combinator × String)) {node : Node}
    {image : Other} (pair : same node image) :
    holdsFrom view atom left node = holdsFrom other atom left image := by
  induction left generalizing atom node image with
  | nil => rw [holdsFrom, holdsFrom, resembles.kind pair]
  | cons link left ih =>
    obtain ⟨combinator, before⟩ := link
    rw [holdsFrom, holdsFrom, resembles.kind pair,
      any_eq_of_forall₂ (resembles.related combinator pair) (ih before)]

/-- **Nodes that resemble each other are alike to every chain.** -/
theorem holds_eq (chain : Chain) {node : Node} {image : Other} (pair : same node image) :
    chain.holds view node = chain.holds other image :=
  resembles.holdsFrom_eq _ _ pair

theorem holding_eq (sheet : Stylesheet) {node : Node} {image : Other} (pair : same node image) :
    sheet.holding view node = sheet.holding other image := by
  have rules (rule : Rule) : rule.holds view node = rule.holds other image := by
    unfold Rule.holds
    congr 1
    funext chain
    exact resembles.holds_eq chain pair
  unfold Stylesheet.holding
  simp only [rules]

theorem resolution_eq (sheet : Stylesheet) (theme : Theme) {node : Node} {image : Other}
    (pair : same node image) :
    sheet.resolution view theme node = sheet.resolution other theme image := by
  unfold Stylesheet.resolution
  rw [resembles.holding_eq sheet pair, resembles.kind pair]

/-- **Nodes that resemble each other are matched and styled alike.** -/
theorem alike {member : Node → Prop} {otherMember : Other → Prop}
    (searchable : view.Searchable member) (otherSearchable : other.Searchable otherMember)
    {node : Node} {image : Other} (pair : same node image) (inside : member node)
    (otherInside : otherMember image) : view.Alike other node image := by
  constructor
  · intro chain
    rw [searchable.chainMatches_eq_holds chain inside,
      otherSearchable.chainMatches_eq_holds chain otherInside, resembles.holds_eq chain pair]
  · intro sheet
    rw [searchable.matchingRules_eq sheet inside,
      otherSearchable.matchingRules_eq sheet otherInside, resembles.holding_eq sheet pair]
  · intro sheet theme
    rw [searchable.resolve_eq sheet theme inside,
      otherSearchable.resolve_eq sheet theme otherInside, resembles.resolution_eq sheet theme pair]

/-- **The memos of passes make no difference** between nodes that resemble each other. -/
theorem alikeByMemos {member : Node → Prop} {otherMember : Other → Prop}
    (searchable : view.Searchable member) (otherSearchable : other.Searchable otherMember)
    {sheet : Stylesheet} {memo otherMemo : Memo} (pass : memo.OfPass view member sheet)
    (otherPass : otherMemo.OfPass other otherMember sheet) {node : Node} {image : Other}
    (pair : same node image) (inside : member node) (otherInside : otherMember image) :
    view.AlikeByMemos other sheet memo otherMemo node image := by
  have sound := searchable.sound_of_pass pass
  have otherSound := otherSearchable.sound_of_pass otherPass
  have kept := searchable.matchesWith_preserves sheet inside
  have otherKept := otherSearchable.matchesWith_preserves sheet otherInside
  have right := searchable.matchesWith_answers sheet inside
  have otherRight := otherSearchable.matchesWith_answers sheet otherInside
  constructor
  · intro place chain listed
    rw [right place chain listed memo sound, otherRight place chain listed otherMemo otherSound,
      resembles.holds_eq chain pair]
  · rw [matchingRulesWith_eq kept right sound, matchingRulesWith_eq otherKept otherRight otherSound,
      resembles.holding_eq sheet pair]
  · intro theme
    rw [resolveWith_eq kept right theme sound, resolveWith_eq otherKept otherRight theme otherSound,
      resembles.resolution_eq sheet theme pair]

end Resembles

/-! ## What a tree consists of -/

/-- A relation that preserves kinds, places, parents and children. -/
structure Mirrors (view : TreeView Node) (other : TreeView Other)
    (same : Node → Other → Prop) : Prop where
  kind : ∀ {node image}, same node image → view.kind node = other.kind image
  index : ∀ {node image}, same node image → view.index node = other.index image
  parent : ∀ {node image}, same node image →
    Option.Rel same (view.parent node) (other.parent image)
  children : ∀ {node image}, same node image →
    List.Forall₂ same (view.children node) (other.children image)

namespace Mirrors

variable {view : TreeView Node} {other : TreeView Other} {same : Node → Other → Prop}
  (mirrors : view.Mirrors other same)
include mirrors

/-- Related nodes are both roots, or their parents are related. -/
theorem parents {node : Node} {image : Other} (pair : same node image) :
    (view.parent node = none ∧ other.parent image = none) ∨
      ∃ above upper, view.parent node = some above ∧ other.parent image = some upper ∧
        same above upper :=
  optionRel_iff.mp (mirrors.parent pair)

theorem previousSiblings {node : Node} {image : Other} (pair : same node image) :
    List.Forall₂ same (view.previousSiblings node) (other.previousSiblings image) := by
  unfold TreeView.previousSiblings
  rcases mirrors.parents pair with ⟨root, otherRoot⟩ | ⟨above, upper, up, otherUp, abovePair⟩
  · rw [root, otherRoot]
    exact .nil
  · rw [up, otherUp, mirrors.index pair]
    exact List.rel_reverse (List.forall₂_take _ (mirrors.children abovePair))

theorem ancestors {node : Node} {image : Other} (pair : same node image) :
    List.Forall₂ same (view.ancestors node) (other.ancestors image) := by
  induction size : view.height node using Nat.strongRecOn generalizing node image with
  | ind size ih =>
    rcases mirrors.parents pair with ⟨root, otherRoot⟩ | ⟨above, upper, up, otherUp, abovePair⟩
    · rw [view.ancestors_of_root root, other.ancestors_of_root otherRoot]
      exact .nil
    · rw [view.ancestors_of_parent up, other.ancestors_of_parent otherUp]
      have lower := view.height_parent up
      exact .cons abovePair (ih (view.height above) (by omega) abovePair rfl)

theorem related (combinator : Combinator) {node : Node} {image : Other} (pair : same node image) :
    List.Forall₂ same (view.related combinator node) (other.related combinator image) := by
  cases combinator with
  | descendant => exact mirrors.ancestors pair
  | sibling => exact mirrors.previousSiblings pair
  | child =>
    unfold TreeView.related
    rcases mirrors.parents pair with ⟨root, otherRoot⟩ | ⟨above, upper, up, otherUp, abovePair⟩
    · simp only [root, otherRoot]
      exact .nil
    · simp only [up, otherUp]
      exact .cons abovePair .nil
  | twin =>
    unfold TreeView.related
    rcases mirrors.parents pair with ⟨root, otherRoot⟩ | ⟨above, upper, up, otherUp, abovePair⟩
    · simp only [root, otherRoot]
      exact .nil
    · simp only [up, otherUp, mirrors.index pair]
      cases other.index image with
      | zero => exact .nil
      | succ place =>
        have entries := forall₂_iff_getElem?.mp (mirrors.children abovePair) place
        rcases optionRel_iff.mp entries with ⟨none, otherNone⟩ | ⟨_, _, found, otherFound, entry⟩
        · simp only [none, otherNone]
          exact .nil
        · simp only [found, otherFound]
          exact .cons entry .nil

/-- **A relation that preserves the tree preserves what chains see of it.** -/
theorem resembles : view.Resembles other same := ⟨mirrors.kind, mirrors.related⟩

/-- **Walks from related nodes visit related nodes at the same distances.** -/
theorem walk {node : Node} {image : Other} (pair : same node image) (distance : Nat) :
    List.Forall₂ (fun entry otherEntry => same entry.1 otherEntry.1 ∧ entry.2 = otherEntry.2)
      (view.walk node distance) (other.walk image distance) := by
  induction size : view.depth node using Nat.strongRecOn generalizing node image distance with
  | ind size ih =>
    rw [view.walk_eq, other.walk_eq]
    refine .cons ⟨pair, rfl⟩ (forall₂_flatMap (mirrors.children pair) ?_)
    intro below listed image belowPair
    have lower := view.depth_child listed
    exact ih (view.depth below) (by omega) belowPair (distance + 1) rfl

/-- **Trees under related nodes are styled alike**, node by node. -/
theorem resolveTree {member : Node → Prop} {otherMember : Other → Prop}
    (keyed : view.Keyed member) (otherKeyed : other.Keyed otherMember) (sheet : Stylesheet)
    (theme : Theme) {node : Node} {image : Other} (pair : same node image) (inside : member node)
    (otherInside : otherMember image) :
    List.Forall₂ (fun styled otherStyled => same styled.node otherStyled.node ∧
        styled.distance = otherStyled.distance ∧ styled.resolution = otherStyled.resolution)
      (resolveTree view sheet theme node) (resolveTree other sheet theme image) := by
  rw [keyed.searchable.resolveTree_eq sheet theme (keyed.walk_mem inside 0),
    otherKeyed.searchable.resolveTree_eq sheet theme (otherKeyed.walk_mem otherInside 0),
    List.forall₂_map_left_iff, List.forall₂_map_right_iff]
  refine (mirrors.walk pair 0).imp ?_
  rintro entry otherEntry ⟨entryPair, distance⟩
  exact ⟨entryPair, distance, mirrors.resembles.resolution_eq sheet theme entryPair⟩

end Mirrors

/-- All that is asked about two nodes has the same answer in both trees; nodes in an answer
are the same by a relation. -/
structure Corresponds (view : TreeView Node) (other : TreeView Other)
    (same : Node → Other → Prop) (member : Node → Prop) (otherMember : Other → Prop) (node : Node)
    (image : Other) : Prop where
  kind : view.kind node = other.kind image
  index : view.index node = other.index image
  parent : Option.Rel same (view.parent node) (other.parent image)
  children : List.Forall₂ same (view.children node) (other.children image)
  previousSiblings : List.Forall₂ same (view.previousSiblings node) (other.previousSiblings image)
  ancestors : List.Forall₂ same (view.ancestors node) (other.ancestors image)
  related : ∀ combinator,
    List.Forall₂ same (view.related combinator node) (other.related combinator image)
  walk : List.Forall₂ (fun entry otherEntry => same entry.1 otherEntry.1 ∧ entry.2 = otherEntry.2)
    (view.walk node) (other.walk image)
  alike : view.Alike other node image
  alikeByMemos : ∀ {sheet memo otherMemo}, Memo.OfPass view member sheet memo →
    Memo.OfPass other otherMember sheet otherMemo →
      view.AlikeByMemos other sheet memo otherMemo node image
  resolveTree : ∀ sheet theme,
    List.Forall₂ (fun styled otherStyled => same styled.node otherStyled.node ∧
        styled.distance = otherStyled.distance ∧ styled.resolution = otherStyled.resolution)
      (resolveTree view sheet theme node) (resolveTree other sheet theme image)

/-- **A relation that preserves the tree preserves all that follows from it.** -/
theorem Mirrors.corresponds {view : TreeView Node} {other : TreeView Other}
    {same : Node → Other → Prop} (mirrors : view.Mirrors other same) {member : Node → Prop}
    {otherMember : Other → Prop} (keyed : view.Keyed member) (otherKeyed : other.Keyed otherMember)
    {node : Node} {image : Other} (pair : same node image) (inside : member node)
    (otherInside : otherMember image) :
    view.Corresponds other same member otherMember node image where
  kind := mirrors.kind pair
  index := mirrors.index pair
  parent := mirrors.parent pair
  children := mirrors.children pair
  previousSiblings := mirrors.previousSiblings pair
  ancestors := mirrors.ancestors pair
  related := fun combinator => mirrors.related combinator pair
  walk := mirrors.walk pair 0
  alike := mirrors.resembles.alike keyed.searchable otherKeyed.searchable pair inside otherInside
  alikeByMemos := fun pass otherPass =>
    mirrors.resembles.alikeByMemos keyed.searchable otherKeyed.searchable pass otherPass pair inside
      otherInside
  resolveTree := fun sheet theme =>
    mirrors.resolveTree keyed otherKeyed sheet theme pair inside otherInside

end TreeView

end TreeStyle
