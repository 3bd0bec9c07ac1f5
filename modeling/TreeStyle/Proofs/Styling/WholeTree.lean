import TreeStyle.Proofs.Styling.Cascade
import TreeStyle.Proofs.Tree.Preorder
import TreeStyle.Proofs.Tree.Traversal

/-!
# Whole trees

A whole tree is styled node by node, in pre-order and by one memo.  The memo makes no
difference, so each node has the style that it has alone, and the rules that are found
for it alone make that style.

Main statement: `TreeView.WellFormed.resolveTree_preorder`.
-/

namespace TreeStyle

set_option autoImplicit false

namespace TreeView

variable {Node : Type} {view : TreeView Node} {member : Node → Prop}

/-! ## The rules of a node -/

namespace Keyed

variable (keyed : view.Keyed member)
include keyed

/-- The rules that are found are those of the sheet with a chain that matches. -/
theorem mem_matchingRules_iff (sheet : Stylesheet) {node : Node} (inside : member node)
    (position : Nat) (rule : Rule) :
    (position, rule) ∈ matchingRules view sheet node ↔
      sheet.rules[position]? = some rule ∧
        ∃ chain ∈ rule.selectors, chainMatches view chain node = true := by
  have holds : rule.holds view node = true ↔
      ∃ chain ∈ rule.selectors, chainMatches view chain node = true := by
    simp only [Rule.holds, List.any_eq_true, keyed.chainMatches_eq_holds _ inside]
  rw [keyed.searchable.matchingRules_eq sheet inside, Stylesheet.holding, ← holds,
    ← List.mem_zipIdx_iff_getElem? (x := (rule, position)), List.mem_map]
  constructor
  · rintro ⟨entry, listed, same⟩
    obtain ⟨rfl, rfl⟩ := Prod.mk.inj same
    exact List.mem_filter.mp listed
  · intro listed
    exact ⟨(rule, position), List.mem_filter.mpr listed, rfl⟩

/-- The rules that are found stand in file order. -/
theorem matchingRules_sorted (sheet : Stylesheet) {node : Node} (inside : member node) :
    (matchingRules view sheet node).Pairwise fun first second => first.1 < second.1 := by
  rw [keyed.searchable.matchingRules_eq sheet inside, Stylesheet.holding, List.pairwise_map]
  exact (pairwise_zipIdx sheet.rules).filter _

end Keyed

namespace WellFormed

variable (tree : view.WellFormed member)
include tree

/-- **A whole tree is styled as its nodes are one by one.**  The entries come in pre-order,
which is the order of the positions under the root, and at each position they have the node
there, its distance from the root, and the style that it has alone.  Each node has one
entry.  The loop over a stack visits the nodes in this order, too.  The rules that are
found for a node alone are those of the sheet with a chain that matches it, in file order,
and what they state, merged one after the other into the empty style, is the style of the
node. -/
theorem resolveTree_preorder (sheet : Stylesheet) (theme : Theme) {root : Node}
    (inside : member root) :
    let entries := resolveTree view sheet theme root
    (∃ paths : List (List Nat), paths.Pairwise (List.Lex (· < ·)) ∧
      (∀ path, path ∈ paths ↔ (view.at? root path).isSome) ∧
      List.Forall₂ (fun path entry => view.at? root path = some entry.node ∧
        entry.distance = path.length ∧
        entry.resolution = resolve view sheet theme entry.node) paths entries) ∧
    (entries.map fun entry => view.key entry.node).Nodup ∧
    view.Visits [(root, 0)] (entries.map fun entry => (entry.node, entry.distance)) ∧
    ∀ entry ∈ entries,
      let rules := matchingRules view sheet entry.node
      rules.Pairwise (fun first second => first.1 < second.1) ∧
      (∀ position rule, (position, rule) ∈ rules ↔ sheet.rules[position]? = some rule ∧
        ∃ chain ∈ rule.selectors, chainMatches view chain entry.node = true) ∧
      entry.resolution.style =
        (rules.filterMap fun entry => entry.2.declaration.style? theme).foldl Style.merge {} := by
  intro entries
  have searchable := tree.toKeyed.searchable
  have walked := tree.walk_mem inside 0
  have alone : entries = (view.walk root).map fun entry =>
      ⟨entry.1, entry.2, resolve view sheet theme entry.1⟩ := by
    refine (searchable.resolveTree_eq sheet theme walked).trans (List.map_congr_left ?_)
    intro entry listed
    rw [searchable.resolve_eq sheet theme (walked entry listed)]
  rw [alone]
  refine ⟨⟨view.positions root, view.positions_sorted root, view.mem_positions_iff root, ?_⟩,
    ?_, ?_, ?_⟩
  · rw [List.forall₂_map_right_iff]
    refine (view.walk_positions root 0).imp ?_
    intro path entry here
    exact ⟨here.1, here.2.trans (Nat.zero_add _), rfl⟩
  · rw [List.map_map]
    exact tree.nodup_walk inside 0
  · rw [visits_root_iff, List.map_map]
    exact List.map_id _
  · intro entry listed
    obtain ⟨⟨node, distance⟩, visited, rfl⟩ := List.mem_map.mp listed
    have nodeInside := walked _ visited
    refine ⟨tree.toKeyed.matchingRules_sorted sheet nodeInside,
      tree.toKeyed.mem_matchingRules_iff sheet nodeInside, ?_⟩
    exact resolve_style_eq_foldl view sheet theme node

end WellFormed

end TreeView

/-- A block is styled before its comment and its string, each by its own rules. -/
theorem Forest.block_resolveTree :
    let nested : Rule :=
      ⟨[⟨"block", [(.child, "string")]⟩],
        .properties ⟨{ fg := some (.named .red) }, rfl⟩, by decide⟩
    let missing : Rule := ⟨[⟨"string", []⟩, ⟨"block", []⟩], .highlight .string, by decide⟩
    let entries := resolveTree block.view ⟨[nested, missing]⟩ {} 2
    entries.map (fun entry => (entry.node, entry.distance)) = [(2, 0), (0, 1), (1, 1)] ∧
      (entries.map fun entry => block.view.key entry.node).Nodup ∧
      ∀ entry ∈ entries, ∀ position rule,
        (position, rule) ∈ matchingRules block.view ⟨[nested, missing]⟩ entry.node ↔
          [nested, missing][position]? = some rule ∧
            ∃ chain ∈ rule.selectors, chainMatches block.view chain entry.node = true := by
  intro nested missing entries
  obtain ⟨_, once, visits, rules⟩ :=
    wellFormed_block.resolveTree_preorder ⟨[nested, missing]⟩ {} (show 2 < 3 by decide)
  refine ⟨?_, once, fun entry listed => (rules entry listed).2.1⟩
  have top : block.view.children 2 = [0, 1] := by decide
  have comment : block.view.children 0 = [] := by decide
  have string : block.view.children 1 = [] := by decide
  rw [(block.view.visits_root_iff 2 _).mp visits, TreeView.walk_eq, top, List.flatMap_cons,
    List.flatMap_cons, List.flatMap_nil, TreeView.walk_eq _ 0, comment, TreeView.walk_eq _ 1,
    string]
  rfl

end TreeStyle
