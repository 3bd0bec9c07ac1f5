import TreeStyle.Proofs.Matching.Memo

/-!
# What it means that a chain matches

A chain matches a node if nodes of the tree can be named, one for each atom, the last
one being the node itself, such that each has the kind of its atom and neighbours
stand to each other as the combinator between their atoms says
(`Chain.IsWitness`).

Main statement: `TreeView.WellFormed.chainMatches_iff_exists_witness`.
-/

namespace TreeStyle

set_option autoImplicit false

variable {Node : Type}

/-- Nodes of a tree that stand for the atoms of a chain, the last of them being the given
node. -/
structure Chain.IsWitness (view : TreeView Node) (member : Node → Prop) (chain : Chain)
    (node : Node) (nodes : List Node) : Prop where
  kinds : nodes.map view.kind = chain.atoms
  last : nodes.getLast? = some node
  inside : ∀ other ∈ nodes, member other
  joined : ∀ (place : Nat) (combinator : Combinator) (left right : Node),
    chain.combinators[place]? = some combinator → nodes[place]? = some left →
      nodes[place + 1]? = some right → view.Stands member combinator left right

namespace Chain

theorem atoms_append (first last : String) (links : List (Combinator × String))
    (combinator : Combinator) :
    atoms ⟨first, links ++ [(combinator, last)]⟩ = atoms ⟨first, links⟩ ++ [last] := by
  simp [atoms]

theorem combinators_append (first last : String) (links : List (Combinator × String))
    (combinator : Combinator) :
    combinators ⟨first, links ++ [(combinator, last)]⟩ =
      combinators ⟨first, links⟩ ++ [combinator] := by
  simp [combinators]

namespace IsWitness

variable {view : TreeView Node} {member : Node → Prop}

theorem length_eq {chain : Chain} {node : Node} {nodes : List Node}
    (witness : chain.IsWitness view member node nodes) :
    nodes.length = chain.links.length + 1 := by
  have lengths := congrArg List.length witness.kinds
  simpa [atoms] using lengths

/-- A chain of one atom needs the node alone. -/
theorem first_iff {first : String} {node : Node} {nodes : List Node} :
    IsWitness view member ⟨first, []⟩ node nodes ↔
      nodes = [node] ∧ member node ∧ view.kind node = first := by
  constructor
  · intro witness
    obtain ⟨only, rfl⟩ := List.length_eq_one_iff.mp witness.length_eq
    have same : only = node := by simpa using witness.last
    subst same
    have kind : view.kind only = first := by simpa [atoms] using witness.kinds
    exact ⟨rfl, witness.inside only List.mem_cons_self, kind⟩
  · rintro ⟨rfl, inside, rfl⟩
    refine ⟨rfl, rfl, by simpa using inside, ?_⟩
    intro place combinator left right joint
    simp [combinators] at joint

/-- The number of links is the place of the node itself. -/
theorem getElem?_length {chain : Chain} {node : Node} {nodes : List Node}
    (witness : chain.IsWitness view member node nodes) :
    nodes[chain.links.length]? = some node := by
  have last := witness.last
  rw [List.getLast?_eq_getElem?, witness.length_eq, Nat.add_sub_cancel] at last
  exact last

section Append

variable {first last : String} {links : List (Combinator × String)} {combinator : Combinator}
  {node before : Node} {nodes : List Node}

/-- A witness goes on with a node that the last of its nodes stands on the left of. -/
theorem append (witness : IsWitness view member ⟨first, links⟩ before nodes)
    (inside : member node) (kind : view.kind node = last)
    (stands : view.Stands member combinator before node) :
    IsWitness view member ⟨first, links ++ [(combinator, last)]⟩ node (nodes ++ [node]) := by
  have count : (combinators ⟨first, links⟩).length = links.length := by simp [combinators]
  have length : nodes.length = links.length + 1 := witness.length_eq
  refine ⟨?_, List.getLast?_concat, ?_, ?_⟩
  · rw [List.map_append, witness.kinds, atoms_append, ← kind]
    rfl
  · intro other member
    rcases List.mem_append.mp member with earlier | here
    · exact witness.inside other earlier
    · rw [List.mem_singleton.mp here]
      exact inside
  · intro place other left right joint leftmost next
    rw [combinators_append] at joint
    -- The new joint is the last one; the others are those of the given witness.
    by_cases earlier : place < links.length
    · rw [List.getElem?_append_left (by omega)] at joint leftmost next
      exact witness.joined place _ _ _ joint leftmost next
    · have bound := (List.getElem?_eq_some_iff.mp joint).1
      rw [List.length_append, List.length_singleton, count] at bound
      obtain rfl : place = links.length := by omega
      rw [← count, List.getElem?_concat_length, Option.some.injEq] at joint
      rw [List.getElem?_append_left (by omega), witness.getElem?_length,
        Option.some.injEq] at leftmost
      rw [← length, List.getElem?_concat_length, Option.some.injEq] at next
      subst joint leftmost next
      exact stands

/-- Without its last node, a witness is one for the chain without its last link. -/
theorem exists_of_append
    (witness : IsWitness view member ⟨first, links ++ [(combinator, last)]⟩ node nodes) :
    view.kind node = last ∧ ∃ before others, view.Stands member combinator before node ∧
      IsWitness view member ⟨first, links⟩ before others := by
  have count : (combinators ⟨first, links⟩).length = links.length := by simp [combinators]
  obtain ⟨others, rfl⟩ := List.getLast?_eq_some_iff.mp witness.last
  have parted := witness.kinds
  rw [List.map_append, atoms_append] at parted
  obtain ⟨kinds, kind⟩ := List.append_inj' parted rfl
  have length : others.length = links.length + 1 := by
    have lengths := congrArg List.length kinds
    simpa [atoms] using lengths
  obtain ⟨before, final⟩ : ∃ before, others[links.length]? = some before :=
    ⟨_, List.getElem?_eq_getElem (by omega)⟩
  refine ⟨by simpa using kind, before, others, ?_, kinds, ?_, ?_, ?_⟩
  · refine witness.joined links.length _ _ _ ?_ ?_ ?_
    · rw [combinators_append, ← count, List.getElem?_concat_length]
    · rw [List.getElem?_append_left (by omega), final]
    · rw [← length, List.getElem?_concat_length]
  · rw [List.getLast?_eq_getElem?, length, Nat.add_sub_cancel, final]
  · exact fun other member => witness.inside other (List.mem_append_left _ member)
  · intro place other left right joint leftmost next
    have bound := (List.getElem?_eq_some_iff.mp next).1
    refine witness.joined place _ _ _ ?_ ?_ ?_
    · rw [combinators_append, List.getElem?_append_left (by omega), joint]
    · rw [List.getElem?_append_left (by omega), leftmost]
    · rw [List.getElem?_append_left bound, next]

end Append

end IsWitness

end Chain

namespace TreeView.WellFormed

variable {view : TreeView Node} {member : Node → Prop}

/-- What a chain says of a node is that there is a witness. -/
theorem holds_iff_exists_witness (tree : view.WellFormed member) (first : String)
    (links : List (Combinator × String)) {node : Node} (inside : member node) :
    Chain.holds view ⟨first, links⟩ node = true ↔
      ∃ nodes, Chain.IsWitness view member ⟨first, links⟩ node nodes := by
  -- The recursion takes off the last link, so the induction is on the number of links.
  induction size : links.length generalizing links node with
  | zero =>
    obtain rfl := List.length_eq_zero_iff.mp size
    simp [Chain.holds_first, Chain.IsWitness.first_iff, inside]
  | succ count ih =>
    rcases List.eq_nil_or_concat links with rfl | ⟨others, ⟨combinator, last⟩, rfl⟩
    · cases size
    have shorter : others.length = count := by simpa using size
    rw [List.concat_eq_append, Chain.holds_append, Bool.and_eq_true, List.any_eq_true, beq_iff_eq]
    constructor
    · rintro ⟨kind, candidate, listed, holds⟩
      have candidateInside := tree.related_mem inside listed
      obtain ⟨nodes, witness⟩ := (ih others candidateInside shorter).mp holds
      have stands := (tree.stands_iff candidateInside inside).mpr ⟨candidate, listed, rfl⟩
      exact ⟨nodes ++ [node], witness.append inside kind stands⟩
    · rintro ⟨nodes, witness⟩
      obtain ⟨kind, before, nodes, stands, witness⟩ := witness.exists_of_append
      have beforeInside := witness.inside before (List.mem_of_getLast? witness.last)
      obtain ⟨candidate, listed, same⟩ := (tree.stands_iff beforeInside inside).mp stands
      have candidateInside := tree.related_mem inside listed
      refine ⟨kind, candidate, listed, ?_⟩
      rw [tree.holds_eq _ candidateInside beforeInside same]
      exact (ih others beforeInside shorter).mpr ⟨nodes, witness⟩

/-- **A chain matches a node exactly if there is a witness.**  The search from the nearest
candidate to the farthest, with its memo, misses none. -/
theorem chainMatches_iff_exists_witness (tree : view.WellFormed member) (chain : Chain)
    {node : Node} (inside : member node) :
    chainMatches view chain node = true ↔
      ∃ nodes, chain.IsWitness view member node nodes := by
  rw [tree.chainMatches_eq_holds chain inside]
  exact tree.holds_iff_exists_witness chain.first chain.links inside

end TreeView.WellFormed

/-- In a block over a comment and a string, the string comes after the comment. -/
theorem Forest.block_matches_string :
    1 < 3 ∧
      chainMatches block.view ⟨"block", [(.child, "comment"), (.sibling, "string")]⟩ 1 = true ∧
      ¬∃ nodes, Chain.IsWitness block.view (· < 3) ⟨"string", [(.sibling, "comment")]⟩ 0 nodes := by
  have first : 0 < 3 := by decide
  have second : 1 < 3 := by decide
  refine ⟨second, (wellFormed_block.chainMatches_iff_exists_witness _ second).mpr
    ⟨[2, 0, 1], rfl, rfl, by decide, ?_⟩, ?_⟩
  · intro place combinator left right joint leftmost next
    match place with
    | 0 =>
      cases joint
      cases leftmost
      cases next
      exact ⟨by decide, 0, rfl⟩
    | 1 =>
      cases joint
      cases leftmost
      cases next
      exact ⟨2, 0, 1, by decide, by decide, rfl, rfl⟩
    | place + 2 => cases joint
  · rw [← wellFormed_block.chainMatches_iff_exists_witness _ first,
      wellFormed_block.chainMatches_eq_holds _ first]
    decide

end TreeStyle
